/-
# The shell over two drives

If the operations of two drives keep a relation between their states and answer alike
(`StoreSim`), then the shell over one of them goes as the shell over the other: the same results,
the same output, the same table of commands, and it stops where the other one stops
(`StoreSim.shellTask`).  Programs are covered by the simulation of the interpreter.

The first drive may give up.  Nothing more is said from then on.
-/
import SilOS.Shell.System

namespace SilOS

open Lib Comp Risp

/-- The same state with another drive. -/
def World.withFiles {M N : Type} (w : World M) (files : N) : World N where
  files := files
  commands := w.commands
  task := w.task
  output := w.output
  edits := w.edits
  games := w.games
  written := w.written
  binds := w.binds

/-- Two answers to a command of the file system: the same outcome and related drives, or none at
all, unless the first drive has given up. -/
inductive SameAnswer {M N : Type} (rel : M → N → Prop) (gone : M → Prop) :
    Except Fault (Outcome × M) → Except Fault (Outcome × N) → Prop
  | ok {o : Outcome} {m : M} {n : N} (h : rel m n) : SameAnswer rel gone (.ok (o, m)) (.ok (o, n))
  | error {e e' : Fault} : SameAnswer rel gone (.error e) (.error e')
  | gone {o : Outcome} {m : M} {r : Except Fault (Outcome × N)} (h : gone m) :
      SameAnswer rel gone (.ok (o, m)) r

/-- A relation between the states of two drives that their operations keep. -/
structure StoreSim {M N : Type} (A : FileOps M) (B : FileOps N) where
  rel : M → N → Prop
  /-- The states in which the first drive has given up. -/
  gone : M → Prop
  handle : ∀ cmd {m n}, rel m n → SameAnswer rel gone (A.handle m cmd) (B.handle n cmd)
  catPrints : ∀ args {m n}, rel m n → A.catPrints m args = B.catPrints n args
  readSector : ∀ loc {m n}, rel m n → gone (A.readSector m loc).2 ∨
    rel (A.readSector m loc).2 (B.readSector n loc).2 ∧
      (A.readSector m loc).1 = (B.readSector n loc).1
  writeSector : ∀ loc bytes {m n}, rel m n → gone (A.writeSector m loc bytes) ∨
    rel (A.writeSector m loc bytes) (B.writeSector n loc bytes)
  gone_handle : ∀ cmd {m o m'}, gone m → A.handle m cmd = .ok (o, m') → gone m'
  gone_readSector : ∀ loc {m}, gone m → gone (A.readSector m loc).2
  gone_writeSector : ∀ loc bytes {m}, gone m → gone (A.writeSector m loc bytes)

namespace StoreSim

variable {F M N : Type} {floats : FloatOps F} {A : FileOps M} {B : FileOps N} (S : StoreSim A B)

/-- The states of the two shells: all but the drives is the same. -/
def Alongside (w : World M) (w' : World N) : Prop := ∃ n, S.rel w.files n ∧ w' = w.withFiles n

/-- What happens over the first drive happens over the second one, unless the first has given up. -/
structure Follows (f : World M → Option CommandOutcome × World M)
    (g : World N → Option CommandOutcome × World N) : Prop where
  gone : ∀ w, S.gone w.files → S.gone (f w).2.files
  rel : ∀ w w', S.Alongside w w' → S.gone (f w).2.files ∨
    S.Alongside (f w).2 (g w').2 ∧ (f w).1 = (g w').1

variable {S} {p : List Str → World M → Option CommandOutcome × World M}
  {q : List Str → World N → Option CommandOutcome × World N}

/-! ### Commands -/

/-- A command that leaves the drive alone. -/
lemma follows_local {f : World M → Option CommandOutcome × World M}
    {g : World N → Option CommandOutcome × World N} (hfiles : ∀ w, (f w).2.files = w.files)
    (hsame : ∀ w n, g (w.withFiles n) = ((f w).1, (f w).2.withFiles n)) : S.Follows f g := by
  refine ⟨fun w hw => by rwa [hfiles], ?_⟩
  rintro w _ ⟨n, hn, rfl⟩
  rw [hsame]
  exact Or.inr ⟨⟨n, by rwa [hfiles], rfl⟩, rfl⟩

/-- A command after a change that leaves the drive alone. -/
lemma Follows.after {f : World M → Option CommandOutcome × World M}
    {g : World N → Option CommandOutcome × World N} (h : S.Follows f g) {pre : World M → World M}
    {pre' : World N → World N} (hfiles : ∀ w, (pre w).files = w.files)
    (hsame : ∀ w n, pre' (w.withFiles n) = (pre w).withFiles n) :
    S.Follows (fun w => f (pre w)) fun w => g (pre' w) := by
  refine ⟨fun w hw => h.gone _ (by rwa [hfiles]), ?_⟩
  rintro w _ ⟨n, hn, rfl⟩
  rw [hsame]
  exact h.rel _ _ ⟨n, by rwa [hfiles], rfl⟩

lemma follows_fileCommand (hprogram : ∀ expr, S.Follows (p expr) (q expr)) (cmd : Command) :
    S.Follows (fileCommand A p cmd) (fileCommand B q cmd) := by
  refine ⟨fun w hw => ?_, ?_⟩
  · rw [fileCommand]
    rcases h : A.handle w.files cmd with e | ⟨result | expr, files⟩
    · exact hw
    · exact S.gone_handle cmd hw h
    · exact (hprogram expr).gone _ (S.gone_handle cmd hw h)
  · rintro w _ ⟨n, hn, rfl⟩
    have hanswer := S.handle cmd hn
    rw [fileCommand, fileCommand, show (w.withFiles n).files = n from rfl]
    generalize A.handle w.files cmd = r at hanswer ⊢
    generalize B.handle n cmd = r' at hanswer ⊢
    cases hanswer with
    | error => exact Or.inr ⟨⟨n, hn, rfl⟩, rfl⟩
    | @gone o m _ h =>
        cases o with
        | done result => exact Or.inl h
        | interpret expr => exact Or.inl ((hprogram expr).gone _ h)
    | @ok o m n' h =>
        cases o with
        | done result => exact Or.inr ⟨⟨n', h, rfl⟩, rfl⟩
        | interpret expr => exact (hprogram expr).rel _ _ ⟨n', h, rfl⟩

lemma follows_sectorCommand {f : Fat16.Sector → World M → Option CommandOutcome × World M}
    {g : Fat16.Sector → World N → Option CommandOutcome × World N}
    (hfound : ∀ buffer, S.Follows (f buffer) (g buffer)) (args : List Str) :
    S.Follows (fun w => sectorCommand A args w f) fun w => sectorCommand B args w g := by
  refine ⟨fun w hw => ?_, ?_⟩
  · rw [sectorCommand]
    split_ifs
    · exact hw
    · split
      · exact hw
      · exact (hfound _).gone _ (S.gone_readSector _ hw)
  · rintro w _ ⟨n, hn, rfl⟩
    rw [sectorCommand, sectorCommand]
    split_ifs
    · exact Or.inr ⟨⟨n, hn, rfl⟩, rfl⟩
    · split
      · exact Or.inr ⟨⟨n, hn, rfl⟩, rfl⟩
      · rename_i loc _
        rcases S.readSector loc hn with hgone | ⟨hrel, hsame⟩
        · exact Or.inl ((hfound _).gone _ hgone)
        · dsimp only
          rw [show (w.withFiles n).files = n from rfl, ← hsame]
          exact (hfound _).rel _ _ ⟨_, hrel, rfl⟩

lemma follows_writeSectorCommand (args : List Str) :
    S.Follows (writeSectorCommand A args) (writeSectorCommand B args) := by
  refine ⟨fun w hw => ?_, ?_⟩
  · rw [writeSectorCommand]
    split_ifs
    · exact hw
    · split
      · exact hw
      · dsimp only
        split_ifs
        · exact hw
        · exact S.gone_writeSector _ _ hw
  · rintro w _ ⟨n, hn, rfl⟩
    rw [writeSectorCommand, writeSectorCommand]
    split_ifs
    · exact Or.inr ⟨⟨n, hn, rfl⟩, rfl⟩
    · split
      · exact Or.inr ⟨⟨n, hn, rfl⟩, rfl⟩
      · dsimp only
        split_ifs
        · exact Or.inr ⟨⟨n, hn, rfl⟩, rfl⟩
        · exact (S.writeSector _ _ hn).imp id fun hrel => ⟨⟨_, hrel, rfl⟩, rfl⟩

lemma withFiles_foldl_print {α : Type} (text : α → String) (l : List α) (w : World M) (n : N) :
    l.foldl (fun w a => w.print (text a)) (w.withFiles n) =
      (l.foldl (fun w a => w.print (text a)) w).withFiles n := by
  induction l generalizing w with
  | nil => rfl
  | cons a l ih => exact ih (w.print (text a))

lemma files_foldl_print {α : Type} (text : α → String) (l : List α) (w : World M) :
    (l.foldl (fun w a => w.print (text a)) w).files = w.files := by
  induction l generalizing w with
  | nil => rfl
  | cons a l ih => exact ih (w.print (text a))

lemma follows_catFile (hprogram : ∀ expr, S.Follows (p expr) (q expr)) (args : List Str) :
    S.Follows (fun w => Handler.run A p args w .catFile)
      fun w => Handler.run B q args w .catFile := by
  have hprint (lines : List String) :
      S.Follows (fun w => fileCommand A p (.cat args) (lines.foldl World.println w))
        fun w => fileCommand B q (.cat args) (lines.foldl World.println w) :=
    (follows_fileCommand hprogram (.cat args)).after
      (fun w => files_foldl_print (· ++ "\n") lines w)
      fun w n => withFiles_foldl_print (· ++ "\n") lines w n
  refine ⟨fun w hw => ?_, ?_⟩
  · simp only [Handler.run]
    split
    · exact hw
    · exact (hprint _).gone w hw
  · rintro w _ ⟨n, hn, rfl⟩
    simp only [Handler.run]
    rw [show (w.withFiles n).files = n from rfl, ← S.catPrints args hn]
    split
    · exact Or.inr ⟨⟨n, hn, rfl⟩, rfl⟩
    · exact (hprint _).rel w _ ⟨n, hn, rfl⟩

/-- The handlers. -/
lemma follows_run (hprogram : ∀ expr, S.Follows (p expr) (q expr)) (args : List Str)
    (f : Handler) : S.Follows (fun w => f.run A p args w) fun w => f.run B q args w := by
  cases f with
  | pong =>
      refine follows_local (fun w => ?_) fun w n => ?_
      · simp only [Handler.run]
        split <;> rfl
      · simp only [Handler.run, World.withFiles]
        split <;> rfl
  | clear => exact follows_local (fun _ => rfl) fun _ _ => rfl
  | history =>
      refine follows_local (fun w => files_foldl_print historyLine _ w) fun w n => ?_
      simp only [Handler.run]
      rw [withFiles_foldl_print]
      rfl
  | echo =>
      refine follows_local (fun w => ?_) fun w n => ?_
      · simp only [Handler.run]
        split_ifs <;> rfl
      · simp only [Handler.run]
        split_ifs <;> rfl
  | parseCmd =>
      simp only [Handler.run]
      split_ifs
      · exact follows_local (fun _ => rfl) fun _ _ => rfl
      · exact hprogram _
  | bind => exact follows_local (fun _ => rfl) fun _ _ => rfl
  | read =>
      simp only [Handler.run]
      refine follows_sectorCommand (fun buffer => follows_local (fun w => ?_) fun w n => ?_) args
      · exact files_foldl_print _ buffer.toList w
      · rw [withFiles_foldl_print]
  | write => exact follows_writeSectorCommand args
  | readAsString =>
      simp only [Handler.run]
      refine follows_sectorCommand (fun buffer => ?_) args
      cases decodeUtf8 buffer.toList with
      | none => exact follows_local (fun _ => rfl) fun _ _ => rfl
      | some text => exact follows_local (fun _ => rfl) fun _ _ => rfl
  | formatDisk =>
      exact (follows_fileCommand hprogram .formatd).after (fun _ => rfl) fun _ _ => rfl
  | makeFile => exact follows_fileCommand hprogram _
  | catFile => exact follows_catFile hprogram args
  | runFile => exact follows_fileCommand hprogram _
  | edit => exact follows_fileCommand hprogram _
  | runEdit =>
      have hcmd (keys : List Editor.Op) := follows_fileCommand hprogram (.eden args keys)
      refine ⟨fun w hw => ?_, ?_⟩
      · simp only [Handler.run]
        split
        · exact hw
        · exact (hcmd _).gone _ hw
      · rintro w _ ⟨n, hn, rfl⟩
        simp only [Handler.run, show (w.withFiles n).edits = w.edits from rfl]
        split
        · exact Or.inr ⟨⟨n, hn, rfl⟩, rfl⟩
        · exact (hcmd _).rel _ _ ⟨n, hn, rfl⟩
  | quit => exact follows_local (fun _ => rfl) fun _ _ => rfl

/-! ### Programs -/

variable (S) in
/-- The two systems in which a program runs. -/
def hostSim (hcmd : ∀ cmd, S.Follows (p cmd) (q cmd)) (names : List Str) :
    HostSim (⟨floats, p, fun s w => w.println s, names⟩ : Host F (World M))
      ⟨floats, q, fun s w => w.println s, names⟩ where
  rel := S.Alongside
  gone w := S.gone w.files
  ops := rfl
  commandList := rfl
  runCmd cmd w w' hw := (hcmd cmd).rel w w' hw
  println text w w' := by
    rintro ⟨n, hn, rfl⟩
    exact ⟨n, hn, rfl⟩
  gone_runCmd cmd w hw := (hcmd cmd).gone w hw
  gone_println _ _ hw := hw

lemma follows_programIn (hcmd : ∀ cmd, S.Follows (p cmd) (q cmd)) (fuel : ℕ) (expr : List Str) :
    S.Follows (programIn floats p fuel expr) (programIn floats q fuel expr) := by
  have hsame (names : List Str) :
      (S.hostSim hcmd names).Same
        (interpret (⟨floats, p, fun s w => w.println s, names⟩ : Host F (World M)) fuel expr)
        (interpret ⟨floats, q, fun s w => w.println s, names⟩ fuel expr) :=
    (S.hostSim hcmd names).same_interpret fuel expr
  refine ⟨fun w hw => (hsame _).keeps ⟨[], w, [], []⟩ hw, fun w w' hw => ?_⟩
  have hnames : w'.commands = w.commands := by
    obtain ⟨n, -, rfl⟩ := hw
    rfl
  simp only [programIn, hnames]
  refine ((hsame _).rel ⟨[], w, [], []⟩ ⟨[], w', [], []⟩ ⟨rfl, rfl, hw⟩).imp id ?_
  rintro ⟨hend, hresult⟩
  refine ⟨hend.world, ?_⟩
  rw [SameEnd.eq hresult]

/-- **Commands.**  A command over one drive goes as over the other. -/
theorem follows_runCmd (fuel : ℕ) (cmd : List Str) :
    S.Follows (runCmd floats A fuel cmd) (runCmd floats B fuel cmd) := by
  induction fuel generalizing cmd with
  | zero => exact follows_local (fun _ => rfl) fun _ _ => rfl
  | succ fuel ih =>
      have hprogram (expr : List Str) :
          S.Follows (programIn floats (runCmd floats A fuel) fuel expr)
          (programIn floats (runCmd floats B fuel) fuel expr) := follows_programIn ih fuel expr
      cases cmd with
      | nil => exact follows_local (fun _ => rfl) fun _ _ => rfl
      | cons name args =>
          refine ⟨fun w hw => ?_, ?_⟩
          · rw [runCmd]
            split
            · exact hw
            · exact (follows_run hprogram _ _).gone w hw
            · exact (hprogram _).gone w hw
          · rintro w _ ⟨n, hn, rfl⟩
            rw [runCmd, runCmd, show (w.withFiles n).commands = w.commands from rfl]
            split
            · exact Or.inr ⟨⟨n, hn, rfl⟩, rfl⟩
            · exact (follows_run hprogram _ _).rel w _ ⟨n, hn, rfl⟩
            · exact (hprogram _).rel w _ ⟨n, hn, rfl⟩

/-! ### Sessions -/

open Machine

lemma report_withFiles (w : World M) (n : N) (outcome : CommandOutcome) :
    (w.withFiles n).report outcome = (w.report outcome).withFiles n := by
  cases outcome with
  | success successCode printCode => cases printCode <;> rfl
  | failed errorCode => rfl
  | notFound errorCode => rfl

lemma files_report (w : World M) (outcome : CommandOutcome) :
    (w.report outcome).files = w.files := by
  cases outcome with
  | success successCode printCode => cases printCode <;> rfl
  | failed errorCode => rfl
  | notFound errorCode => rfl

/-- What the shell makes of the end of a command. -/
def afterCommand (r : Option CommandOutcome × World M) :
    Except (World M) (Option CommandOutcome × World M) :=
  match r with
  | (none, w) => .error w
  | (some outcome, w) => .ok (some outcome, (w.report outcome).print "> ")

lemma files_last_afterCommand (r : Option CommandOutcome × World M) :
    (last (afterCommand r)).files = r.2.files := by
  rcases r with ⟨_ | outcome, w⟩
  · rfl
  · exact files_report w outcome

lemma coupled_afterCommand {r : Option CommandOutcome × World M}
    {r' : Option CommandOutcome × World N} (hworld : S.Alongside r.2 r'.2) (hsame : r.1 = r'.1) :
    Coupled S.Alongside (afterCommand r) (afterCommand r') := by
  rcases r with ⟨o, w⟩
  rcases r' with ⟨o', w'⟩
  obtain rfl : o = o' := hsame
  cases o with
  | none => exact .error hworld
  | some outcome =>
      obtain ⟨n, hn, rfl⟩ := hworld
      refine .ok ⟨n, ?_, ?_⟩
      · exact (files_report w outcome).symm ▸ hn
      · rw [report_withFiles]
        rfl

/-- An iteration of the shell: a command may be run. -/
lemma step_eq (A : FileOps M) (fuel : ℕ) (w : World M) (batch : List DecodedKey) :
    (SilOS.shellTask floats A fuel).step w batch =
      if (w.drain batch).task.commandPending then
        match (w.drain batch).task.takeCommand with
        | (none, task) => .ok (none, { w.drain batch with task := task }.print "> ")
        | (some cmdVec, task) =>
            afterCommand (runCmd floats A fuel cmdVec { w.drain batch with task := task })
      else .ok (none, w.drain batch) := by
  change (w.drain batch).runLine floats A fuel = _
  rw [World.runLine]
  split_ifs
  · rcases (w.drain batch).task.takeCommand with ⟨_ | cmdVec, task⟩
    · rfl
    · rfl
  · rfl

lemma gone_step (fuel : ℕ) (w : World M) (batch : List DecodedKey) (hw : S.gone w.files) :
    S.gone (last ((SilOS.shellTask floats A fuel).step w batch)).files := by
  rw [step_eq]
  split_ifs
  · split
    · exact hw
    · rename_i cmdVec task _
      have hcmd : S.Follows (runCmd floats A fuel cmdVec) (runCmd floats B fuel cmdVec) :=
        follows_runCmd fuel cmdVec
      rw [files_last_afterCommand]
      exact hcmd.gone _ hw
  · exact hw

lemma coupled_step (fuel : ℕ) (w : World M) (w' : World N) (batch : List DecodedKey)
    (hw : S.Alongside w w') :
    S.gone (last ((SilOS.shellTask floats A fuel).step w batch)).files ∨
      Coupled S.Alongside ((SilOS.shellTask floats A fuel).step w batch)
        ((SilOS.shellTask floats B fuel).step w' batch) := by
  obtain ⟨n, hn, rfl⟩ := hw
  rw [step_eq, step_eq, show ((w.withFiles n).drain batch).task = (w.drain batch).task from rfl]
  split_ifs
  · split
    · exact Or.inr (.ok ⟨n, hn, rfl⟩)
    · rename_i cmdVec task _
      have hcmd : S.Follows (runCmd floats A fuel cmdVec) (runCmd floats B fuel cmdVec) :=
        follows_runCmd fuel cmdVec
      have hstart : S.Alongside { w.drain batch with task := task }
          { (w.withFiles n).drain batch with task := task } := ⟨n, hn, rfl⟩
      rw [files_last_afterCommand]
      exact (hcmd.rel _ _ hstart).imp id fun hend => coupled_afterCommand hend.1 hend.2
  · exact Or.inr (.ok ⟨n, hn, rfl⟩)

/-- **The same shell.**  Over two drives that answer alike the shell goes through the same states
but for the drives, with the same results, and stops in the same states, unless the first drive
gives up. -/
theorem shellTask (fuel : ℕ) {w : World M} {w' : World N} (hw : S.Alongside w w')
    (batches : List (List DecodedKey)) :
    S.gone (last ((SilOS.shellTask floats A fuel).run w batches)).files ∨
      Coupled S.Alongside ((SilOS.shellTask floats A fuel).run w batches)
        ((SilOS.shellTask floats B fuel).run w' batches) :=
  run_coupled (G := fun w => S.gone w.files) (gone_step fuel) (coupled_step fuel) hw batches

end StoreSim

end SilOS
