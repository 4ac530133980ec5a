/-
# The shell over the list of files

What the user of the shell has to know of the drive is the list of its files and the number of free
clusters (`Fat16.Catalogue`).  Over this list the file commands need no sectors, no clusters and no
directory.  `idealOps` is a drive that holds such a list.  It gives up at an overwrite that runs out
of space, and when a command reads or writes a sector.

`shell_refines_ideal`: until then, the shell over a formatted drive cannot be told from the shell
over the list.
-/
import SilOS.Fat16.Catalogue
import SilOS.Shell.Stores

namespace SilOS

open Lib Fat16 Fat16FileSystem Risp

/-! ### The commands on a list of files -/

/-- What `mkdir` reports. -/
def createdReport (name ext : Str) (data : List UInt8) : Except FsError Unit → Outcome
  | .ok () => .success ("Created " ++ String.ofList name ++ "." ++ String.ofList ext ++ " (" ++
      toString data.length ++ " bytes)") true
  | .error e => .error ("FS Error: " ++ e.message)

/-- What `edit` reports. -/
def editedReport (_ _ : Str) (_ : List UInt8) : Except FsError Unit → Outcome
  | .ok () => .success "Worked" false
  | .error e => .error e.message

namespace Fat16.Catalogue

variable (c : Catalogue) (args : List Str)

/-- `mkdir` and `edit`: `none` is a list that has given up. -/
def writeCommand (usage : String)
    (call : Bytes 8 × Bytes 3 → List UInt8 → Option (Except FsError Unit × Catalogue))
    (report : Str → Str → List UInt8 → Except FsError Unit → Outcome) :
    Outcome × Option Catalogue :=
  match resolveNameExt args 1 with
  | none => (.error usage, some c)
  | some (name, ext, next) =>
      if args.length ≤ next then (.error usage, some c)
      else
        let data := encodeUtf8 (joinFrom args next)
        match call (upperField 8 name, upperField 3 ext) data with
        | none => (.error "", none)
        | some (result, c) => (report name ext data result, some c)

/-- `cat` and `run`. -/
def readCommand (usage kind invalid : String) (found : ℕ → Str → Outcome) : Outcome :=
  match resolveNameExt args 1 with
  | none => .error usage
  | some (name, ext, next) =>
      match c.contents (upperField 8 name, upperField 3 ext) with
      | none =>
          .error (kind ++ " " ++ String.ofList name ++ "." ++ String.ofList ext ++ " not found")
      | some fileData =>
          match decodeUtf8 fileData with
          | some text => found next text
          | none => .error invalid

/-- The lines that `cat` prints. -/
def catPrints : List String :=
  match resolveNameExt args 1 with
  | none => []
  | some (name, ext, _) =>
      match (c.contents (upperField 8 name, upperField 3 ext)).bind decodeUtf8 with
      | none => []
      | some text => ["--- " ++ String.ofList name ++ " ---", String.ofList text, "------------"]

/-- What the editor shows at its start. -/
def openEditor (name : Bytes 8 × Bytes 3) : Editor :=
  (c.contents name).elim (Editor.new []) Editor.load

/-- What the editor does at its end. -/
def saveEditor (editor : Editor) (name : Bytes 8 × Bytes 3) : Option Catalogue :=
  let data := encodeUtf8 (List.intercalate ['\n'] editor.lines)
  if (c.contents name).isSome then (c.overwrite name data).toOption.map Prod.snd
  else some (c.create name data).2

/-- The commands of the file system. -/
def handle : Command → Except Fault (Outcome × Option Catalogue)
  | .formatd => .ok (.success "format worked!" true, some blank)
  | .mkdir args => .ok (c.writeCommand args "Usage: mkdir <NAME.EXT | NAME EXT> <data to write>"
      (fun name data => some (c.create name data)) createdReport)
  | .edit args => .ok (c.writeCommand args "Usage: edit <NAME.EXT | NAME EXT> <data>"
      (fun name data => (c.overwrite name data).toOption) editedReport)
  | .eden args keys => do
      let name := formatFat16Name (editorName args).1 (editorName args).2
      let (_, editor) ← Editor.machine.run (c.openEditor name) keys
      return (.success "Worked" false, c.saveEditor editor name)
  | .cat args => .ok (c.readCommand args "Usage: cat <NAME.EXT | NAME EXT>" "File"
      "File contains invalid UTF-8 (might be a binary file)"
      fun _ _ => .success "File read successfully" false, some c)
  | .run args => .ok (c.readCommand args "Usage: run <NAME.EXT | NAME EXT> [args...]" "Script"
      "Script contains invalid text formatting"
      fun next text => .interpret (execName :: Mount.trimNul text :: args.drop next), some c)

end Fat16.Catalogue

/-- A drive that holds a list of files. -/
def idealOps : FileOps (Option Catalogue) where
  handle
    | none, _ => .ok (.error "", none)
    | some c, cmd => c.handle cmd
  catPrints
    | none, _ => .ok []
    | some c, args => .ok (c.catPrints args)
  readSector _ _ := (Bytes.zeros 512, none)
  writeSector _ _ _ := none

/-! ### The drive answers as the list -/

section Answers

variable {c : Catalogue} {m : Mount} {args : List Str} {chain : ℕ → List UInt16} {d : Disk}

/-- The drive that is mounted holds the files of the list, and can be mounted again. -/
structure Holds (m : Mount) (c : Catalogue) : Prop where
  mounted : m.fs = some formatFs
  bootable : Fat16.init m.disk = some formatFs
  lists : ∃ chain, Lists m.disk c chain

/-- The relation between a list that may have given up and a drive. -/
abbrev Ideal (o : Option Catalogue) (m : Mount) : Prop := ∃ c, o = some c ∧ Holds m c

lemma Holds.ideal (h : Holds m c) : Ideal (some c) m := ⟨c, rfl, h⟩

lemma Holds.contents (h : Holds m c) (filename : Bytes 8) (ext : Bytes 3) :
    Mount.contents formatFs m.disk filename ext = .ok (c.contents (filename, ext)) := by
  obtain ⟨chain, hlists⟩ := h.lists
  cases hdata : c.contents (filename, ext) with
  | none => rw [Mount.contents, hlists.implements.absent filename ext hdata, ok_bind]; rfl
  | some data =>
      obtain ⟨entry, hfind, hread⟩ := hlists.implements.present filename ext data hdata
      rw [Mount.contents, hfind, ok_bind]
      dsimp only
      rw [hread]
      rfl

/-- A call of the file system on the list. -/
lemma Holds.call (h : Holds m c) {call : Call} {out : Except FsError Unit} {c₁ : Catalogue}
    (hok : Catalogue.machine.step c call = .ok (out, c₁)) :
    ∃ d, formatFs.machine.step m.disk call = .ok (out, d) ∧ Holds { m with disk := d } c₁ := by
  obtain ⟨chain, hlists⟩ := h.lists
  obtain ⟨d, chain', hstep, hlists'⟩ := hlists.call hok
  exact ⟨d, hstep, h.mounted, (hlists.volume.init_call hstep).trans h.bootable, chain', hlists'⟩

lemma answer_writeCommand (h : Holds m c) {usage notMounted : String}
    {call : Bytes 8 → Bytes 3 → List UInt8 → Call}
    {call' : Bytes 8 × Bytes 3 → List UInt8 → Option (Except FsError Unit × Catalogue)}
    (hcall : ∀ filename ext data, call' (filename, ext) data =
      (Catalogue.machine.step c (call filename ext data)).toOption)
    (report : Str → Str → List UInt8 → Except FsError Unit → Outcome) :
    SameAnswer Ideal (· = none) (.ok (c.writeCommand args usage call' report))
      (m.writeCommand args usage notMounted call report) := by
  rw [Catalogue.writeCommand, Mount.writeCommand]
  rcases resolveNameExt args 1 with - | ⟨name, ext, next⟩
  · exact .ok h.ideal
  · dsimp only
    split_ifs
    · exact .ok h.ideal
    · rw [hcall]
      cases hstep : Catalogue.machine.step c
          (call (upperField 8 name) (upperField 3 ext) (encodeUtf8 (joinFrom args next))) with
      | error e => exact .gone rfl
      | ok r =>
          obtain ⟨d, hdrive, hholds⟩ := h.call hstep
          rw [h.mounted] at hholds ⊢
          dsimp only
          rw [hdrive]
          exact .ok hholds.ideal

lemma answer_readCommand (h : Holds m c) (usage kind invalid : String) (found : ℕ → Str → Outcome) :
    SameAnswer Ideal (· = none) (.ok (c.readCommand args usage kind invalid found, some c))
      (m.readCommand args usage kind invalid found) := by
  rw [Catalogue.readCommand, Mount.readCommand, h.mounted]
  rcases resolveNameExt args 1 with - | ⟨name, ext, next⟩
  · exact .ok h.ideal
  · simp only [h.contents, ok_bind]
    cases c.contents (upperField 8 name, upperField 3 ext) with
    | none => exact .ok h.ideal
    | some fileData =>
        dsimp only
        cases decodeUtf8 fileData with
        | none => exact .ok h.ideal
        | some text => exact .ok h.ideal

lemma catPrints_eq (h : Holds m c) (args : List Str) :
    (.ok (c.catPrints args) : Except Fault (List String)) = m.catPrints args := by
  rw [Catalogue.catPrints, Mount.catPrints, h.mounted]
  rcases resolveNameExt args 1 with - | ⟨name, ext, next⟩
  · rfl
  · simp only [h.contents, ok_bind]
    cases c.contents (upperField 8 name, upperField 3 ext) with
    | none => rfl
    | some fileData =>
        rw [Option.bind_some]
        dsimp only
        cases decodeUtf8 fileData with
        | none => rfl
        | some text => rfl

lemma openEditor_eq (h : Holds m c) (filename : Bytes 8) (ext : Bytes 3) :
    m.openEditor filename ext = .ok (c.openEditor (filename, ext)) := by
  rw [Mount.openEditor, h.mounted]
  simp only [h.contents, ok_bind, Catalogue.openEditor]
  cases c.contents (filename, ext) with
  | none => rfl
  | some fileBytes => rfl

/-- The editor saves the same file. -/
lemma saveEditor_answer (h : Holds m c) (editor : Editor) (filename : Bytes 8) (ext : Bytes 3) :
    c.saveEditor editor (filename, ext) = none ∨
      ∃ m₁, m.saveEditor editor filename ext = .ok m₁ ∧
        Ideal (c.saveEditor editor (filename, ext)) m₁ := by
  have hfs := h.mounted
  obtain ⟨chain, hlists⟩ := h.lists
  rw [Catalogue.saveEditor, Mount.saveEditor, hfs]
  cases hdata : c.contents (filename, ext) with
  | none =>
      have hcreate : Catalogue.machine.step c (.writeNewFile filename ext
          (encodeUtf8 (List.intercalate ['\n'] editor.lines))) = _ := rfl
      obtain ⟨d, hstep, hend⟩ := h.call hcreate
      have hwrite : formatFs.writeNewFile m.disk filename ext
          (encodeUtf8 (List.intercalate ['\n'] editor.lines)) = _ := hstep
      refine Or.inr ⟨{ m with disk := d }, ?_, hend.ideal⟩
      simp only [hlists.implements.absent filename ext hdata, ok_bind, hwrite]
      rw [← hfs]
      rfl
  | some old =>
      obtain ⟨entry, hfind, -⟩ := hlists.implements.present filename ext old hdata
      simp only [Option.isSome_some, if_true]
      cases hover : c.overwrite (filename, ext)
          (encodeUtf8 (List.intercalate ['\n'] editor.lines)) with
      | error e => exact Or.inl rfl
      | ok r =>
          have hcall : Catalogue.machine.step c (.overwriteFile filename ext
              (encodeUtf8 (List.intercalate ['\n'] editor.lines))) = .ok r := hover
          obtain ⟨d, hstep, hend⟩ := h.call hcall
          have hwrite : formatFs.overwriteFile m.disk filename ext
              (encodeUtf8 (List.intercalate ['\n'] editor.lines)) = _ := hstep
          refine Or.inr ⟨{ m with disk := d }, ?_, hend.ideal⟩
          simp only [hfind, ok_bind, hwrite]
          rw [← hfs]
          rfl

/-- **Commands.**  The drive answers every command as the list does. -/
lemma answer_handle (h : Holds m c) (cmd : Command) :
    SameAnswer Ideal (· = none) (c.handle cmd) (m.handle cmd) := by
  cases cmd with
  | formatd =>
      exact .ok ⟨_, rfl, h.mounted, init_formatDrive m.disk, _, lists_formatDrive m.disk⟩
  | mkdir args =>
      have hsame : m.makeFile args = m.writeCommand args
          "Usage: mkdir <NAME.EXT | NAME EXT> <data to write>"
          "File system not mounted! Did you run fs::init()?" .writeNewFile createdReport := rfl
      rw [Catalogue.handle, Mount.handle, hsame]
      exact answer_writeCommand h (fun _ _ _ => rfl) createdReport
  | edit args =>
      have hsame : m.edit args = m.writeCommand args "Usage: edit <NAME.EXT | NAME EXT> <data>"
          "File system not mounted!" .overwriteFile editedReport := rfl
      rw [Catalogue.handle, Mount.handle, hsame]
      exact answer_writeCommand h (fun _ _ _ => rfl) editedReport
  | cat args => exact answer_readCommand h _ _ _ _
  | run args => exact answer_readCommand h _ _ _ _
  | eden args keys =>
      rw [Catalogue.handle, Mount.handle, Mount.runEdit]
      rcases formatFat16Name (editorName args).1 (editorName args).2 with ⟨filename, ext⟩
      simp only [openEditor_eq h, ok_bind]
      cases Editor.machine.run (c.openEditor (filename, ext)) keys with
      | error e => exact .error
      | ok r =>
          rcases saveEditor_answer h r.2 filename ext with hgone | ⟨m₁, hsave, hend⟩
          · exact .gone hgone
          · simp only [ok_bind, hsave]
            exact .ok hend

end Answers

/-- A formatted drive next to the list of its files. -/
def idealSim : StoreSim idealOps Mount.fileOps where
  rel := Ideal
  gone o := o = none
  handle cmd := by
    rintro _ m ⟨c, rfl, h⟩
    exact answer_handle h cmd
  catPrints args := by
    rintro _ m ⟨c, rfl, h⟩
    exact catPrints_eq h args
  readSector _ _ _ _ := Or.inl rfl
  writeSector _ _ _ _ _ := Or.inl rfl
  gone_handle cmd := by
    rintro _ o m' rfl hok
    exact (Prod.mk.inj (Except.ok.inj hok)).2.symm
  gone_readSector _ _ _ := rfl
  gone_writeSector _ _ _ _ := rfl

/-! ### Sessions -/

/-- The list of files after a boot. -/
def Fat16.Catalogue.rebooted (c : Catalogue) : Catalogue :=
  (c.create (testName, testExt) [12, 12, 15]).2

lemma boot_holds {d : Disk} {c : Catalogue} {chain : ℕ → List UInt16}
    (hinit : Fat16.init d = some formatFs) (h : Lists d c chain) :
    ∃ m, boot d = .ok m ∧ Holds m c.rebooted := by
  have hholds : Holds ⟨d, some formatFs⟩ c := ⟨rfl, hinit, chain, h⟩
  have hcall : Catalogue.machine.step c (.writeNewFile testName testExt [12, 12, 15]) =
      .ok (c.create (testName, testExt) [12, 12, 15]) := rfl
  obtain ⟨d', hstep, hend⟩ := hholds.call hcall
  rw [machine_step_writeNewFile] at hstep
  refine ⟨⟨d', some formatFs⟩, ?_, hend⟩
  simp only [boot, hinit, hstep]
  rfl

/-- A session over the drive goes as the one over the list of its files, however it ends. -/
lemma Holds.session {F : Type} {floats : FloatOps F} {m : Mount} {c c₁ : Catalogue}
    {edits : List (List Editor.Op)} {games : List GameEnd} {fuel : ℕ}
    {batches : List (List DecodedKey)} (h : Holds m c)
    (hc : (Machine.last ((shellTask floats idealOps fuel).run (.start (some c) edits games)
      batches)).files = some c₁) :
    ∃ m₁, Holds m₁ c₁ ∧ Machine.Coupled (fun w w' => w' = w.withFiles m₁)
      ((shellTask floats idealOps fuel).run (.start (some c) edits games) batches)
      ((shellTask floats Mount.fileOps fuel).run (.start m edits games) batches) := by
  have hstart : idealSim.Alongside (.start (some c) edits games) (.start m edits games) :=
    ⟨m, h.ideal, rfl⟩
  rcases idealSim.shellTask fuel hstart batches with hgone | hend
  · exact absurd (hc.symm.trans hgone) (by simp)
  · revert hc hend
    generalize (shellTask floats idealOps fuel).run (.start (some c) edits games) batches = r
    generalize (shellTask floats Mount.fileOps fuel).run (.start m edits games) batches = r'
    intro hc hend
    cases hend with
    | ok hw =>
        obtain ⟨m₁, ⟨c', hc', hholds⟩, rfl⟩ := hw
        obtain rfl : c₁ = c' := Option.some.inj (hc.symm.trans hc')
        exact ⟨m₁, hholds, .ok rfl⟩
    | error hw =>
        obtain ⟨m₁, ⟨c', hc', hholds⟩, rfl⟩ := hw
        obtain rfl : c₁ = c' := Option.some.inj (hc.symm.trans hc')
        exact ⟨m₁, hholds, .error rfl⟩

/-- **The shell over a drive is the shell over its list of files.**  After the boot from a formatted
drive, whatever is typed and whatever programs are run: as long as the list of files has not given
up, every command over the drive ends as over the list, with the same output, the same history and
the same table of commands; and if a command over the list does not return, it does not return over
the drive.  In both cases the drive finds and reads the files of the list and has as many free
clusters. -/
theorem shell_refines_ideal {F : Type} (floats : FloatOps F) (d : Disk)
    (edits : List (List Editor.Op)) (games : List GameEnd) (fuel : ℕ)
    (batches : List (List DecodedKey)) :
    ∃ m, boot (formatDrive d) = .ok m ∧
      (∀ outs w c,
        (shellTask floats idealOps fuel).run (.start (some Catalogue.blank.rebooted) edits games)
          batches = .ok (outs, w) → w.files = some c →
        ∃ m₁, (shellTask floats Mount.fileOps fuel).run (.start m edits games) batches =
            .ok (outs, w.withFiles m₁) ∧ m₁.fs = some formatFs ∧
          formatFs.Implements m₁.disk c.contents ∧ formatFs.freeCount m₁.disk = c.free) ∧
      ∀ w c,
        (shellTask floats idealOps fuel).run (.start (some Catalogue.blank.rebooted) edits games)
          batches = .error w → w.files = some c →
        ∃ m₁, (shellTask floats Mount.fileOps fuel).run (.start m edits games) batches =
            .error (w.withFiles m₁) ∧ m₁.fs = some formatFs ∧
          formatFs.Implements m₁.disk c.contents ∧ formatFs.freeCount m₁.disk = c.free := by
  obtain ⟨m, hboot, hholds⟩ := boot_holds (init_formatDrive d) (lists_formatDrive d)
  refine ⟨m, hboot, fun outs w c hrun hc => ?_, fun w c hrun hc => ?_⟩
  · obtain ⟨m₁, hend, hcoupled⟩ := hholds.session (by rw [hrun]; exact hc)
    obtain ⟨chain, hlists⟩ := hend.lists
    obtain ⟨_, hdrive, rfl⟩ := (hrun ▸ hcoupled).of_ok
    exact ⟨m₁, hdrive, hend.mounted, hlists.implements, hlists.freeCount⟩
  · obtain ⟨m₁, hend, hcoupled⟩ := hholds.session (by rw [hrun]; exact hc)
    obtain ⟨chain, hlists⟩ := hend.lists
    obtain ⟨_, hdrive, rfl⟩ := (hrun ▸ hcoupled).of_error
    exact ⟨m₁, hdrive, hend.mounted, hlists.implements, hlists.freeCount⟩

/-- `mkdir a.txt hi` -/
def mkdirLine : List Char :=
  ['m', 'k', 'd', 'i', 'r', ' ', 'a', '.', 't', 'x', 't', ' ', 'h', 'i']

/-- `parse (sys edit "a.txt" 4);` -/
def parseLine : List Char :=
  ['p', 'a', 'r', 's', 'e', ' ', '(', 's', 'y', 's', ' ', 'e', 'd', 'i', 't', ' ', '"', 'a', '.',
   't', 'x', 't', '"', ' ', '4', ')', ';']

/-- A file is created, and a program changes it. -/
theorem shell_refines_ideal_program :
    ∃ m m₁ outs w, boot (formatDrive blankDrive) = .ok m ∧
      (shellTask digitOps Mount.fileOps 20).run (.start m [] [])
        [World.typed mkdirLine, World.typed parseLine] = .ok (outs, w) ∧ w.files = m₁ ∧
      ∃ entry, formatFs.findFile m₁.disk (upperField 8 ['a']) (upperField 3 ['t', 'x', 't']) =
        .ok (some entry) ∧ formatFs.readFile m₁.disk entry = .ok [0x34] := by
  obtain ⟨m, hboot, hok, -⟩ := shell_refines_ideal digitOps blankDrive [] [] 20
    [World.typed mkdirLine, World.typed parseLine]
  have hideal : ((shellTask digitOps idealOps 20).run (.start (some Catalogue.blank.rebooted) [] [])
      [World.typed mkdirLine, World.typed parseLine]).toOption.bind (fun r => r.2.files.bind
        fun c => c.contents (upperField 8 ['a'], upperField 3 ['t', 'x', 't'])) = some [0x34] := by
    decide +kernel
  cases hrun : (shellTask digitOps idealOps 20).run (.start (some Catalogue.blank.rebooted) [] [])
      [World.typed mkdirLine, World.typed parseLine] with
  | error w =>
      rw [hrun] at hideal
      exact absurd hideal (by simp [Except.toOption])
  | ok r =>
      rw [hrun, Except.toOption, Option.bind_some] at hideal
      obtain ⟨c, hc, hdata⟩ := Option.bind_eq_some_iff.mp hideal
      obtain ⟨m₁, hdrive, -, himplements, -⟩ := hok r.1 r.2 c hrun hc
      exact ⟨m, m₁, r.1, _, hboot, hdrive, rfl, himplements.present _ _ _ hdata⟩

/-! ### Power cycles -/

/-- What is done between a boot and the moment when the machine is switched off: the edits, the
games, and the keys in their batches. -/
structure Uptime where
  edits : List (List Editor.Op)
  games : List GameEnd
  batches : List (List DecodedKey)

/-- What is seen of a session: how its commands ended, if all of them returned, and what was sent to
`WRITER`. -/
structure Seen where
  outcomes : Option (List (Option CommandOutcome))
  output : List Output

/-- What is seen of a session with this end. -/
def Seen.ofRun {M : Type} (r : Except (World M) (List (Option CommandOutcome) × World M)) : Seen :=
  ⟨r.toOption.map Prod.fst, (Machine.last r).output⟩

/-- Why there is no next boot. -/
inductive Stop where
  /-- The drive cannot be mounted. -/
  | boot
  /-- The list of files has given up. -/
  | list

section Computer

variable {F : Type} (floats : FloatOps F) (fuel : ℕ)

/-- The machine is switched on, used and switched off again; what stays is the drive.  After `quit`,
after a panic and during a command that does not return there is nothing left but to switch it
off. -/
def computer : Machine Disk Uptime Seen Stop where
  step d u :=
    match boot d with
    | .error _ => .error .boot
    | .ok m =>
        let r := (shellTask floats Mount.fileOps fuel).run (.start m u.edits u.games) u.batches
        .ok (.ofRun r, (Machine.last r).files.disk)

/-- The same with a list of files instead of the drive. -/
def idealComputer : Machine Catalogue Uptime Seen Stop where
  step c u :=
    let r := (shellTask floats idealOps fuel).run (.start (some c.rebooted) u.edits u.games)
      u.batches
    match (Machine.last r).files with
    | none => .error .list
    | some c₁ => .ok (.ofRun r, c₁)

variable {floats fuel}

/-- One power cycle. -/
lemma computer_step {d : Disk} {c c₁ : Catalogue} {chain : ℕ → List UInt16} {u : Uptime}
    {seen : Seen} (hinit : Fat16.init d = some formatFs) (h : Lists d c chain)
    (hstep : (idealComputer floats fuel).step c u = .ok (seen, c₁)) :
    ∃ d₁, (computer floats fuel).step d u = .ok (seen, d₁) ∧
      Fat16.init d₁ = some formatFs ∧ ∃ chain₁, Lists d₁ c₁ chain₁ := by
  obtain ⟨m, hboot, hholds⟩ := boot_holds hinit h
  simp only [idealComputer] at hstep
  split at hstep
  · exact absurd hstep (by simp)
  · rename_i c' hc
    obtain ⟨rfl, rfl⟩ := Prod.mk.inj (Except.ok.inj hstep)
    obtain ⟨m₁, hend, hcoupled⟩ := hholds.session hc
    refine ⟨m₁.disk, ?_, hend.bootable, hend.lists⟩
    simp only [computer, hboot, Seen.ofRun, hcoupled.map_fst, hcoupled.last]
    rfl

/-- **Files survive power cycles.**  From a formatted drive, through any number of boots and
sessions, whichever way they end: as long as the list of files has not given up, all commands end
and print as over the list, where each boot adds its test file, and at the end the drive can be
mounted, holds the files of the list and has as many free clusters. -/
theorem computer_refines_ideal (d : Disk) {us : List Uptime} {seen : List Seen} {c : Catalogue}
    (hrun : (idealComputer floats fuel).run Catalogue.blank us = .ok (seen, c)) :
    ∃ d₁, (computer floats fuel).run (formatDrive d) us = .ok (seen, d₁) ∧
      Fat16.init d₁ = some formatFs ∧ formatFs.Implements d₁ c.contents ∧
      formatFs.freeCount d₁ = c.free := by
  obtain ⟨d₁, hd₁, hinit, chain, h⟩ := (computer floats fuel).run_forward
    (idealComputer floats fuel)
    (R := fun d c => Fat16.init d = some formatFs ∧ ∃ chain, Lists d c chain)
    (fun d c u out c₁ ⟨hinit, chain, h⟩ hok => computer_step hinit h hok)
    ⟨init_formatDrive d, _, lists_formatDrive d⟩ hrun
  exact ⟨d₁, hd₁, hinit, h.implements, h.freeCount⟩

end Computer

/-- A file is created before `quit`, and a program changes it after the next boot. -/
def twoBoots : List Uptime :=
  [⟨[], [], [World.typed mkdirLine, World.typed World.quitLine]⟩,
    ⟨[], [], [World.typed parseLine]⟩]

/-- The first session ends with a command that does not return, and its file is there after the
second boot. -/
theorem computer_refines_ideal_program :
    ∃ d₁ seen, (computer digitOps 20).run (formatDrive blankDrive) twoBoots = .ok (seen, d₁) ∧
      seen.map (fun s => s.outcomes.isSome) = [false, true] ∧
      ∃ entry, formatFs.findFile d₁ (upperField 8 ['a']) (upperField 3 ['t', 'x', 't']) =
        .ok (some entry) ∧ formatFs.readFile d₁ entry = .ok [0x34] := by
  have hideal : ((idealComputer digitOps 20).run Catalogue.blank twoBoots).toOption.map
        (fun r => (r.1.map fun s => s.outcomes.isSome,
          r.2.contents (upperField 8 ['a'], upperField 3 ['t', 'x', 't']))) =
      some ([false, true], some [0x34]) := by
    decide +kernel
  cases hrun : (idealComputer digitOps 20).run Catalogue.blank twoBoots with
  | error e =>
      rw [hrun] at hideal
      exact absurd hideal (by simp [Except.toOption])
  | ok r =>
      rw [hrun, Except.toOption, Option.map_some, Option.some.injEq, Prod.mk.injEq] at hideal
      obtain ⟨d₁, hdrive, -, himplements, -⟩ := computer_refines_ideal blankDrive hrun
      exact ⟨d₁, r.1, hdrive, hideal.1, himplements.present _ _ _ hideal.2⟩

end SilOS
