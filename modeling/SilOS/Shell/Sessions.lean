/-
# What a session can do

`Act` lists the elementary changes that commands make.  Every command, also one that runs programs
which run commands, takes the state through such changes only (`reaches_runCmd`), so what they keep
is kept by every session (`shellTask_invariant`).

Two invariants are derived from it.  The table of commands is what the runs of `bind` have made of
`init_cmds`: no name gets lost, and only a name that was given to `bind` changes its meaning.  The
volume on the drive stays well formed, whatever programs do, as long as `write` is not used on the
sectors of the first FAT or of the root directory.

Both hold at the end of every session, also of one that ends with a command that does not return.
If that command panics, it has not written anything (`Mount.Sound.fault`).
-/
import SilOS.Fat16.Files
import SilOS.Shell.Mount
import SilOS.Shell.System

namespace SilOS

open Lib Comp Fat16 Fat16FileSystem Risp

namespace World

/-! ### Elementary changes -/

section Reaches

variable {F M : Type} {floats : FloatOps F} {ops : FileOps M} {w w' : World M}

/-- One change that a command makes. -/
inductive Act (ops : FileOps M) (w : World M) : World M → Prop
  | emit (out : Output) : Act ops w (w.emit out)
  | game {game : GameEnd} {games : List GameEnd} (h : w.games = game :: games) :
      Act ops w { w with games := games }
  | keys {keys : List Editor.Op} {edits : List (List Editor.Op)} (h : w.edits = keys :: edits) :
      Act ops w { w with edits := edits }
  | bind (args : List Str) :
      Act ops w { w with
        commands := (Commands.bind args w.commands).2
        binds := args :: w.binds }
  | handle {cmd : Command} {o : Outcome} {files : M}
      (h : ops.handle w.files cmd = .ok (o, files)) : Act ops w { w with files := files }
  | readSector (loc : UInt32) : Act ops w { w with files := (ops.readSector w.files loc).2 }
  | writeSector (loc : UInt32) (bytes : Sector) :
      Act ops w { w with
        files := ops.writeSector w.files loc bytes
        written := loc :: w.written }

/-- Changes one after the other. -/
abbrev Reaches (ops : FileOps M) : World M → World M → Prop := Relation.ReflTransGen (Act ops)

lemma reaches_println (w : World M) (s : String) : Reaches ops w (w.println s) :=
  .single (.emit _)

lemma reaches_foldl_print {α : Type} (text : α → String) (l : List α) (w : World M) :
    Reaches ops w (l.foldl (fun w a => w.print (text a)) w) := by
  induction l generalizing w with
  | nil => exact .refl
  | cons a l ih => exact .head (.emit _) (ih _)

lemma reaches_fileCommand {program : List Str → World M → Option CommandOutcome × World M}
    (hprogram : ∀ expr w, Reaches ops w (program expr w).2) (cmd : Command) (w : World M) :
    Reaches ops w (fileCommand ops program cmd w).2 := by
  rw [fileCommand]
  rcases h : ops.handle w.files cmd with e | ⟨result | expr, files⟩
  · exact .refl
  · exact .single (.handle h)
  · exact .head (.handle h) (hprogram expr _)

lemma reaches_sectorCommand
    {found : Sector → World M → Option CommandOutcome × World M}
    (hfound : ∀ buffer w, Reaches ops w (found buffer w).2) (args : List Str) (w : World M) :
    Reaches ops w (sectorCommand ops args w found).2 := by
  rw [sectorCommand]
  split_ifs
  · exact .refl
  · split
    · exact .refl
    · exact .head (.readSector _) (hfound _ _)

lemma reaches_writeSectorCommand (args : List Str) (w : World M) :
    Reaches ops w (writeSectorCommand ops args w).2 := by
  rw [writeSectorCommand]
  split_ifs
  · exact .refl
  · split
    · exact .refl
    · dsimp only
      split_ifs
      · exact .refl
      · exact .single (.writeSector _ _)

/-- The handlers, where `program` is what `interpret` does. -/
lemma reaches_run {program : List Str → World M → Option CommandOutcome × World M}
    (hprogram : ∀ expr w, Reaches ops w (program expr w).2) (args : List Str) (w : World M)
    (f : Handler) : Reaches ops w (f.run ops program args w).2 := by
  cases f with
  | pong =>
      rw [Handler.run]
      split
      · exact .refl
      · rename_i hgames
        exact .single (.game hgames)
  | clear => exact .single (.emit _)
  | history => exact reaches_foldl_print historyLine _ w
  | echo =>
      rw [Handler.run]
      split_ifs
      · exact .refl
      · exact reaches_println w _
  | parseCmd =>
      rw [Handler.run]
      split_ifs
      · exact .refl
      · exact hprogram _ w
  | bind => exact .single (.bind args)
  | read =>
      exact reaches_sectorCommand (fun buffer w => reaches_foldl_print _ buffer.toList w) args w
  | write => exact reaches_writeSectorCommand args w
  | readAsString =>
      refine reaches_sectorCommand (fun buffer w => ?_) args w
      split
      · exact .refl
      · exact reaches_println w _
  | formatDisk => exact (reaches_println w _).trans (reaches_fileCommand hprogram _ _)
  | makeFile => exact reaches_fileCommand hprogram _ w
  | catFile =>
      rw [Handler.run]
      split
      · exact .refl
      · exact (reaches_foldl_print (· ++ "\n") _ w).trans (reaches_fileCommand hprogram _ _)
  | runFile => exact reaches_fileCommand hprogram _ w
  | edit => exact reaches_fileCommand hprogram _ w
  | runEdit =>
      rw [Handler.run]
      split
      · exact .refl
      · rename_i hedits
        exact .head (.keys hedits) (reaches_fileCommand hprogram _ _)
  | quit => exact reaches_println w _

/-- A program does what its commands do. -/
lemma reaches_programIn {runCmd : List Str → World M → Option CommandOutcome × World M}
    (hcmd : ∀ cmd w, Reaches ops w (runCmd cmd w).2) (fuel : ℕ) (expr : List Str) (w : World M) :
    Reaches ops w (programIn floats runCmd fuel expr w).2 :=
  keeps_interpret (P := Reaches ops w) (fun cmd _ hw => hw.trans (hcmd cmd _))
    (fun text _ hw => hw.trans (reaches_println _ text)) fuel expr ⟨[], w, [], []⟩ .refl

/-- **Commands.**  Every command, and every program that it runs, makes elementary changes only. -/
theorem reaches_runCmd (fuel : ℕ) (cmd : List Str) (w : World M) :
    Reaches ops w (runCmd floats ops fuel cmd w).2 := by
  induction fuel generalizing cmd w with
  | zero => exact .refl
  | succ fuel ih =>
      have hprogram : ∀ expr w,
          Reaches ops w (programIn floats (runCmd floats ops fuel) fuel expr w).2 :=
        reaches_programIn ih fuel
      cases cmd with
      | nil => exact .refl
      | cons name args =>
          rw [runCmd]
          split
          · exact .refl
          · exact reaches_run hprogram _ w _
          · exact hprogram _ w

/-! ### Sessions -/

lemma reaches_report (w : World M) (outcome : CommandOutcome) :
    Reaches ops w (w.report outcome) := by
  cases outcome with
  | success successCode printCode =>
      rw [report]
      split_ifs
      · exact reaches_println w _
      · exact .refl
  | failed errorCode => exact reaches_println w _
  | notFound errorCode => exact reaches_println w _

/-- An iteration of the shell: the keys are taken, and then come the changes of the command, also
if it does not return. -/
lemma reaches_step (fuel : ℕ) (w : World M) (batch : List DecodedKey) :
    Reaches ops { w.drain batch with task := (w.task.iteration batch).2 }
      (Machine.last ((shellTask floats ops fuel).step w batch)) := by
  change Reaches ops _ (Machine.last ((w.drain batch).runLine floats ops fuel))
  rw [runLine]
  split_ifs with hpending
  · dsimp only
    split
    · exact .single (.emit _)
    · rename_i cmdVec _
      have hcmd : Reaches ops { w.drain batch with task := (w.task.iteration batch).2 }
          (runCmd floats ops fuel cmdVec
            { w.drain batch with task := (w.task.iteration batch).2 }).2 :=
        reaches_runCmd fuel cmdVec _
      split
      · rename_i w₁ hw₁
        rw [show runCmd floats ops fuel cmdVec
          { w.drain batch with task := (w.task.iteration batch).2 } = (none, w₁) from hw₁] at hcmd
        exact hcmd
      · rename_i outcome w₁ hw₁
        rw [show runCmd floats ops fuel cmdVec
          { w.drain batch with task := (w.task.iteration batch).2 } = (some outcome, w₁) from hw₁]
          at hcmd
        exact (hcmd.trans (reaches_report w₁ outcome)).tail (.emit _)
  · have htask : (w.task.iteration batch).2 = (w.drain batch).task := by
      have hfalse : (w.task.drain batch).commandPending = false := by
        simpa [drain] using hpending
      rw [ShellTask.iteration, ShellTask.takeCommand_of_not_pending hfalse, drain]
    rw [htask]
    exact .refl

/-- Changes one after the other keep what one change keeps. -/
lemma Reaches.keeps {P : World M → Prop} (hact : ∀ w w', P w → Act ops w w' → P w')
    (h : Reaches ops w w') (hw : P w) : P w' := by
  induction h with
  | refl => exact hw
  | tail _ hlast ih => exact hact _ _ ih hlast

/-- **Sessions.**  What the elementary changes keep, and what does not depend on the keys that were
typed, is kept by every session, however it ends. -/
theorem shellTask_invariant {P : World M → Prop} (hact : ∀ w w', P w → Act ops w w' → P w')
    (hkeys : ∀ (w : World M) task output, P w → P { w with task := task, output := output })
    (fuel : ℕ) (batches : List (List DecodedKey)) (hw : P w) :
    P (Machine.last ((shellTask floats ops fuel).run w batches)) := by
  refine Machine.last_run_keeps (fun w batch hP => ?_) hw batches
  exact (reaches_step fuel w batch).keeps hact (hkeys w _ (w.drain batch).output hP)

/-- Commands do not touch the shell. -/
lemma Reaches.task (h : Reaches ops w w') : w'.task = w.task := by
  refine h.keeps (P := fun w' => w'.task = w.task) (fun w₁ w₂ hw₁ hact => ?_) rfl
  cases hact <;> exact hw₁

/-- The shell goes through the same states as without commands. -/
lemma task_of_run (fuel : ℕ) (w : World M) (batches : List (List DecodedKey)) :
    (Machine.last ((shellTask floats ops fuel).run w batches)).task =
      ((shellTask floats ops fuel).taken w batches).foldl (fun t batch => (t.iteration batch).2)
        w.task := by
  induction batches generalizing w with
  | nil => rfl
  | cons batch batches ih =>
      have htask : (Machine.last ((shellTask floats ops fuel).step w batch)).task =
          (w.task.iteration batch).2 := (reaches_step fuel w batch).task
      rcases hstep : (shellTask floats ops fuel).step w batch with w₁ | ⟨o, w₁⟩ <;>
        rw [hstep] at htask
      · rw [Machine.run_cons_of_error hstep, Machine.taken_cons_of_error _ hstep]
        exact htask
      · have htask₁ : w₁.task = (w.task.iteration batch).2 := htask
        rw [Machine.last_run_cons hstep, Machine.taken_cons_of_step _ hstep, ih, List.foldl_cons,
          htask₁]

end Reaches

/-! ### Lines -/

section Lines

variable {F M : Type} {floats : FloatOps F} {ops : FileOps M} {line : List Char}

/-- A character that goes into the line as it is. -/
def Plain (c : Char) : Prop := c.toNat < 256 ∧ c ≠ '\x08' ∧ c ≠ '\n'

instance : DecidablePred Plain :=
  fun c => inferInstanceAs (Decidable (c.toNat < 256 ∧ c ≠ '\x08' ∧ c ≠ '\n'))

/-- The state in which the command of a line is run. -/
def entered (w : World M) (line : List Char) : World M :=
  { w with
    task := ⟨⟨[], w.task.shell.pastCmd ++ [words line]⟩, false⟩
    output := ((typed line).flatMap echoKey).reverse ++ w.output }

lemma foldl_edit (hline : ∀ c ∈ line, Plain c) (start : List Char) :
    (line.map DecodedKey.unicode).foldl ShellTask.edit start = start ++ line := by
  induction line generalizing start with
  | nil => simp
  | cons c line ih =>
      rw [List.map_cons, List.foldl_cons, ih fun c hc => hline c (by simp [hc]), ShellTask.edit,
        if_neg (hline c (by simp)).2.1, List.append_assoc, List.singleton_append]

/-- A line that is typed at once is run. -/
lemma step_typed (fuel : ℕ) {w : World M} (hidle : w.task.shell.currentCmd = [])
    (hline : ∀ c ∈ line, Plain c) (hwords : words line ≠ []) :
    (shellTask floats ops fuel).step w (typed line) =
      match runCmd floats ops fuel (words line) (w.entered line) with
      | (none, w) => .error w
      | (some outcome, w) => .ok (some outcome, (w.report outcome).print "> ") := by
  have hne : ∀ c ∈ line, DecodedKey.unicode c ≠ ShellTask.enter := by
    intro c hc heq
    exact (hline c hc).2.2 (DecodedKey.unicode.inj heq)
  have hfits : ∀ key ∈ typed line, ShellTask.FitsByte key := by
    intro key hkey
    rcases List.mem_append.mp hkey with hkey | hkey
    · obtain ⟨c, hc, rfl⟩ := List.mem_map.mp hkey
      exact (hline c hc).1
    · rw [List.mem_singleton.mp hkey]
      decide
  have hfilter : (typed line).filter (· ≠ ShellTask.enter) = line.map .unicode := by
    rw [typed, List.filter_append, List.filter_eq_self.mpr ?_]
    · simp
    · intro key hkey
      obtain ⟨c, hc, rfl⟩ := List.mem_map.mp hkey
      simpa using hne c hc
  have hdrain : w.task.drain (typed line) = ⟨⟨line, w.task.shell.pastCmd⟩, true⟩ := by
    rw [ShellTask.drain_eq hfits, hfilter, foldl_edit hline, hidle, List.nil_append]
    simp [typed]
  have hcmd : (w.task.drain (typed line)).takeCommand =
      (some (words line), ⟨⟨[], w.task.shell.pastCmd ++ [words line]⟩, false⟩) := by
    have hline' : line ≠ [] := by
      rintro rfl
      exact hwords rfl
    rw [hdrain, ShellTask.takeCommand, if_pos rfl, ShellTask.filter_getcmd]
    simp [Shell.getcmd, Shell.clear, hline', hwords]
  have hpending : (w.drain (typed line)).task.commandPending = true := by
    rw [drain, hdrain]
  have htake : (w.drain (typed line)).task.takeCommand = _ := hcmd
  change (w.drain (typed line)).runLine floats ops fuel = _
  rw [runLine, if_pos hpending, htake]
  rfl

/-- A command of the kernel. -/
lemma runCmd_handler (fuel : ℕ) {w : World M} {name : Str} {f : Handler}
    (h : w.commands.lookup name = some (.handler f)) (args : List Str) :
    runCmd floats ops (fuel + 1) (name :: args) w =
      f.run ops (program floats ops fuel) (name :: args) w := by
  rw [runCmd, h]
  rfl

/-- `write` on proper arguments. -/
lemma writeSectorCommand_eq {name index : Str} {rest : List Str} {loc : UInt32} (hrest : rest ≠ [])
    (hloc : parseU32 index = some loc)
    (hdata : (encodeUtf8 (List.intercalate [' '] rest)).length ≤ 512) (w : World M) :
    writeSectorCommand ops (name :: index :: rest) w =
      (some (.success "Sector written successfully" false),
        { w with
          files := ops.writeSector w.files loc
            ((Bytes.zeros 512).copyFromSlice 0 (encodeUtf8 (List.intercalate [' '] rest)))
          written := loc :: w.written }) := by
  have hlen := List.length_pos_of_ne_nil hrest
  have hindex : (name :: index :: rest).getD 1 [] = index := rfl
  have hjoin : joinFrom (name :: index :: rest) 2 = List.intercalate [' '] rest := rfl
  rw [writeSectorCommand, if_neg (by simp only [List.length_cons]; omega), hindex, hloc, hjoin]
  exact if_neg (by omega)

end Lines

/-! ### The table of commands -/

section Table

variable {F M : Type} {floats : FloatOps F} {ops : FileOps M} {w : World M}

lemma bindAll_reverse_cons (args : List Str) (binds : List (List Str)) :
    Commands.bindAll (args :: binds).reverse =
      (Commands.bind args (Commands.bindAll binds.reverse)).2 := by
  simp [Commands.bindAll]

/-- **The table of commands in a session.**  Whatever is typed, whatever programs run, and whether
or not the last command returns: the history is the list of the commands that were begun, and the
table of commands is what the runs of `bind` have made of `init_cmds`, one after the other.  So no
name of `init_cmds` gets lost, and a name stands for what it stood for at first, or for a program
that `bind` was given with this name. -/
theorem session_commands {files : M} {edits : List (List Editor.Op)} {games : List GameEnd}
    {fuel : ℕ} {batches : List (List DecodedKey)}
    (hend : Machine.last ((shellTask floats ops fuel).run (start files edits games) batches) = w) :
    w.task.shell.pastCmd = ShellTask.start.commandsRun
        ((shellTask floats ops fuel).taken (start files edits games) batches) ∧
      w.commands = Commands.bindAll w.binds.reverse ∧
      (∀ name ∈ Commands.getCommandList Commands.initCmds, (w.commands.lookup name).isSome) ∧
      ∀ name, w.commands.lookup name = Commands.initCmds.lookup name ∨
        ∃ args ∈ w.binds, 3 ≤ args.length ∧ args[1]? = some name ∧
          w.commands.lookup name = some (.wrapper (joinFrom args 2)) := by
  have htable : w.commands = Commands.bindAll w.binds.reverse := by
    rw [← hend]
    refine shellTask_invariant (P := fun w => w.commands = Commands.bindAll w.binds.reverse)
      (fun w w' hw hact => ?_) (fun _ _ _ hw => hw) fuel batches rfl
    cases hact with
    | bind args =>
        rw [bindAll_reverse_cons, ← hw]
    | _ => exact hw
  refine ⟨?_, htable, fun name hname => ?_, fun name => ?_⟩
  · rw [← hend, task_of_run, ShellTask.pastCmd_eq_commandsRun]
    rfl
  · rw [htable]
    exact Commands.isSome_lookup_bindAll _ hname
  · rw [htable]
    refine (Commands.lookup_bindAll w.binds.reverse name).imp_right ?_
    rintro ⟨args, hargs, hbound⟩
    exact ⟨args, List.mem_reverse.mp hargs, hbound⟩

/-- `bind echo 1;` -/
def bindLine : List Char := ['b', 'i', 'n', 'd', ' ', 'e', 'c', 'h', 'o', ' ', '1', ';']

/-- `quit` does not return. -/
lemma step_quit {w : World M} {fuel : ℕ} (hidle : w.task.shell.currentCmd = [])
    (hquit : w.commands.lookup quitLine = some (.handler .quit)) :
    (shellTask floats ops (fuel + 1)).step w (typed quitLine) =
      .error ((w.entered quitLine).println "Shutting down...") := by
  have hwords : words quitLine = [quitLine] := by decide
  have hentered : (w.entered quitLine).commands.lookup quitLine = some (.handler .quit) := hquit
  have hcmd : runCmd floats ops (fuel + 1) [quitLine] (w.entered quitLine) = _ :=
    runCmd_handler fuel hentered []
  rw [step_typed (fuel + 1) hidle (by simp [quitLine, Plain]) (by rw [hwords]; decide), hwords,
    hcmd]
  rfl

/-- A name of `init_cmds` is bound to a program, and the session ends with `quit`. -/
theorem session_commands_bind :
    ∃ w, (shellTask digitOps Mount.fileOps 1).run (start ⟨blankDrive, none⟩ [] [])
        [typed bindLine, typed quitLine] = .error w ∧
      w.binds = [[['b', 'i', 'n', 'd'], ['e', 'c', 'h', 'o'], ['1', ';']]] ∧
      w.commands.lookup ['e', 'c', 'h', 'o'] = some (.wrapper ['1', ';']) ∧
      w.commands = Commands.bindAll [[['b', 'i', 'n', 'd'], ['e', 'c', 'h', 'o'], ['1', ';']]] := by
  have hwords : words bindLine = [['b', 'i', 'n', 'd'], ['e', 'c', 'h', 'o'], ['1', ';']] := by
    decide
  have hlookup : ((start (⟨blankDrive, none⟩ : Mount) [] []).entered bindLine).commands.lookup
      ['b', 'i', 'n', 'd'] = some (.handler .bind) := by
    change Commands.initCmds.lookup ['b', 'i', 'n', 'd'] = some (.handler .bind)
    decide
  have hcmd : runCmd digitOps Mount.fileOps 1
      [['b', 'i', 'n', 'd'], ['e', 'c', 'h', 'o'], ['1', ';']]
      ((start ⟨blankDrive, none⟩ [] []).entered bindLine) = _ := runCmd_handler 0 hlookup _
  have hstep : (shellTask digitOps Mount.fileOps 1).step (start ⟨blankDrive, none⟩ [] [])
      (typed bindLine) = _ :=
    step_typed 1 rfl (by simp [bindLine, Plain]) (by rw [hwords]; decide)
  rw [hwords, hcmd] at hstep
  have hquit : (Assoc.insert ['e', 'c', 'h', 'o'] (.wrapper ['1', ';'])
      Commands.initCmds).lookup quitLine = some (.handler .quit) := by
    rw [Assoc.lookup_insert_of_ne (by decide)]
    decide
  have hrun := Machine.run_cons_of_step _ hstep [typed quitLine]
  rw [Machine.run_cons_of_error (step_quit rfl hquit)] at hrun
  have hend := session_commands (congrArg Machine.last hrun)
  exact ⟨_, hrun, rfl, Assoc.lookup_insert_self _ _ _, hend.2.1⟩

end Table

end World

/-! ### The volume -/

/-- The sectors of the first FAT and of the root directory of a formatted drive. -/
def Structural (lba : ℕ) : Prop := 1 ≤ lba ∧ lba < 65 ∨ 129 ≤ lba ∧ lba < 161

instance : DecidablePred Structural :=
  fun lba => inferInstanceAs (Decidable (1 ≤ lba ∧ lba < 65 ∨ 129 ≤ lba ∧ lba < 161))

namespace Fat16.Fat16FileSystem

variable {d d' : Disk} {k : ℕ} {chain : ℕ → List UInt16}

/-- A volume is made of its first FAT and its root directory. -/
lemma Volume.congr (h : formatFs.Volume d k chain) (heq : ∀ lba, Structural lba → d' lba = d lba) :
    formatFs.Volume d' k chain := by
  have htable : formatFs.table d' = formatFs.table d := by
    funext c
    by_cases hc : formatFs.InFat c
    · have hlt := formatFs_inFat.mp hc
      rw [table_of_inFat hc, table_of_inFat hc]
      refine formatFs.getFatEntry_congr (heq _ ?_)
      rw [formatFs_fatSector, Structural]
      omega
    · rw [table, table, if_neg hc, if_neg hc]
  have hslots : ∀ j < formatFs.slotCount, formatFs.slotBytes d' j = formatFs.slotBytes d j := by
    intro j hj
    have hlow := rootLba_le_slotLba formatFs j
    have hhigh := slotLba_lt hj
    rw [formatFs_rootLba] at hlow hhigh
    rw [rootSectors, formatFs_rootEntries] at hhigh
    exact slotBytes_congr (heq _ (Or.inr ⟨hlow, hhigh⟩))
  refine ⟨h.count, ?_, fun j hj => ?_, fun j hk hj => ?_, fun j hj => ?_, h.nonempty, h.cells,
    h.nodup, h.disjoint⟩
  · rw [ReservedInUse, htable]
    exact h.reserved
  · rw [live_congr (hslots j (lt_of_lt_of_le hj h.count))]
    exact h.live j hj
  · rw [live_congr (hslots j hj)]
    exact h.free j hk hj
  · rw [htable, slotEntry_congr (hslots j (lt_of_lt_of_le hj h.count))]
    exact h.leads j hj

/-- A file of a volume can be read. -/
lemma Volume.exists_readFile (h : formatFs.Volume d k chain) {filename : Bytes 8} {ext : Bytes 3}
    {entry : DirectoryEntry} (hfind : formatFs.findFile d filename ext = .ok (some entry)) :
    ∃ data, formatFs.readFile d entry = .ok data := by
  obtain ⟨j, hj, rfl⟩ := (h.findFile_eq_some formatFs_regular).mp hfind
  exact ⟨_, h.readFile formatFs_regular hj.1⟩

end Fat16.Fat16FileSystem

namespace Mount

/-- A formatted drive is mounted, and its volume is well formed. -/
def Sound (m : Mount) : Prop :=
  m.fs = some formatFs ∧ ∃ k chain, formatFs.Volume m.disk k chain

lemma Sound.handle {m m₁ : Mount} {cmd : Command} {o : Outcome} (h : m.Sound)
    (hstep : m.handle cmd = .ok (o, m₁)) : m₁.Sound := by
  obtain ⟨hfs, k, chain, hvol⟩ := h
  cases effect_of_handle hstep with
  | unchanged => exact ⟨hfs, k, chain, hvol⟩
  | formatted => exact ⟨hfs, 0, _, volume_formatDrive m.disk fun _ => []⟩
  | called call hfs' hcall =>
      obtain rfl := Option.some.inj (hfs.symm.trans hfs')
      exact ⟨hfs, (hvol.effect_of_step formatFs_regular hcall).volume formatFs_regular hvol⟩

section Faults

variable {m : Mount}

lemma Sound.exists_call (h : m.Sound) (call : Call) :
    ∃ r, formatFs.machine.step m.disk call = .ok r := by
  obtain ⟨-, k, chain, hvol⟩ := h
  obtain ⟨out, d, hstep, -⟩ := hvol.call formatFs_regular call
  exact ⟨_, hstep⟩

lemma Sound.exists_findFile (h : m.Sound) (filename : Bytes 8) (ext : Bytes 3) :
    ∃ found, formatFs.findFile m.disk filename ext = .ok found := by
  obtain ⟨-, k, chain, hvol⟩ := h
  exact ⟨_, hvol.findFile formatFs_regular filename ext⟩

lemma Sound.exists_contents (h : m.Sound) (filename : Bytes 8) (ext : Bytes 3) :
    ∃ found, contents formatFs m.disk filename ext = .ok found := by
  obtain ⟨found, hfind⟩ := h.exists_findFile filename ext
  rw [contents, hfind, ok_bind]
  cases found with
  | none => exact ⟨_, rfl⟩
  | some entry =>
      obtain ⟨-, k, chain, hvol⟩ := h
      obtain ⟨data, hread⟩ := hvol.exists_readFile hfind
      exact ⟨some data, by simp only [hread]; rfl⟩

lemma Sound.writeCommand_returns (h : m.Sound) (args : List Str) (usage notMounted : String)
    (call : Bytes 8 → Bytes 3 → List UInt8 → Call)
    (report : Str → Str → List UInt8 → Except FsError Unit → Outcome) :
    ∃ r, m.writeCommand args usage notMounted call report = .ok r := by
  rw [writeCommand]
  rcases resolveNameExt args 1 with - | ⟨name, ext, next⟩
  · exact ⟨_, rfl⟩
  · dsimp only
    split_ifs
    · exact ⟨_, rfl⟩
    · obtain ⟨r, hstep⟩ := h.exists_call
        (call (upperField 8 name) (upperField 3 ext) (encodeUtf8 (joinFrom args next)))
      rw [h.1]
      simp only [hstep]
      exact ⟨_, rfl⟩

lemma Sound.readCommand_returns (h : m.Sound) (args : List Str) (usage kind invalid : String)
    (found : ℕ → Str → Outcome) : ∃ r, m.readCommand args usage kind invalid found = .ok r := by
  rw [readCommand]
  rcases resolveNameExt args 1 with - | ⟨name, ext, next⟩
  · exact ⟨_, rfl⟩
  · obtain ⟨data, hdata⟩ := h.exists_contents (upperField 8 name) (upperField 3 ext)
    rw [h.1]
    simp only [hdata, ok_bind]
    rcases data with - | fileData
    · exact ⟨_, rfl⟩
    · dsimp only
      split <;> exact ⟨_, rfl⟩

lemma Sound.exists_openEditor (h : m.Sound) (filename : Bytes 8) (ext : Bytes 3) :
    ∃ editor, m.openEditor filename ext = .ok editor := by
  obtain ⟨data, hdata⟩ := h.exists_contents filename ext
  rw [openEditor, h.1]
  simp only [hdata, ok_bind]
  cases data with
  | none => exact ⟨_, rfl⟩
  | some fileBytes => exact ⟨_, rfl⟩

lemma Sound.saveEditor_returns (h : m.Sound) (editor : Editor) (filename : Bytes 8)
    (ext : Bytes 3) : ∃ m₁, m.saveEditor editor filename ext = .ok m₁ := by
  obtain ⟨found, hfind⟩ := h.exists_findFile filename ext
  rw [saveEditor, h.1]
  simp only [hfind, ok_bind]
  generalize encodeUtf8 (List.intercalate ['\n'] editor.lines) = bytes
  cases found with
  | none =>
      obtain ⟨r, hcall⟩ := h.exists_call (.writeNewFile filename ext bytes)
      have hnew : formatFs.writeNewFile m.disk filename ext bytes = .ok r := hcall
      simp only [hnew, ok_bind]
      exact ⟨_, rfl⟩
  | some entry =>
      obtain ⟨r, hcall⟩ := h.exists_call (.overwriteFile filename ext bytes)
      have hover : formatFs.overwriteFile m.disk filename ext bytes = .ok r := hcall
      simp only [hover, ok_bind]
      exact ⟨_, rfl⟩

/-- **Panics.**  On a well-formed volume only a key in the editor can make a command panic, and then
nothing has been written yet. -/
theorem Sound.fault {cmd : Command} {f : Fault} (h : m.Sound) (hfault : m.handle cmd = .error f) :
    ∃ args keys editor, cmd = .eden args keys ∧
      m.openEditor (formatFat16Name (editorName args).1 (editorName args).2).1
        (formatFat16Name (editorName args).1 (editorName args).2).2 = .ok editor ∧
      Editor.machine.run editor keys = .error f := by
  have hnot : ¬ ∃ r, m.handle cmd = .ok r := by
    rintro ⟨r, hr⟩
    exact absurd (hr.symm.trans hfault) (by simp)
  cases cmd with
  | formatd => exact absurd ⟨_, rfl⟩ hnot
  | mkdir args =>
      rw [Mount.handle, makeFile] at hnot
      exact absurd (h.writeCommand_returns args _ _ _ _) hnot
  | edit args =>
      rw [Mount.handle, edit] at hnot
      exact absurd (h.writeCommand_returns args _ _ _ _) hnot
  | cat args => exact absurd (h.readCommand_returns args _ _ _ _) hnot
  | run args => exact absurd (h.readCommand_returns args _ _ _ _) hnot
  | eden args keys =>
      obtain ⟨editor, hopen⟩ := h.exists_openEditor
        (formatFat16Name (editorName args).1 (editorName args).2).1
        (formatFat16Name (editorName args).1 (editorName args).2).2
      refine ⟨args, keys, editor, rfl, hopen, ?_⟩
      have hrun : m.runEdit args keys = .error f := hfault
      simp only [runEdit, hopen, ok_bind] at hrun
      rcases hkeys : Editor.machine.run editor keys with f' | ⟨outs, editor'⟩ <;> rw [hkeys] at hrun
      · rw [error_bind] at hrun
        exact congrArg Except.error (Except.error.inj hrun)
      · -- after the last key the file is saved, which returns
        obtain ⟨m₁, hsave⟩ := h.saveEditor_returns editor' _ _
        rw [ok_bind, hsave, ok_bind] at hrun
        exact absurd hrun (by simp [pure, Except.pure])

end Faults

lemma Sound.writeSector {m : Mount} (h : m.Sound) {loc : UInt32}
    (hloc : ¬ Structural (loc.toNat % 2 ^ 28)) (bytes : Sector) :
    (fileOps.writeSector m loc bytes).Sound := by
  obtain ⟨hfs, k, chain, hvol⟩ := h
  refine ⟨hfs, k, chain, hvol.congr fun lba hlba => ?_⟩
  refine writeSectorBytes_ne _ _ ?_
  rintro rfl
  exact hloc hlba

/-- The kernel boots from a formatted drive. -/
lemma boot_formatDrive (d : Disk) : ∃ m, boot (formatDrive d) = .ok m ∧ m.Sound := by
  have hvol := volume_formatDrive d fun _ => []
  obtain ⟨out, d', hstep, heff⟩ :=
    hvol.call formatFs_regular (.writeNewFile testName testExt [12, 12, 15])
  have hcall :
      formatFs.writeNewFile (formatDrive d) testName testExt [12, 12, 15] = .ok (out, d') :=
    hstep
  refine ⟨⟨d', some formatFs⟩, ?_, rfl, heff.volume formatFs_regular hvol⟩
  simp only [boot, init_formatDrive, hcall]
  rfl

/-- **The volume in a session.**  After the boot from a formatted drive, whatever is typed, whatever
programs run, whatever games and editing sessions there are, and whether or not the last command
returns: as long as `write` was not used on a sector of the first FAT or of the root directory, the
chains of all files are well formed and disjoint, and every file that is found can be read. -/
theorem session_keeps_volume {F : Type} {floats : FloatOps F} {d : Disk} {m : Mount}
    (hboot : boot (formatDrive d) = .ok m) {edits : List (List Editor.Op)} {games : List GameEnd}
    {fuel : ℕ} {batches : List (List DecodedKey)} {w : World Mount}
    (hend : Machine.last ((shellTask floats fileOps fuel).run (.start m edits games) batches) = w)
    (hwritten : ∀ loc ∈ w.written, ¬ Structural (loc.toNat % 2 ^ 28)) :
    w.files.fs = some formatFs ∧ (∃ chain, formatFs.ChainsWellFormed w.files.disk chain) ∧
      ∀ filename ext entry, formatFs.findFile w.files.disk filename ext = .ok (some entry) →
        ∃ data, formatFs.readFile w.files.disk entry = .ok data := by
  obtain ⟨m', hboot', hsound⟩ := boot_formatDrive d
  obtain rfl := Except.ok.inj (hboot'.symm.trans hboot)
  have hvolume : (∀ loc ∈ w.written, ¬ Structural (loc.toNat % 2 ^ 28)) → w.files.Sound := by
    rw [← hend]
    refine World.shellTask_invariant
      (P := fun w : World Mount =>
        (∀ loc ∈ w.written, ¬ Structural (loc.toNat % 2 ^ 28)) → w.files.Sound)
      (fun w w' hw hact hspared => ?_) (fun _ _ _ hw => hw) fuel batches fun _ => hsound
    cases hact with
    | handle h => exact (hw hspared).handle h
    | writeSector loc bytes =>
        have hrest := hw fun loc' hloc' => hspared loc' (List.mem_cons_of_mem loc hloc')
        exact hrest.writeSector (hspared loc List.mem_cons_self) bytes
    | _ => exact hw hspared
  obtain ⟨hfs, k, chain, hvol⟩ := hvolume hwritten
  exact ⟨hfs, ⟨chain, hvol.chainsWellFormed⟩, fun _ _ _ hfind => hvol.exists_readFile hfind⟩

/-- `write 200 x` -/
def writeLine : List Char := ['w', 'r', 'i', 't', 'e', ' ', '2', '0', '0', ' ', 'x']

/-- A sector behind the root directory is written. -/
theorem session_keeps_volume_write :
    ∃ m outs w, boot (formatDrive blankDrive) = .ok m ∧
      (shellTask digitOps fileOps 1).run (.start m [] []) [World.typed writeLine] = .ok (outs, w) ∧
      w.written = [200] ∧ ∃ chain, formatFs.ChainsWellFormed w.files.disk chain := by
  obtain ⟨m, hboot, -⟩ := boot_formatDrive blankDrive
  have hwords : words writeLine = [['w', 'r', 'i', 't', 'e'], ['2', '0', '0'], ['x']] := by decide
  have hlookup : ((World.start m [] []).entered writeLine).commands.lookup
      ['w', 'r', 'i', 't', 'e'] = some (.handler .write) := by
    change Commands.initCmds.lookup ['w', 'r', 'i', 't', 'e'] = some (.handler .write)
    decide
  have hcmd : runCmd digitOps fileOps 1 [['w', 'r', 'i', 't', 'e'], ['2', '0', '0'], ['x']]
      ((World.start m [] []).entered writeLine) = _ := World.runCmd_handler 0 hlookup _
  have hloc : parseU32 ['2', '0', '0'] = some 200 := by decide
  have hdata : (encodeUtf8 (List.intercalate [' '] [['x']])).length ≤ 512 := by decide
  rw [Handler.run, World.writeSectorCommand_eq (List.cons_ne_nil _ _) hloc hdata] at hcmd
  have hstep : (shellTask digitOps fileOps 1).step (.start m [] []) (World.typed writeLine) = _ :=
    World.step_typed 1 rfl (by simp [writeLine, World.Plain]) (by rw [hwords]; decide)
  rw [hwords, hcmd] at hstep
  have hrun := Machine.run_cons_of_step _ hstep []
  have hspared : ∀ loc ∈ [(200 : UInt32)], ¬ Structural (loc.toNat % 2 ^ 28) := by
    intro loc hloc
    rw [List.mem_singleton.mp hloc]
    decide
  have hend := congrArg Machine.last hrun
  exact ⟨m, _, _, hboot, hrun, rfl, (session_keeps_volume hboot hend hspared).2.1⟩

end Mount

end SilOS
