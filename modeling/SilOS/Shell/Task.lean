/-
# The shell task

`shell_task` takes the keys that have arrived from the queue, edits the command line with them,
and runs a command when Enter was among them.  The keys that are in the queue at the start of
an iteration of its outer loop are one batch: while the task runs, no other task puts keys into
the queue.  Enter only sets a flag, and the flag is looked at when the batch has been taken, so
one batch gives at most one command, and what is typed after Enter in the same batch goes into
the line that is run.

`commandsRun_eq` says what the task does with every way in which the keys can arrive.
-/
import SilOS.Lib.Words

namespace SilOS

open Lib

/-- `DecodedKey`: what the keyboard decoder makes of a key. -/
inductive DecodedKey where
  | unicode (character : Char)
  | rawKey
deriving DecidableEq, Repr

/-- `Shell`: the line being typed and the commands of the past. -/
structure Shell where
  currentCmd : List Char
  pastCmd : List (List (List Char))
deriving DecidableEq, Repr

namespace Shell

/-- `Shell::add`: a byte is put in as the character with its number. -/
def add (s : Shell) (char : UInt8) : Shell :=
  { s with currentCmd := s.currentCmd ++ [Char.ofNat char.toNat] }

/-- `Shell::backspace`. -/
def backspace (s : Shell) : Shell := { s with currentCmd := s.currentCmd.dropLast }

/-- `Shell::getcmd`. -/
def getcmd (s : Shell) : Option (List (List Char)) :=
  if s.currentCmd = [] then none
  else
    let params := words s.currentCmd
    if params = [] then none else some params

/-- `Shell::clear`. -/
def clear (s : Shell) : Shell where
  currentCmd := []
  pastCmd := s.pastCmd ++ s.getcmd.toList

end Shell

/-- What `shell_task` works on: `SHELL` and `COMMAND_PENDING`. -/
structure ShellTask where
  shell : Shell
  commandPending : Bool
deriving DecidableEq, Repr

namespace ShellTask

/-- The state in which the kernel starts the task. -/
def start : ShellTask := ⟨⟨[], []⟩, false⟩

/-- One key of the inner loop. -/
def handleKey (t : ShellTask) : DecodedKey → ShellTask
  | .unicode character =>
      if character = '\x08' then { t with shell := t.shell.backspace }
      else if character = '\n' then { t with commandPending := true }
      else { t with shell := t.shell.add (UInt8.ofNat character.toNat) }
  | .rawKey => t

/-- The inner loop: the batch is taken from the queue key by key. -/
def drain (t : ShellTask) (batch : List DecodedKey) : ShellTask := batch.foldl handleKey t

/-- The rest of an iteration: the arguments passed to `run_cmd`, if it is called. -/
def takeCommand (t : ShellTask) : Option (List (List Char)) × ShellTask :=
  if t.commandPending then
    (t.shell.getcmd.filter fun cmdVec =>
        !cmdVec.isEmpty && !(trim (cmdVec.headD [])).isEmpty,
      { shell := t.shell.clear, commandPending := false })
  else (none, t)

/-- One iteration of the outer loop. -/
def iteration (t : ShellTask) (batch : List DecodedKey) :
    Option (List (List Char)) × ShellTask :=
  (t.drain batch).takeCommand

/-- The argument vectors passed to `run_cmd` as the batches arrive. -/
def commandsRun : ShellTask → List (List DecodedKey) → List (List (List Char))
  | _, [] => []
  | t, batch :: batches =>
      (t.iteration batch).1.toList ++ commandsRun (t.iteration batch).2 batches

/-! ### What typing means -/

/-- The Enter key. -/
def enter : DecodedKey := .unicode '\n'

/-- The line after a key other than Enter. -/
def edit (line : List Char) : DecodedKey → List Char
  | .unicode character => if character = '\x08' then line.dropLast else line ++ [character]
  | .rawKey => line

/-- The commands of a line: none, or the one of its words. -/
def lineCommands (line : List Char) : List (List (List Char)) :=
  if words line = [] then [] else [words line]

/-- The commands of a sequence of keys: each line that is ended by Enter gives its words as a
command, unless it has none. -/
def typedCommands : List Char → List DecodedKey → List (List (List Char))
  | _, [] => []
  | line, key :: keys =>
      if key = enter then lineCommands line ++ typedCommands [] keys
      else typedCommands (edit line key) keys

/-- A key whose character survives being put into a byte. -/
def FitsByte : DecodedKey → Prop
  | .unicode character => character.toNat < 256
  | .rawKey => True

instance : DecidablePred FitsByte
  | .unicode character => inferInstanceAs (Decidable (character.toNat < 256))
  | .rawKey => inferInstanceAs (Decidable True)

/-- The batch as the task sees it: the Enter keys together, after all the other keys. -/
def settle (batch : List DecodedKey) : List DecodedKey :=
  batch.filter (· ≠ enter) ++ if enter ∈ batch then [enter] else []

/-- In the batch only Enter and keys without a character come after Enter. -/
def EnterLast (batch : List DecodedKey) : Prop :=
  ∃ keys rest, enter ∉ keys ∧ (∀ key ∈ rest, key = enter ∨ key = .rawKey) ∧ batch = keys ++ rest

/-! ### One batch -/

variable {t : ShellTask} {line : List Char} {key : DecodedKey} {keys batch : List DecodedKey}

lemma ofNat_uint8 {c : Char} (h : c.toNat < 256) :
    Char.ofNat (UInt8.ofNat c.toNat).toNat = c := by
  rw [UInt8.toNat_ofNat_of_lt' h, Char.ofNat_toNat]

lemma handleKey_enter (t : ShellTask) :
    t.handleKey enter = { t with commandPending := true } := rfl

lemma handleKey_of_ne (hne : key ≠ enter) (hfits : FitsByte key) :
    t.handleKey key = { t with shell.currentCmd := edit t.shell.currentCmd key } := by
  cases key with
  | unicode c =>
      have hc : c ≠ '\n' := fun h => hne (by rw [h, enter])
      by_cases hb : c = '\x08'
      · simp [handleKey, edit, Shell.backspace, hb]
      · have hbyte : Char.ofNat (UInt8.ofNat c.toNat).toNat = c := ofNat_uint8 hfits
        simp only [handleKey, if_neg hb, if_neg hc, Shell.add, hbyte, edit]
  | rawKey => rfl

/-- Draining a batch edits the line with all its keys but Enter; Enter only sets the flag. -/
lemma drain_eq (hfits : ∀ key ∈ batch, FitsByte key) :
    t.drain batch =
      { shell.currentCmd := (batch.filter (· ≠ enter)).foldl edit t.shell.currentCmd
        shell.pastCmd := t.shell.pastCmd
        commandPending := t.commandPending || decide (enter ∈ batch) } := by
  induction batch generalizing t with
  | nil => simp [drain]
  | cons key batch ih =>
      have hdrain : t.drain (key :: batch) = (t.handleKey key).drain batch := rfl
      rw [hdrain, ih fun k hk => hfits k (by simp [hk])]
      by_cases hkey : key = enter
      · -- the line stays as it is, and the keys behind go on editing it
        subst hkey
        simp [handleKey_enter]
      · have hne : enter ≠ key := fun h => hkey h.symm
        simp [handleKey_of_ne hkey (hfits key (by simp)), hkey, hne]

/-- The test made before a command is run always succeeds: a word is not blank. -/
lemma filter_getcmd (s : Shell) :
    (s.getcmd.filter fun cmdVec => !cmdVec.isEmpty && !(trim (cmdVec.headD [])).isEmpty)
      = s.getcmd := by
  simp only [Shell.getcmd]
  split_ifs with hnil hwords
  · rfl
  · rfl
  · obtain ⟨w, ws, hw⟩ := List.exists_cons_of_ne_nil hwords
    have hmem := mem_words (s := s.currentCmd) (w := w) (by rw [hw]; simp)
    simp [hw, trim_eq_self hmem.2, hmem.1]

lemma toList_getcmd (s : Shell) : s.getcmd.toList = lineCommands s.currentCmd := by
  rw [Shell.getcmd, lineCommands]
  by_cases hnil : s.currentCmd = []
  · simp [hnil, words, wordsFrom]
  · by_cases hwords : words s.currentCmd = []
    · simp [hnil, hwords]
    · simp [hnil, hwords]

lemma takeCommand_of_pending (h : t.commandPending = true) :
    t.takeCommand.1.toList = lineCommands t.shell.currentCmd ∧
      t.takeCommand.2 = ⟨t.shell.clear, false⟩ := by
  rw [takeCommand, if_pos h, filter_getcmd]
  exact ⟨toList_getcmd t.shell, rfl⟩

lemma takeCommand_of_not_pending (h : t.commandPending = false) : t.takeCommand = (none, t) := by
  rw [takeCommand, if_neg (by simp [h])]

/-! ### What is typed, in pieces -/

lemma typedCommands_append (hkeys : enter ∉ keys) (line : List Char) (rest : List DecodedKey) :
    typedCommands line (keys ++ rest) = typedCommands (keys.foldl edit line) rest := by
  induction keys generalizing line with
  | nil => rfl
  | cons key keys ih =>
      have hkey : key ≠ enter := fun h => hkeys (by simp [h])
      rw [List.cons_append, typedCommands, if_neg hkey, ih fun h => hkeys (by simp [h]),
        List.foldl_cons]

lemma typedCommands_enter (line : List Char) (rest : List DecodedKey) :
    typedCommands line (enter :: rest) = lineCommands line ++ typedCommands [] rest := by
  rw [typedCommands, if_pos rfl]

lemma typedCommands_rawKey (line : List Char) (rest : List DecodedKey) :
    typedCommands line (.rawKey :: rest) = typedCommands line rest := by
  rw [typedCommands, if_neg (by simp [enter]), edit]

/-- Of several Enters the first one ends the line, and the others end empty lines. -/
lemma typedCommands_enters (hkeys : ∀ key ∈ keys, key = enter ∨ key = .rawKey) (line : List Char)
    (rest : List DecodedKey) :
    typedCommands line (keys ++ rest) =
      if enter ∈ keys then lineCommands line ++ typedCommands [] rest
      else typedCommands line rest := by
  induction keys generalizing line with
  | nil => rfl
  | cons key keys ih =>
      have hrest := ih fun k hk => hkeys k (List.mem_cons_of_mem key hk)
      rcases hkeys key (by simp) with rfl | rfl
      · have hempty : lineCommands [] = [] := by simp [lineCommands, words, wordsFrom]
        rw [List.cons_append, typedCommands_enter, hrest, hempty]
        simp
      · have hne : enter ≠ .rawKey := by simp [enter]
        rw [List.cons_append, typedCommands_rawKey, hrest]
        simp [hne]

lemma enter_notMem_filter (batch : List DecodedKey) : enter ∉ batch.filter (· ≠ enter) := by
  simp

/-- **What the task runs.**  However the keys arrive, the task runs the commands of the keys
with each batch settled. -/
theorem commandsRun_eq (ht : t.commandPending = false) {batches : List (List DecodedKey)}
    (hfits : ∀ batch ∈ batches, ∀ key ∈ batch, FitsByte key) :
    t.commandsRun batches = typedCommands t.shell.currentCmd (batches.flatMap settle) := by
  induction batches generalizing t with
  | nil => rfl
  | cons batch batches ih =>
      have hrest := fun b hb => hfits b (List.mem_cons_of_mem batch hb)
      have hdrain := drain_eq (t := t) (hfits batch (by simp))
      rw [commandsRun, List.flatMap_cons, settle, List.append_assoc,
        typedCommands_append (enter_notMem_filter batch), iteration]
      by_cases hmem : enter ∈ batch
      · -- the line is run and cleared
        have hpending : (t.drain batch).commandPending = true := by simp [hdrain, hmem]
        obtain ⟨hcmd, hnext⟩ := takeCommand_of_pending hpending
        rw [hcmd, hnext, ih rfl hrest, if_pos hmem, List.singleton_append, typedCommands_enter]
        simp [hdrain, Shell.clear]
      · have hpending : (t.drain batch).commandPending = false := by simp [hdrain, hmem, ht]
        rw [takeCommand_of_not_pending hpending, ih hpending hrest, if_neg hmem]
        simp [hdrain]

lemma pastCmd_handleKey (t : ShellTask) (key : DecodedKey) :
    (t.handleKey key).shell.pastCmd = t.shell.pastCmd := by
  cases key with
  | unicode c =>
      simp only [handleKey]
      split_ifs <;> rfl
  | rawKey => rfl

lemma pastCmd_drain (t : ShellTask) (batch : List DecodedKey) :
    (t.drain batch).shell.pastCmd = t.shell.pastCmd := by
  induction batch generalizing t with
  | nil => rfl
  | cons key batch ih => exact (ih (t.handleKey key)).trans (pastCmd_handleKey t key)

lemma pastCmd_iteration (t : ShellTask) (batch : List DecodedKey) :
    (t.iteration batch).2.shell.pastCmd =
      t.shell.pastCmd ++ (t.iteration batch).1.toList := by
  rw [iteration, ← pastCmd_drain t batch]
  by_cases h : (t.drain batch).commandPending = true
  · obtain ⟨hcmd, hnext⟩ := takeCommand_of_pending h
    rw [hcmd, hnext, ← toList_getcmd]
    rfl
  · rw [takeCommand_of_not_pending (by simpa using h)]
    simp

/-- The history of the shell is the sequence of the commands that were run. -/
theorem pastCmd_eq_commandsRun (t : ShellTask) (batches : List (List DecodedKey)) :
    (batches.foldl (fun t batch => (t.iteration batch).2) t).shell.pastCmd =
      t.shell.pastCmd ++ t.commandsRun batches := by
  induction batches generalizing t with
  | nil => simp [commandsRun]
  | cons batch batches ih =>
      rw [List.foldl_cons, ih, pastCmd_iteration, commandsRun, List.append_assoc]

lemma mem_settle : key ∈ settle batch ↔ key ∈ batch := by
  by_cases hkey : key = enter
  · subst hkey
    by_cases h : enter ∈ batch
    · simp [settle, h]
    · simp [settle, h]
  · by_cases h : enter ∈ batch
    · simp [settle, h, hkey]
    · simp [settle, h, hkey]

lemma settle_append (hkeys : enter ∉ keys) (rest : List DecodedKey) :
    settle (keys ++ rest) = keys ++ settle rest := by
  have hfilter : keys.filter (· ≠ enter) = keys := by
    rw [List.filter_eq_self]
    intro key hkey
    simpa using fun h : key = enter => hkeys (h ▸ hkey)
  have hmem : enter ∈ keys ++ rest ↔ enter ∈ rest := by simp [hkeys]
  simp only [settle, List.filter_append, hfilter, hmem, List.append_assoc]

/-- A batch with Enter at its end only is already settled, as far as commands go. -/
lemma EnterLast.typedCommands_settle (h : EnterLast batch) (line : List Char)
    (rest : List DecodedKey) :
    typedCommands line (settle batch ++ rest) = typedCommands line (batch ++ rest) := by
  obtain ⟨keys, enters, hkeys, henters, rfl⟩ := h
  have hsettle : ∀ key ∈ settle enters, key = enter ∨ key = .rawKey :=
    fun key hkey => henters key (mem_settle.mp hkey)
  rw [settle_append hkeys, List.append_assoc, List.append_assoc, typedCommands_append hkeys,
    typedCommands_append hkeys, typedCommands_enters hsettle, typedCommands_enters henters]
  simp only [mem_settle]

/-- Keys that give the same commands on every line do so after any other keys. -/
lemma typedCommands_append_congr {rest rest' : List DecodedKey}
    (h : ∀ line, typedCommands line rest = typedCommands line rest') (keys : List DecodedKey)
    (line : List Char) :
    typedCommands line (keys ++ rest) = typedCommands line (keys ++ rest') := by
  induction keys generalizing line with
  | nil => exact h line
  | cons key keys ih => simp only [List.cons_append, typedCommands, ih]

lemma typedCommands_flatMap_settle {batches : List (List DecodedKey)}
    (h : ∀ batch ∈ batches, EnterLast batch) (line : List Char) :
    typedCommands line (batches.flatMap settle) = typedCommands line batches.flatten := by
  induction batches generalizing line with
  | nil => rfl
  | cons batch batches ih =>
      have hrest := ih fun b hb => h b (List.mem_cons_of_mem batch hb)
      rw [List.flatMap_cons, List.flatten_cons, (h batch (by simp)).typedCommands_settle]
      exact typedCommands_append_congr hrest batch line

/-- **Type-ahead.**  If in every batch only Enter and keys without a character come after Enter, the
task runs the words of each line ended by Enter, in order and whatever the batches are. -/
theorem commandsRun_of_enterLast (batches : List (List DecodedKey))
    (hfits : ∀ batch ∈ batches, ∀ key ∈ batch, FitsByte key)
    (hlast : ∀ batch ∈ batches, EnterLast batch) :
    start.commandsRun batches = typedCommands [] batches.flatten := by
  rw [commandsRun_eq rfl hfits]
  exact typedCommands_flatMap_settle hlast []

/-- Two commands, the keys of the second line in a batch of their own. -/
theorem commandsRun_of_enterLast_two :
    start.commandsRun [[.unicode 'a', enter, .rawKey], [.unicode 'c', .unicode '\x08'],
        [.unicode 'b', enter, enter]] = [[['a']], [['b']]] := by
  refine (commandsRun_of_enterLast _ ?_ ?_).trans (by decide)
  · decide
  · simp only [List.forall_mem_cons, List.not_mem_nil, false_implies, implies_true, and_true]
    exact ⟨⟨[.unicode 'a'], [enter, .rawKey], by decide, by decide, rfl⟩,
      ⟨[.unicode 'c', .unicode '\x08'], [], by decide, by decide, rfl⟩,
      ⟨[.unicode 'b'], [enter, enter], by decide, by decide, rfl⟩⟩

/-- The same keys, one at a time and all at once: in one batch the two lines are run as one. -/
theorem commandsRun_depends_on_batches :
    start.commandsRun [[.unicode 'a'], [enter], [.unicode 'b'], [enter]] = [[['a']], [['b']]] ∧
      start.commandsRun [[.unicode 'a', enter, .unicode 'b', enter]] = [[['a', 'b']]] := by
  decide

end ShellTask

end SilOS
