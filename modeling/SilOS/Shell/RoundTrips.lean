/-
# What is read is what was written

The commands that write and those that read meet on the drive: `write` and `show` on a sector,
`mkdir`, `cat` and `run` on a file.  A text goes through its encoding in UTF-8, the padding of a
sector or the clusters of a file, the name of the file, and back.

A program can be kept in a file or in the table of commands.  `saved_program_is_bound_program`:
a program that is put into a file by `mkdir` and run with `run` does what it does when it is bound
to a command by `bind` and called by its name, and, without arguments, when it is given to `parse`.
-/
import SilOS.Editor.Buffer
import SilOS.Shell.Ideal
import SilOS.Shell.Names
import SilOS.Shell.Sessions

namespace SilOS

open Lib Fat16 Fat16FileSystem Risp

/-! ### Text on a sector -/

lemma encodeUtf8_append (s t : List Char) : encodeUtf8 (s ++ t) = encodeUtf8 s ++ encodeUtf8 t :=
  List.flatMap_append

lemma decodeUtf8_encodeUtf8 (s : List Char) : decodeUtf8 (encodeUtf8 s) = some s := by
  rw [decodeUtf8, decodeLossy_encodeUtf8, if_pos rfl]

lemma encodeUtf8_replicate_nul (n : ℕ) :
    encodeUtf8 (List.replicate n '\x00') = List.replicate n 0 := by
  induction n with
  | zero => rfl
  | succ n ih =>
      rw [List.replicate_succ, List.replicate_succ, ← ih]
      rfl

/-- The bytes of a buffer into whose beginning data were copied. -/
lemma toList_copyFromSlice_zeros {n : ℕ} {data : List UInt8} (h : data.length ≤ n) :
    ((Bytes.zeros n).copyFromSlice 0 data).toList = data ++ List.replicate (n - data.length) 0 := by
  refine List.ext_getElem? fun i => ?_
  rw [Bytes.getElem?_toList, Bytes.byte_copyFromSlice, List.getElem?_append,
    List.getElem?_replicate]
  by_cases hi : i < data.length
  · have hin : i < n := by omega
    simp [hi, hin, List.getD_eq_getElem?_getD]
  · by_cases hin : i < n
    · have hrest : i - data.length < n - data.length := by omega
      simp [hi, hin, hrest]
    · have hrest : ¬ i - data.length < n - data.length := by omega
      simp [hi, hin, hrest]

lemma rdropWhile_append_of_all {α : Type} {p : α → Bool} (l : List α) {t : List α}
    (ht : ∀ x ∈ t, p x) : (l ++ t).rdropWhile p = l.rdropWhile p := by
  have hnil : t.reverse.dropWhile p = [] := by
    rw [List.dropWhile_eq_nil_iff]
    intro x hx
    exact ht x (List.mem_reverse.mp hx)
  rw [List.rdropWhile, List.rdropWhile, List.reverse_append, List.dropWhile_append, hnil]
  simp

lemma trimNul_append_nul (s : Str) (n : ℕ) :
    Mount.trimNul (s ++ List.replicate n '\x00') = Mount.trimNul s := by
  have hnul : ∀ x ∈ List.replicate n '\x00', decide (x = '\x00') = true := by
    intro x hx
    simp [(List.mem_replicate.mp hx).2]
  rw [Mount.trimNul, Mount.trimNul, List.dropWhile_append]
  split_ifs with hempty
  · -- there is nothing but zeros
    rw [List.isEmpty_iff] at hempty
    rw [hempty, List.dropWhile_eq_nil_iff.mpr hnul]
  · exact rdropWhile_append_of_all _ hnul

/-- A sector with a text and zeros behind it reads as the text with as many zeros. -/
lemma decodeUtf8_padded {text : Str} (h : (encodeUtf8 text).length ≤ 512) :
    decodeUtf8 ((Bytes.zeros 512).copyFromSlice 0 (encodeUtf8 text)).toList =
      some (text ++ List.replicate (512 - (encodeUtf8 text).length) '\x00') := by
  rw [toList_copyFromSlice_zeros h, ← encodeUtf8_replicate_nul, ← encodeUtf8_append,
    decodeUtf8_encodeUtf8]

section Sectors

variable {F : Type} {floats : FloatOps F} {w : World Mount} {n n' : Str} {loc loc' : UInt32}

/-- `show`, on any drive. -/
lemma runCmd_show (fuel : ℕ) {cmd : Str} (w : World Mount)
    (hshow : w.commands.lookup cmd = some (.handler .readAsString)) (hn : parseU32 n = some loc) :
    runCmd floats Mount.fileOps (fuel + 1) [cmd, n] w =
      match decodeUtf8 (w.files.disk (loc.toNat % 2 ^ 28)).toList with
      | none => (none, w)
      | some text => (some (.success "Worked" false),
          w.println (String.ofList (Mount.trimNul text))) := by
  have hnum : parseU32 ([cmd, n].getD 1 []) = some loc := hn
  rw [World.runCmd_handler fuel hshow, Handler.run, sectorCommand, if_neg (by simp), hnum]
  rfl

/-- `write`, when the text fits: nothing but the sector changes that the commands here look at. -/
lemma runCmd_write (fuel : ℕ) {cmd : Str} (hwrite : w.commands.lookup cmd = some (.handler .write))
    (hn : parseU32 n = some loc) {texts : List Str} (hne : texts ≠ [])
    (hlen : (encodeUtf8 (List.intercalate [' '] texts)).length ≤ 512) :
    ∃ w₁, runCmd floats Mount.fileOps (fuel + 1) (cmd :: n :: texts) w =
        (some (.success "Sector written successfully" false), w₁) ∧
      w₁.commands = w.commands ∧ w₁.output = w.output ∧
      w₁.files.disk = writeSectorBytes w.files.disk (loc.toNat % 2 ^ 28)
        ((Bytes.zeros 512).copyFromSlice 0 (encodeUtf8 (List.intercalate [' '] texts))) := by
  have hcmd : runCmd floats Mount.fileOps (fuel + 1) (cmd :: n :: texts) w = _ :=
    World.runCmd_handler fuel hwrite (n :: texts)
  rw [Handler.run, World.writeSectorCommand_eq hne hn hlen] at hcmd
  exact ⟨_, hcmd, rfl, rfl, rfl⟩

/-- **`show` prints what `write` wrote**, without the zeros around it, at every number that the
drive takes for the same sector; and it prints as before at every other number. -/
theorem show_after_write {write cmd : Str}
    (hwrite : w.commands.lookup write = some (.handler .write))
    (hshow : w.commands.lookup cmd = some (.handler .readAsString))
    (hn : parseU32 n = some loc) (hn' : parseU32 n' = some loc') {texts : List Str}
    (hne : texts ≠ []) (hlen : (encodeUtf8 (List.intercalate [' '] texts)).length ≤ 512)
    (fuel : ℕ) :
    ∃ w₁, runCmd floats Mount.fileOps (fuel + 1) (write :: n :: texts) w =
        (some (.success "Sector written successfully" false), w₁) ∧
      (loc'.toNat % 2 ^ 28 = loc.toNat % 2 ^ 28 →
        runCmd floats Mount.fileOps (fuel + 1) [cmd, n'] w₁ = (some (.success "Worked" false),
          w₁.println (String.ofList (Mount.trimNul (List.intercalate [' '] texts))))) ∧
      (loc'.toNat % 2 ^ 28 ≠ loc.toNat % 2 ^ 28 →
        (runCmd floats Mount.fileOps (fuel + 1) [cmd, n'] w₁).1 =
            (runCmd floats Mount.fileOps (fuel + 1) [cmd, n'] w).1 ∧
          (runCmd floats Mount.fileOps (fuel + 1) [cmd, n'] w₁).2.output =
            (runCmd floats Mount.fileOps (fuel + 1) [cmd, n'] w).2.output) := by
  obtain ⟨w₁, hcmd, hcommands, houtput, hdisk⟩ := runCmd_write fuel hwrite hn hne hlen
  refine ⟨w₁, hcmd, fun hsame => ?_, fun hother => ?_⟩
  · rw [runCmd_show fuel w₁ (hcommands ▸ hshow) hn', hsame, hdisk, writeSectorBytes_same,
      decodeUtf8_padded hlen]
    simp only [trimNul_append_nul]
  · rw [runCmd_show fuel w₁ (hcommands ▸ hshow) hn', runCmd_show fuel w hshow hn', hdisk,
      writeSectorBytes_ne _ _ hother]
    cases decodeUtf8 (w.files.disk (loc'.toNat % 2 ^ 28)).toList with
    | none => exact ⟨rfl, houtput⟩
    | some text => exact ⟨rfl, by simp [World.println, World.print, World.emit, houtput]⟩

/-- Sector 2^28 + 5 is sector 5, and sector 6 is not. -/
theorem show_after_write_alias :
    ∃ w₁, runCmd digitOps Mount.fileOps 1 [['w', 'r', 'i', 't', 'e'], ['5'], ['h', 'i']]
        (World.start ⟨blankDrive, none⟩ [] []) =
        (some (.success "Sector written successfully" false), w₁) ∧
      runCmd digitOps Mount.fileOps 1
          [['s', 'h', 'o', 'w'], ['2', '6', '8', '4', '3', '5', '4', '6', '1']] w₁ =
        (some (.success "Worked" false), w₁.println "hi") := by
  have hn : parseU32 ['5'] = some 5 := by decide
  have hn' : parseU32 ['2', '6', '8', '4', '3', '5', '4', '6', '1'] = some 268435461 := by decide
  have hne : [['h', 'i']] ≠ [] := by decide
  have hwrite : (World.start (⟨blankDrive, none⟩ : Mount) [] []).commands.lookup
      ['w', 'r', 'i', 't', 'e'] = some (.handler .write) := by decide
  have hshow : (World.start (⟨blankDrive, none⟩ : Mount) [] []).commands.lookup
      ['s', 'h', 'o', 'w'] = some (.handler .readAsString) := by decide
  obtain ⟨w₁, hcmd, hsame, -⟩ :=
    @show_after_write _ digitOps _ _ _ _ _ _ _ hwrite hshow hn hn' _ hne (by decide) 0
  exact ⟨w₁, hcmd, hsame (by decide)⟩

end Sectors

/-! ### Programs in files -/

lemma Fat16.Catalogue.contents_create {c : Catalogue} {name : Bytes 8 × Bytes 3}
    {data : List UInt8} (hfresh : c.contents name = none) (hmark : ¬ FreeMark (name.1.byte 0))
    (hok : (c.create name data).1 = .ok ()) : (c.create name data).2.contents name = some data := by
  rw [Catalogue.contents, Option.map_eq_none_iff] at hfresh
  rw [Catalogue.create] at hok ⊢
  split_ifs at hok ⊢
  rw [Catalogue.contents, List.find?_append, hfresh]
  simp

section Programs

variable {F : Type} {floats : FloatOps F} {w : World Mount} {c : Catalogue}
  {cmd name ext code : Str} {texts : List Str}

lemma runCmd_wrapper (fuel : ℕ) (h : w.commands.lookup cmd = some (.wrapper code))
    (args : List Str) :
    runCmd floats Mount.fileOps (fuel + 1) (cmd :: args) w =
      program floats Mount.fileOps fuel (execName :: code :: args) w := by
  rw [runCmd, h]
  rfl

/-- `run`, on a file with a program. -/
lemma runCmd_run (fuel : ℕ) (hholds : Holds w.files c)
    (hrun : w.commands.lookup cmd = some (.handler .runFile)) (hname : '.' ∉ name)
    (hfile : c.contents (upperField 8 name, upperField 3 ext) = some (encodeUtf8 code))
    (args : List Str) :
    runCmd floats Mount.fileOps (fuel + 1) (cmd :: (name ++ '.' :: ext) :: args) w =
      program floats Mount.fileOps fuel (execName :: Mount.trimNul code :: args) w := by
  have hhandle : Mount.fileOps.handle w.files (.run (cmd :: (name ++ '.' :: ext) :: args)) =
      .ok (.interpret (execName :: Mount.trimNul code :: args), w.files) := by
    have hread : Mount.fileOps.handle w.files (.run (cmd :: (name ++ '.' :: ext) :: args)) =
        w.files.runFile (cmd :: (name ++ '.' :: ext) :: args) := rfl
    rw [hread, Mount.runFile, Mount.readCommand, resolveNameExt_dotted hname, hholds.mounted]
    simp only [hholds.contents, hfile, ok_bind, decodeUtf8_encodeUtf8]
    rfl
  rw [World.runCmd_handler fuel hrun, Handler.run, fileCommand, hhandle]

/-- `mkdir`, when there is room for the file. -/
lemma runCmd_mkdir (floats : FloatOps F) (hholds : Holds w.files c)
    (hmkdir : w.commands.lookup cmd = some (.handler .makeFile)) (hname : '.' ∉ name)
    (hne : texts ≠ [])
    (hroom : (c.create (upperField 8 name, upperField 3 ext)
      (encodeUtf8 (List.intercalate [' '] texts))).1 = .ok ()) :
    ∃ m,
      (∀ fuel, runCmd floats Mount.fileOps (fuel + 1) (cmd :: (name ++ '.' :: ext) :: texts) w =
        (some (.success ("Created " ++ String.ofList name ++ "." ++ String.ofList ext ++ " (" ++
          toString (encodeUtf8 (List.intercalate [' '] texts)).length ++ " bytes)") true),
          { w with files := m })) ∧
      Holds m (c.create (upperField 8 name, upperField 3 ext)
        (encodeUtf8 (List.intercalate [' '] texts))).2 := by
  have hlen : ¬ (cmd :: (name ++ '.' :: ext) :: texts).length ≤ 2 := by
    have hpos := List.length_pos_of_ne_nil hne
    simp only [List.length_cons]
    omega
  have hjoin : joinFrom (cmd :: (name ++ '.' :: ext) :: texts) 2 = List.intercalate [' '] texts :=
    rfl
  rcases hcreate : c.create (upperField 8 name, upperField 3 ext)
    (encodeUtf8 (List.intercalate [' '] texts)) with ⟨out, c₁⟩
  rw [hcreate] at hroom
  obtain rfl : out = .ok () := hroom
  have hcall : Catalogue.machine.step c (.writeNewFile (upperField 8 name) (upperField 3 ext)
      (encodeUtf8 (List.intercalate [' '] texts))) = .ok (.ok (), c₁) := congrArg Except.ok hcreate
  obtain ⟨d, hstep, hend⟩ := hholds.call hcall
  refine ⟨{ w.files with disk := d }, fun fuel => ?_, hend⟩
  have hread : Mount.fileOps.handle w.files (.mkdir (cmd :: (name ++ '.' :: ext) :: texts)) =
      w.files.makeFile (cmd :: (name ++ '.' :: ext) :: texts) := rfl
  rw [World.runCmd_handler fuel hmkdir, Handler.run, fileCommand, hread, Mount.makeFile,
    Mount.writeCommand, resolveNameExt_dotted hname]
  dsimp only
  rw [if_neg hlen, hjoin, hholds.mounted]
  dsimp only
  rw [hstep]
  rfl

lemma runCmd_bind (floats : FloatOps F) (fuel : ℕ)
    (hbind : w.commands.lookup cmd = some (.handler .bind)) (k : Str) (hne : texts ≠ []) :
    runCmd floats Mount.fileOps (fuel + 1) (cmd :: k :: texts) w =
      (some (.success "Bound successfully" false), { w with
        commands := Assoc.insert k (.wrapper (List.intercalate [' '] texts)) w.commands
        binds := (cmd :: k :: texts) :: w.binds }) := by
  obtain ⟨text, texts, rfl⟩ := List.exists_cons_of_ne_nil hne
  rw [World.runCmd_handler fuel hbind]
  rfl

/-- `parse`; the name under which it is called makes no difference to the program. -/
lemma runCmd_parse (fuel : ℕ) (hparse : w.commands.lookup cmd = some (.handler .parseCmd))
    (hne : texts ≠ []) :
    runCmd floats Mount.fileOps (fuel + 1) (cmd :: texts) w =
      program floats Mount.fileOps fuel [execName, List.intercalate [' '] texts] w := by
  have hlen : ¬ (cmd :: texts).length < 2 := by
    have hpos := List.length_pos_of_ne_nil hne
    simp only [List.length_cons]
    omega
  rw [World.runCmd_handler fuel hparse, Handler.run, if_neg hlen]
  rfl

/-- The names of the commands. -/
def mkdirName : Str := ['m', 'k', 'd', 'i', 'r']

@[inherit_doc mkdirName]
def bindName : Str := ['b', 'i', 'n', 'd']

@[inherit_doc mkdirName]
def runName : Str := ['r', 'u', 'n']

@[inherit_doc mkdirName]
def parseName : Str := ['p', 'a', 'r', 's', 'e']

/-- A program that is in a file and in the table of commands runs alike from both places. -/
lemma program_saved_and_bound (hholds : Holds w.files c)
    (hrun : w.commands.lookup runName = some (.handler .runFile))
    (hparse : w.commands.lookup parseName = some (.handler .parseCmd)) {k : Str}
    (hkey : w.commands.lookup k = some (.wrapper (List.intercalate [' '] texts)))
    (hname : '.' ∉ name) (hne : texts ≠ [])
    (htrim : Mount.trimNul (List.intercalate [' '] texts) = List.intercalate [' '] texts)
    (hfile : c.contents (upperField 8 name, upperField 3 ext) =
      some (encodeUtf8 (List.intercalate [' '] texts))) (fuel : ℕ) :
    (∀ args, runCmd floats Mount.fileOps fuel (runName :: (name ++ '.' :: ext) :: args) w =
      runCmd floats Mount.fileOps fuel (k :: args) w) ∧
    runCmd floats Mount.fileOps fuel (parseName :: texts) w =
      runCmd floats Mount.fileOps fuel [k] w := by
  cases fuel with
  | zero => exact ⟨fun _ => rfl, rfl⟩
  | succ fuel =>
      refine ⟨fun args => ?_, ?_⟩
      · rw [runCmd_run fuel hholds hrun hname hfile, htrim, runCmd_wrapper fuel hkey]
      · rw [runCmd_parse fuel hparse hne, runCmd_wrapper fuel hkey]

/-- **A saved program is a bound program.**  On a drive that holds the files of a list, let a
program be put into a new file by `mkdir` and bound to a command by `bind`.  Then `run` with the
file does with any arguments what the command does with them, down to what is printed and what
becomes of the drive, and also if it does not return; and `parse` with the program does what the
command does without arguments. -/
theorem saved_program_is_bound_program (hholds : Holds w.files c)
    (hmkdir : w.commands.lookup mkdirName = some (.handler .makeFile))
    (hbind : w.commands.lookup bindName = some (.handler .bind))
    (hrun : w.commands.lookup runName = some (.handler .runFile))
    (hparse : w.commands.lookup parseName = some (.handler .parseCmd))
    (hname : '.' ∉ name) {k : Str} (hkrun : k ≠ runName) (hkparse : k ≠ parseName)
    (hne : texts ≠ [])
    (htrim : Mount.trimNul (List.intercalate [' '] texts) = List.intercalate [' '] texts)
    (hfresh : c.contents (upperField 8 name, upperField 3 ext) = none)
    (hmark : ¬ FreeMark ((upperField 8 name).byte 0))
    (hroom : (c.create (upperField 8 name, upperField 3 ext)
      (encodeUtf8 (List.intercalate [' '] texts))).1 = .ok ()) :
    ∃ created w₁ w₂, (∀ fuel,
        runCmd floats Mount.fileOps (fuel + 1) (mkdirName :: (name ++ '.' :: ext) :: texts) w =
          (some (.success created true), w₁) ∧
        runCmd floats Mount.fileOps (fuel + 1) (bindName :: k :: texts) w₁ =
          (some (.success "Bound successfully" false), w₂)) ∧
      ∀ fuel,
        (∀ args, runCmd floats Mount.fileOps fuel (runName :: (name ++ '.' :: ext) :: args) w₂ =
          runCmd floats Mount.fileOps fuel (k :: args) w₂) ∧
        runCmd floats Mount.fileOps fuel (parseName :: texts) w₂ =
          runCmd floats Mount.fileOps fuel [k] w₂ := by
  obtain ⟨m, hcreate, hend⟩ := runCmd_mkdir floats hholds hmkdir hname hne hroom
  have hfile := Catalogue.contents_create hfresh hmark hroom
  refine ⟨_, _, _, fun fuel => ⟨hcreate fuel,
    runCmd_bind (w := { w with files := m }) floats fuel hbind k hne⟩, ?_⟩
  exact program_saved_and_bound hend ((Assoc.lookup_insert_of_ne hkrun.symm _ _).trans hrun)
    ((Assoc.lookup_insert_of_ne hkparse.symm _ _).trans hparse)
    (Assoc.lookup_insert_self _ _ _) hname hne htrim hfile

end Programs

/-- The program `(+ 1 2)` in the file `a.txt` of a formatted drive and under the name `s`. -/
theorem saved_program_is_bound_program_sum :
    ∃ created w₁ w₂, (∀ fuel,
        runCmd digitOps Mount.fileOps (fuel + 1) [mkdirName, ['a', '.', 't', 'x', 't'],
          ['(', '+'], ['1'], ['2', ')']]
            (World.start ⟨formatDrive blankDrive, some formatFs⟩ [] []) =
          (some (.success created true), w₁) ∧
        runCmd digitOps Mount.fileOps (fuel + 1) [bindName, ['s'], ['(', '+'], ['1'], ['2', ')']]
            w₁ = (some (.success "Bound successfully" false), w₂)) ∧
      ∀ fuel,
        (∀ args, runCmd digitOps Mount.fileOps fuel
            (runName :: ['a', '.', 't', 'x', 't'] :: args) w₂ =
          runCmd digitOps Mount.fileOps fuel (['s'] :: args) w₂) ∧
        runCmd digitOps Mount.fileOps fuel [parseName, ['(', '+'], ['1'], ['2', ')']] w₂ =
          runCmd digitOps Mount.fileOps fuel [['s']] w₂ := by
  have hholds : Holds (World.start ⟨formatDrive blankDrive, some formatFs⟩ [] []).files
      Catalogue.blank := ⟨rfl, init_formatDrive _, _, lists_formatDrive _⟩
  exact @saved_program_is_bound_program _ digitOps _ _ ['a'] ['t', 'x', 't'] _ hholds
    (by decide) (by decide) (by decide) (by decide) (by decide) _ (by decide) (by decide)
    (by simp) (by decide) (by decide +kernel) (by decide) (by decide +kernel)

/-! ### Editing a file -/

lemma Fat16.Catalogue.contents_overwrite {c c₁ : Catalogue} {name : Bytes 8 × Bytes 3}
    {data : List UInt8} (h : c.overwrite name data = .ok (.ok (), c₁)) (other : Bytes 8 × Bytes 3) :
    c₁.contents other = if other = name then some data else c.contents other := by
  rw [Catalogue.overwrite] at h
  split at h
  · exact absurd h (by simp)
  rename_i j hj
  dsimp only at h
  split_ifs at h
  obtain ⟨-, rfl⟩ := Prod.mk.inj (Except.ok.inj h)
  rw [Catalogue.indexOf, List.findIdx?_eq_some_iff_getElem] at hj
  obtain ⟨hlt, hname, hbefore⟩ := hj
  -- the file and those before it
  have hsplit : c.files = c.files.take j ++ c.files[j] :: c.files.drop (j + 1) := by
    rw [← List.drop_eq_getElem_cons hlt, List.take_append_drop]
  have hfirst : (c.files.take j).find? (fun file => file.1 = name) = none := by
    rw [List.find?_eq_none]
    intro file hfile
    obtain ⟨i, hi, rfl⟩ := List.getElem_of_mem hfile
    rw [List.getElem_take]
    exact hbefore i (List.length_take ▸ hi |>.trans_le (min_le_left _ _))
  rw [Catalogue.contents, Catalogue.contents, List.set_eq_take_append_cons_drop, if_pos hlt]
  simp only [List.find?_append, List.find?_cons]
  split_ifs with hother
  · rw [hother, hfirst]
    simp
  · have hold : c.files.find? (fun file => file.1 = other) =
        ((c.files.take j).find? fun file => file.1 = other).or
          ((c.files.drop (j + 1)).find? fun file => file.1 = other) := by
      conv_lhs => rw [hsplit]
      rw [List.find?_append, List.find?_cons_of_neg]
      rw [of_decide_eq_true hname]
      simpa using Ne.symm hother
    rw [hold]
    simp [Ne.symm hother]

namespace Editor

/-- A visit to a text: what the flat buffer makes of it with these keys, from its start on.  If the
text ends with a newline, this one is left out before the first key, since it ends a line and does
not begin one. -/
def visit (s : Str) (keys : List Op) : Str :=
  (keys.foldl Buffer.apply ⟨stripNewline s, 0⟩).text

lemma flatten_new {s : Str} (hcr : '\r' ∉ s) : (new s).flatten = ⟨stripNewline s, 0⟩ := by
  rw [flatten, ← intercalate_lines hcr, new]
  by_cases hlines : Lib.lines s = []
  · simp [hlines, lineStart]
  · simp [hlines, lineStart]

lemma run_visit {s : Str} (hs : ∀ c ∈ s, IsAscii c) (hcr : '\r' ∉ s) {keys : List Op}
    (hkeys : ∀ op ∈ keys, op.IsAscii) :
    ∃ os e, machine.run (new s) keys = .ok (os, e) ∧
      List.intercalate ['\n'] e.lines = visit s keys := by
  have hstep : ∀ e op, e.Tidy → op.IsAscii → ∃ o e₁, machine.step e op = .ok (o, e₁) ∧
      e₁.Tidy ∧ e₁.flatten = e.flatten.apply op := by
    intro e op he hop
    obtain ⟨e₁, happly, he₁, hflat⟩ := he.implements hop
    exact ⟨(), e₁, step_eq_ok.mpr happly, he₁, hflat⟩
  obtain ⟨os, e, hrun, -, hflat⟩ := machine.run_refines hstep (tidy_new hs) hkeys
  rw [flatten_new hcr] at hflat
  exact ⟨os, e, hrun, congrArg Buffer.text hflat⟩

end Editor

section Editing

variable {F : Type} {floats : FloatOps F} {w : World Mount} {c c₁ : Catalogue} {cmd name ext : Str}
  {s : Str} {keys : List Editor.Op} {edits : List (List Editor.Op)}

/-- `eden` on a file that is there, when there is room for the new text. -/
lemma runCmd_eden (floats : FloatOps F) (hholds : Holds w.files c)
    (heden : w.commands.lookup cmd = some (.handler .runEdit)) (hname : '.' ∉ name)
    (hfile : c.contents (upperField 8 name, upperField 3 ext) = some (encodeUtf8 s))
    (hs : ∀ c ∈ s, Editor.IsAscii c) (hcr : '\r' ∉ s) (hedits : w.edits = keys :: edits)
    (hkeys : ∀ op ∈ keys, op.IsAscii)
    (hroom : c.overwrite (upperField 8 name, upperField 3 ext)
      (encodeUtf8 (Editor.visit s keys)) = .ok (.ok (), c₁)) :
    ∃ m, Holds m c₁ ∧ ∀ fuel, runCmd floats Mount.fileOps (fuel + 1) [cmd, name ++ '.' :: ext] w =
      (some (.success "Worked" false), { w with files := m, edits := edits }) := by
  obtain ⟨os, e, hrun, htext⟩ := Editor.run_visit hs hcr hkeys
  have hideal : c.handle (.eden [cmd, name ++ '.' :: ext] keys) =
      .ok (.success "Worked" false, some c₁) := by
    rw [Catalogue.handle, editorName_of_resolve (resolveNameExt_dotted hname), formatFat16Name_eq]
    simp only [Catalogue.openEditor, Catalogue.saveEditor, hfile, Option.elim_some,
      Option.isSome_some, if_true, Editor.load, decodeLossy_encodeUtf8, hrun, ok_bind, htext, hroom]
    rfl
  have hsame := answer_handle hholds (.eden [cmd, name ++ '.' :: ext] keys)
  rw [hideal] at hsame
  generalize hanswer : w.files.handle (.eden [cmd, name ++ '.' :: ext] keys) = answer at hsame
  cases hsame with
  | gone hnone => exact absurd hnone (by simp)
  | ok hfiles =>
      rename_i m
      obtain ⟨_, hsome, hm⟩ := hfiles
      obtain rfl := Option.some.inj hsome
      refine ⟨m, hm, fun fuel => ?_⟩
      have hops : Mount.fileOps.handle w.files (.eden [cmd, name ++ '.' :: ext] keys) = _ := hanswer
      rw [World.runCmd_handler fuel heden, Handler.run, hedits]
      dsimp only
      rw [fileCommand, hops]
      rfl

/-- `cat` on a file with text. -/
lemma runCmd_cat (fuel : ℕ) (hholds : Holds w.files c)
    (hcat : w.commands.lookup cmd = some (.handler .catFile)) (hname : '.' ∉ name)
    (hfile : c.contents (upperField 8 name, upperField 3 ext) = some (encodeUtf8 s)) :
    runCmd floats Mount.fileOps (fuel + 1) [cmd, name ++ '.' :: ext] w =
      (some (.success "File read successfully" false),
        ["--- " ++ String.ofList name ++ " ---", String.ofList s, "------------"].foldl
          World.println w) := by
  have hprints : Mount.fileOps.catPrints w.files [cmd, name ++ '.' :: ext] =
      .ok ["--- " ++ String.ofList name ++ " ---", String.ofList s, "------------"] := by
    have hread : Mount.fileOps.catPrints w.files [cmd, name ++ '.' :: ext] =
        w.files.catPrints [cmd, name ++ '.' :: ext] := rfl
    rw [hread, ← catPrints_eq hholds, Catalogue.catPrints, resolveNameExt_dotted hname]
    simp only [hfile, Option.bind_some, decodeUtf8_encodeUtf8]
  have hhandle : Mount.fileOps.handle w.files (.cat [cmd, name ++ '.' :: ext]) =
      .ok (.success "File read successfully" false, w.files) := by
    have hread : Mount.fileOps.handle w.files (.cat [cmd, name ++ '.' :: ext]) =
        w.files.catFile [cmd, name ++ '.' :: ext] := rfl
    rw [hread, Mount.catFile, Mount.readCommand, resolveNameExt_dotted hname, hholds.mounted]
    simp only [hholds.contents, hfile, ok_bind, decodeUtf8_encodeUtf8]
    rfl
  have hfiles : (["--- " ++ String.ofList name ++ " ---", String.ofList s, "------------"].foldl
      World.println w).files = w.files := rfl
  rw [World.runCmd_handler fuel hcat, Handler.run, hprints]
  dsimp only
  rw [fileCommand, hfiles, hhandle]
  rfl

/-- **`eden` edits a file as one text.**  On a drive that holds the files of a list, let a file
contain ASCII text without carriage returns, and let ASCII keys be pressed in the editor.  If there
is room for the result, `eden` returns, `cat` then prints what the flat text buffer makes with these
keys of the old text, of which a newline at its end is lost, and every other file is as it was. -/
theorem eden_edits_text {eden cat : Str} (hholds : Holds w.files c)
    (heden : w.commands.lookup eden = some (.handler .runEdit))
    (hcat : w.commands.lookup cat = some (.handler .catFile)) (hname : '.' ∉ name)
    (hfile : c.contents (upperField 8 name, upperField 3 ext) = some (encodeUtf8 s))
    (hs : ∀ c ∈ s, Editor.IsAscii c) (hcr : '\r' ∉ s) (hedits : w.edits = keys :: edits)
    (hkeys : ∀ op ∈ keys, op.IsAscii)
    (hroom : c.overwrite (upperField 8 name, upperField 3 ext)
      (encodeUtf8 (Editor.visit s keys)) = .ok (.ok (), c₁)) :
    ∃ w₁, Holds w₁.files c₁ ∧
      (∀ other, other ≠ (upperField 8 name, upperField 3 ext) →
        c₁.contents other = c.contents other) ∧
      ∀ fuel,
        runCmd floats Mount.fileOps (fuel + 1) [eden, name ++ '.' :: ext] w =
          (some (.success "Worked" false), w₁) ∧
        runCmd floats Mount.fileOps (fuel + 1) [cat, name ++ '.' :: ext] w₁ =
          (some (.success "File read successfully" false),
            ["--- " ++ String.ofList name ++ " ---", String.ofList (Editor.visit s keys),
              "------------"].foldl World.println w₁) := by
  obtain ⟨m, hm, hcmd⟩ := runCmd_eden floats hholds heden hname hfile hs hcr hedits hkeys hroom
  have hnew : c₁.contents (upperField 8 name, upperField 3 ext) =
      some (encodeUtf8 (Editor.visit s keys)) := by
    rw [Catalogue.contents_overwrite hroom, if_pos rfl]
  refine ⟨{ w with files := m, edits := edits }, hm, fun other hother => ?_, fun fuel => ⟨hcmd fuel,
    runCmd_cat (w := { w with files := m, edits := edits }) fuel hm hcat hname hnew⟩⟩
  rw [Catalogue.contents_overwrite hroom, if_neg hother]

end Editing

/-- The line `ab` and its newline in the file `a.txt`, and the keys right and `x`. -/
theorem eden_edits_text_insert :
    ∃ w w₁ : World Mount, ∀ fuel,
      runCmd digitOps Mount.fileOps (fuel + 1) [['e', 'd', 'e', 'n'], ['a', '.', 't', 'x', 't']] w =
        (some (.success "Worked" false), w₁) ∧
      runCmd digitOps Mount.fileOps (fuel + 1) [['c', 'a', 't'], ['a', '.', 't', 'x', 't']] w₁ =
        (some (.success "File read successfully" false),
          ["--- a ---", "axb", "------------"].foldl World.println w₁) := by
  have hholds : Holds ⟨formatDrive blankDrive, some formatFs⟩ Catalogue.blank :=
    ⟨rfl, init_formatDrive _, _, lists_formatDrive _⟩
  have hcall : Catalogue.machine.step Catalogue.blank (.writeNewFile (upperField 8 ['a'])
      (upperField 3 ['t', 'x', 't']) (encodeUtf8 ['a', 'b', '\n'])) = .ok (.ok (),
        ⟨[((upperField 8 ['a'], upperField 3 ['t', 'x', 't']), encodeUtf8 ['a', 'b', '\n'])],
          16381⟩) := by
    decide +kernel
  obtain ⟨d, -, hd⟩ := hholds.call hcall
  have hroom : Catalogue.overwrite
      ⟨[((upperField 8 ['a'], upperField 3 ['t', 'x', 't']), encodeUtf8 ['a', 'b', '\n'])], 16381⟩
      (upperField 8 ['a'], upperField 3 ['t', 'x', 't'])
      (encodeUtf8 (Editor.visit ['a', 'b', '\n'] [.right, .insertChar 'x'])) = .ok (.ok (),
        ⟨[((upperField 8 ['a'], upperField 3 ['t', 'x', 't']), encodeUtf8 ['a', 'x', 'b'])],
          16381⟩) := by
    decide +kernel
  have heden : Commands.initCmds.lookup ['e', 'd', 'e', 'n'] = some (.handler .runEdit) := by decide
  have hcat : Commands.initCmds.lookup ['c', 'a', 't'] = some (.handler .catFile) := by decide
  obtain ⟨w₁, -, -, hcmds⟩ := @eden_edits_text _ digitOps
    (World.start ⟨d, some formatFs⟩ [[.right, .insertChar 'x']] []) _ _ ['a'] ['t', 'x', 't']
    ['a', 'b', '\n'] _ _ ['e', 'd', 'e', 'n'] ['c', 'a', 't'] hd heden hcat (by decide)
    (by decide +kernel) (by simp [Editor.IsAscii]) (by decide) rfl (by decide)
    hroom
  have htext : Editor.visit ['a', 'b', '\n'] [.right, .insertChar 'x'] = ['a', 'x', 'b'] := by
    decide
  rw [htext] at hcmds
  exact ⟨_, w₁, hcmds⟩

end SilOS
