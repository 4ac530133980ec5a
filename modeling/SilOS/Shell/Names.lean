/-
# Which file a command names

`mkdir`, `edit`, `cat` and `run` take the name of a file from their arguments with
`resolve_name_ext`, put the characters into upper case and cut the bytes to the width of the field.
`eden` splits its arguments itself and hands them to `format_fat16_name`, which cuts the bytes first
and puts them into upper case one by one.  Both give the same file, since upper case is a matter of
single bytes: no byte of a longer character is a letter.
-/
import SilOS.Shell.Files

namespace SilOS

open Lib Fat16 Risp

/-- The file that `run_editor` names by its arguments. -/
def editorFile (args : List Str) : Bytes 8 × Bytes 3 :=
  formatFat16Name (editorName args).1 (editorName args).2

/-! ### Upper case by bytes -/

lemma upperByte_ofNat {n : ℕ} (h : n < 256) :
    upperByte (UInt8.ofNat n) = UInt8.ofNat (if 0x61 ≤ n ∧ n ≤ 0x7a then n - 0x20 else n) := by
  have hn := toNat_ofNat_byte h
  simp only [upperByte, UInt8.le_iff_toNat_le, hn, UInt8.reduceToNat]
  split_ifs with hletter
  · apply UInt8.toNat_inj.mp
    have hle : (0x20 : UInt8) ≤ UInt8.ofNat n := by
      rw [UInt8.le_iff_toNat_le, hn]
      exact le_trans (by decide) hletter.1
    rw [UInt8.toNat_sub_of_le _ _ hle, hn, toNat_ofNat_byte (by omega)]
    rfl
  · rfl

lemma upperByte_of_le {n : ℕ} (hle : 0x80 ≤ n) (h : n < 256) :
    upperByte (UInt8.ofNat n) = UInt8.ofNat n := by
  rw [upperByte_ofNat h, if_neg (by omega)]

lemma toNat_toUpper (c : Char) :
    c.toUpper.toNat = if 0x61 ≤ c.toNat ∧ c.toNat ≤ 0x7a then c.toNat - 0x20 else c.toNat := by
  have hiff : ('a'.val ≤ c.val ∧ c.val ≤ 'z'.val) ↔ 0x61 ≤ c.toNat ∧ c.toNat ≤ 0x7a := by
    simp only [UInt32.le_iff_toNat_le]
    rfl
  rw [Char.toUpper]
  split_ifs with h h' h'
  · have hval : (c.val + ('A'.val - 'a'.val)).toNat = (c.toNat + (2 ^ 32 - 0x20)) % 2 ^ 32 := by
      rw [UInt32.toNat_add]
      rfl
    exact hval.trans (by omega)
  · exact absurd (hiff.mp h) h'
  · exact absurd (hiff.mpr h') h
  · rfl

/-- The bytes of a character in upper case are its bytes in upper case. -/
lemma utf8EncodeChar_toUpper (c : Char) :
    String.utf8EncodeChar c.toUpper = (String.utf8EncodeChar c).map upperByte := by
  by_cases hle : c.toNat ≤ 0x7f
  · have hupper := toNat_toUpper c
    have hle' : c.toUpper.toNat ≤ 0x7f := by
      rw [hupper]
      split_ifs <;> omega
    rw [utf8EncodeChar_of_le hle, utf8EncodeChar_of_le hle', List.map_singleton,
      upperByte_ofNat (by omega), hupper]
  · have hself : c.toUpper = c := by
      apply Char.toNat_inj.mp
      rw [toNat_toUpper, if_neg (by omega)]
    rw [hself]
    -- every byte of a longer character is at least `0x80`
    rcases utf8EncodeChar_cases c with ⟨h, -⟩ | ⟨-, -, henc⟩ | ⟨-, -, henc⟩ | ⟨-, henc⟩
    · exact absurd h hle
    all_goals
      rw [henc]
      simp only [List.map_cons, List.map_nil]
      rw [upperByte_of_le (by omega) (by omega), upperByte_of_le (by omega) (by omega)]
    · rw [upperByte_of_le (by omega) (by omega)]
    · rw [upperByte_of_le (by omega) (by omega), upperByte_of_le (by omega) (by omega)]

lemma encodeUtf8_map_toUpper (s : Str) :
    encodeUtf8 (s.map Char.toUpper) = (encodeUtf8 s).map upperByte := by
  rw [encodeUtf8, encodeUtf8, List.flatMap_map, List.map_flatMap]
  simp only [utf8EncodeChar_toUpper]

/-- Cutting the bytes and putting them into upper case can be done in either order. -/
lemma formatFat16Name_eq (name ext : Str) :
    formatFat16Name name ext = (upperField 8 name, upperField 3 ext) := by
  simp only [formatFat16Name, upperField, encodeUtf8_map_toUpper, List.map_take]

/-! ### The two forms of a name -/

/-- The name that `run_editor` takes is the one that `resolve_name_ext` finds, if it finds one. -/
lemma editorName_of_resolve {args : List Str} {name ext : Str} {next : ℕ}
    (h : resolveNameExt args 1 = some (name, ext, next)) : editorName args = (name, ext) := by
  rw [resolveNameExt] at h
  rw [editorName]
  cases htok : args[1]? with
  | none => simp [htok] at h
  | some tok =>
      simp only [htok, Option.bind_eq_bind, Option.bind_some] at h ⊢
      cases hsplit : splitPoint tok with
      | some r =>
          simp only [hsplit, Option.pure_def, Option.some.injEq, Prod.mk.injEq] at h
          obtain ⟨rfl, rfl, -⟩ := h
          rfl
      | none =>
          cases hext : args[2]? with
          | none => simp [hsplit, hext] at h
          | some tok' =>
              simp only [hsplit, hext, Option.bind_some, Option.pure_def, Option.some.injEq,
                Prod.mk.injEq] at h
              obtain ⟨rfl, rfl, -⟩ := h
              rfl

lemma splitPoint_append {name : Str} (h : '.' ∉ name) (ext : Str) :
    splitPoint (name ++ '.' :: ext) = some (name, ext) := by
  have hall : ∀ c ∈ name, decide (c ≠ '.') = true := by
    intro c hc
    rw [decide_eq_true_eq]
    rintro rfl
    exact h hc
  rw [splitPoint, if_pos (by simp), List.takeWhile_append_of_pos hall,
    List.dropWhile_append_of_pos hall]
  simp

section Forms

variable {cmd name ext : Str} {rest : List Str}

lemma resolveNameExt_dotted (h : '.' ∉ name) :
    resolveNameExt (cmd :: (name ++ '.' :: ext) :: rest) 1 = some (name, ext, 2) := by
  simp [resolveNameExt, splitPoint_append h]

lemma resolveNameExt_words (h : '.' ∉ name) :
    resolveNameExt (cmd :: name :: ext :: rest) 1 = some (name, ext, 3) := by
  simp [resolveNameExt, splitPoint, h]

lemma editorFile_dotted (h : '.' ∉ name) :
    editorFile (cmd :: (name ++ '.' :: ext) :: rest) = editorFile (cmd :: name :: ext :: rest) := by
  rw [editorFile, editorFile, editorName_of_resolve (resolveNameExt_dotted h),
    editorName_of_resolve (resolveNameExt_words h)]

namespace Mount

variable (m : Mount)

/-- Both forms leave the same arguments after the name. -/
lemma writeCommand_dotted (h : '.' ∉ name) (usage notMounted : String)
    (call : Bytes 8 → Bytes 3 → List UInt8 → Call)
    (report : Str → Str → List UInt8 → Except FsError Unit → Outcome) :
    m.writeCommand (cmd :: (name ++ '.' :: ext) :: rest) usage notMounted call report =
      m.writeCommand (cmd :: name :: ext :: rest) usage notMounted call report := by
  have hiff : (cmd :: name :: ext :: rest).length ≤ 3 ↔
      (cmd :: (name ++ '.' :: ext) :: rest).length ≤ 2 := by
    simp only [List.length_cons]
    omega
  rw [writeCommand, writeCommand, resolveNameExt_dotted h, resolveNameExt_words h]
  simp only [hiff]
  rfl

lemma readCommand_dotted (h : '.' ∉ name) (usage kind invalid : String)
    {found found' : ℕ → Str → Outcome} (hfound : found 2 = found' 3) :
    m.readCommand (cmd :: (name ++ '.' :: ext) :: rest) usage kind invalid found =
      m.readCommand (cmd :: name :: ext :: rest) usage kind invalid found' := by
  rw [readCommand, readCommand, resolveNameExt_dotted h, resolveNameExt_words h]
  simp only [hfound]

lemma runEdit_dotted (h : '.' ∉ name) (keys : List Editor.Op) :
    m.runEdit (cmd :: (name ++ '.' :: ext) :: rest) keys =
      m.runEdit (cmd :: name :: ext :: rest) keys := by
  have hfile : editorFile (cmd :: (name ++ '.' :: ext) :: rest) =
      editorFile (cmd :: name :: ext :: rest) := editorFile_dotted h
  simp only [editorFile] at hfile
  rw [runEdit, runEdit, hfile]

end Mount

end Forms

/-- **All file commands name the same file.**  If `resolve_name_ext` succeeds on the arguments,
then `run_editor` opens the file that the other commands look for.  For a name without a point, all
commands do the same for `NAME.EXT` and for `NAME EXT`. -/
theorem file_commands_agree :
    (∀ (args : List Str) (name ext : Str) (next : ℕ),
      resolveNameExt args 1 = some (name, ext, next) →
        editorFile args = (upperField 8 name, upperField 3 ext)) ∧
    ∀ (cmd name ext : Str) (rest : List Str), '.' ∉ name →
      resolveNameExt (cmd :: (name ++ '.' :: ext) :: rest) 1 = some (name, ext, 2) ∧
      resolveNameExt (cmd :: name :: ext :: rest) 1 = some (name, ext, 3) ∧
      editorFile (cmd :: (name ++ '.' :: ext) :: rest) =
        editorFile (cmd :: name :: ext :: rest) ∧
      ∀ m : Mount,
        m.makeFile (cmd :: (name ++ '.' :: ext) :: rest) =
          m.makeFile (cmd :: name :: ext :: rest) ∧
        m.edit (cmd :: (name ++ '.' :: ext) :: rest) = m.edit (cmd :: name :: ext :: rest) ∧
        m.catFile (cmd :: (name ++ '.' :: ext) :: rest) =
          m.catFile (cmd :: name :: ext :: rest) ∧
        m.runFile (cmd :: (name ++ '.' :: ext) :: rest) =
          m.runFile (cmd :: name :: ext :: rest) ∧
        ∀ keys, m.runEdit (cmd :: (name ++ '.' :: ext) :: rest) keys =
          m.runEdit (cmd :: name :: ext :: rest) keys := by
  constructor
  · intro args name ext next h
    rw [editorFile, editorName_of_resolve h, formatFat16Name_eq]
  · intro cmd name ext rest h
    refine ⟨resolveNameExt_dotted h, resolveNameExt_words h, editorFile_dotted h, fun m => ?_⟩
    exact ⟨m.writeCommand_dotted h _ _ _ _, m.writeCommand_dotted h _ _ _ _,
      m.readCommand_dotted h _ _ _ rfl, m.readCommand_dotted h _ _ _ rfl, m.runEdit_dotted h⟩

theorem file_commands_agree_two_points :
    resolveNameExt [['c', 'a', 't'], ['é', '.', 'b', '.', 'c']] 1 =
        some (['é'], ['b', '.', 'c'], 2) ∧
      editorFile [['c', 'a', 't'], ['é', '.', 'b', '.', 'c']] =
        (upperField 8 ['é'], upperField 3 ['b', '.', 'c']) :=
  ⟨by decide, file_commands_agree.1 _ _ _ 2 (by decide)⟩

end SilOS
