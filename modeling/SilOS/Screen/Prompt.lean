/-
# The prompt line

`shell_task` keeps two records of what is typed: the command line of the shell, and the characters
on the screen.  A character is added to both and a backspace is sent to both, but each record
decides for itself what a backspace does: `Shell::backspace` drops the last character of the line if
there is one, and `Writer::delete_byte` deletes the character before the column if there is one in
the last row.

`Prompt` puts the two together, with the number of rows that the screen has been scrolled by since
the prompt was printed.  `agrees_handleKey_iff` says which keys keep them in agreement.
-/
import SilOS.Screen.Writer
import SilOS.Shell.Task

namespace SilOS.Screen

open Lib

/-- The screen and the shell since the prompt. -/
structure Prompt where
  writer : Writer
  task : ShellTask
  /-- How often the screen has been scrolled since the prompt was printed. -/
  scrolls : ℕ

namespace Prompt

/-- How often the screen scrolls while a text is written from a column on. -/
def scrollsFrom : ℕ → List UInt8 → ℕ
  | _, [] => 0
  | column, byte :: text =>
      if byte = 0x0a then scrollsFrom 0 text + 1
      else if column ≥ bufferWidth then scrollsFrom 1 text + 1
      else scrollsFrom (column + 1) text

/-- `print!`. -/
def print (p : Prompt) (s : List Char) : Except Fault Prompt := do
  let writer ← p.writer.writeString s
  return { p with
    writer := writer
    scrolls := p.scrolls +
      scrollsFrom p.writer.columnPosition ((encodeUtf8 s).map Writer.shown) }

/-- `_backspace`. -/
def backspace (p : Prompt) : Except Fault Prompt := do
  let writer ← p.writer.deleteByte
  return { p with writer := writer }

/-- One key of the inner loop of `shell_task`: what it does on the screen, and then what it does to
the shell. -/
def handleKey (p : Prompt) (key : DecodedKey) : Except Fault Prompt := do
  let p ← match key with
    | .unicode character =>
        if character = '\x08' then p.backspace
        else if character = '\n' then p.print ['\n']
        else p.print [character]
    | .rawKey => pure p
  return { p with task := p.task.handleKey key }

/-- The prompt that `shell_task` prints. -/
def promptText : List Char := ['>', ' ']

/-- The state right after the prompt has been printed. -/
def afterPrompt (writer : Writer) (task : ShellTask) : Except Fault Prompt :=
  print ⟨writer, task, 0⟩ promptText

/-! ### The text since the prompt -/

/-- The character in a cell. -/
def charAt (w : Writer) (i : Fin bufferHeight) (j : Fin bufferWidth) : Char :=
  Char.ofNat (w.buffer i j).asciiCharacter.toNat

/-- The text since the prompt: the cells are read one after the other, from the start of the row
that the prompt is in, or of the screen if that row is no longer there, up to the column in the last
row. -/
def text (p : Prompt) : List Char :=
  (List.range (80 * min p.scrolls 24 + p.writer.columnPosition)).map fun k =>
    charAt p.writer (Fin.ofNat _ (24 - min p.scrolls 24 + k / 80)) (Fin.ofNat _ (k % 80))

/-- The prompt and the command line, without the rows that are no longer on the screen. -/
def expected (p : Prompt) : List Char :=
  (promptText ++ p.task.shell.currentCmd).drop (80 * (p.scrolls - 24))

/-- The screen shows the prompt and the command line. -/
structure Agrees (p : Prompt) : Prop where
  column_le : p.writer.columnPosition ≤ 80
  text_eq : p.text = p.expected

/-- A printable ASCII character or the backspace. -/
def IsTyped : DecodedKey → Prop
  | .unicode character =>
      character = '\x08' ∨ 0x20 ≤ character.toNat ∧ character.toNat ≤ 0x7e
  | .rawKey => False

/-- The keys in question. -/
abbrev TypedKey : Type := { key : DecodedKey // IsTyped key }

/-- Typing at the prompt. -/
def machine : Machine Prompt TypedKey Unit Fault where
  step p key := (p.handleKey key.val).map fun p => ((), p)

/-- A backspace finds a character of the command line, and finds it in the last row of the
screen. -/
def BackspaceInRow (p : Prompt) (key : TypedKey) : Prop :=
  key.val = .unicode '\x08' → p.task.shell.currentCmd ≠ [] ∧ 0 < p.writer.columnPosition

/-! ### Cell by cell -/

/-- The text `s`, which starts `n` rows above the last row of the screen, stands there up to the
column, as far as its rows are on the screen. -/
structure Displays (w : Writer) (n : ℕ) (s : List Char) : Prop where
  column_le : w.columnPosition ≤ 80
  length : s.length = 80 * n + w.columnPosition
  cell : ∀ (i : Fin bufferHeight) (j : Fin bufferWidth), 24 ≤ i.val + n →
    80 * (i.val + n - 24) + j.val < s.length →
    s[80 * (i.val + n - 24) + j.val]? = some (charAt w i j)

variable {w : Writer} {n : ℕ} {s : List Char} {p : Prompt}

lemma Displays.put (h : Displays w n s) (hlt : w.columnPosition < 80) {c : Char} {byte : UInt8}
    (hc : Char.ofNat byte.toNat = c) : Displays (w.put byte) n (s ++ [c]) where
  column_le := hlt
  length := by simp [Writer.put, h.length, Nat.add_assoc]
  cell i j hin hk := by
    have hlen := h.length
    rw [List.length_append, List.length_singleton] at hk
    by_cases hij : i.val = 24 ∧ j.val = w.columnPosition
    · have hindex : 80 * (i.val + n - 24) + j.val = s.length := by omega
      rw [hindex, List.getElem?_concat_length]
      simp [charAt, Writer.put, Buffer.set, hij, hc]
    · have hi : i.val < 25 := i.isLt
      have hj : j.val < 80 := j.isLt
      have hk' : 80 * (i.val + n - 24) + j.val < s.length := by omega
      rw [List.getElem?_append_left hk', h.cell i j hin hk']
      simp [charAt, Writer.put, Buffer.set, hij]

/-- A full row moves up. -/
lemma Displays.scroll (h : Displays w n s) (hfull : w.columnPosition = 80) :
    Displays w.scroll (n + 1) s where
  column_le := Nat.zero_le _
  length := by simp [Writer.scroll, h.length, hfull, Nat.mul_add]
  cell i j hin hk := by
    have hlen := h.length
    -- the text ends before the last row
    have hi : i.val + 1 < bufferHeight := by
      have : i.val < 25 := i.isLt
      change i.val + 1 < 25
      omega
    have hindex : i.val + (n + 1) - 24 = i.val + 1 + n - 24 := by omega
    rw [hindex] at hk ⊢
    rw [h.cell ⟨i + 1, hi⟩ j (by simp; omega) hk]
    simp [charAt, Writer.scroll, Buffer.scrolled, hi]

lemma Displays.erase (h : Displays w n s) (hpos : 0 < w.columnPosition) :
    Displays w.erase n s.dropLast where
  column_le := (Nat.sub_le _ _).trans h.column_le
  length := by
    rw [List.length_dropLast, h.length]
    simp only [Writer.erase]
    omega
  cell i j hin hk := by
    have hlen := h.length
    have hcol := h.column_le
    rw [List.length_dropLast] at hk
    have hj : j.val < 80 := j.isLt
    have hij : ¬ (i.val = 24 ∧ j.val = w.columnPosition - 1) := by omega
    rw [List.getElem?_dropLast, if_pos hk, h.cell i j hin (by omega)]
    simp [charAt, Writer.erase, Buffer.set, hij]

/-- Reading the screen and comparing cell by cell come to the same. -/
lemma agrees_iff_displays :
    p.Agrees ↔ Displays p.writer p.scrolls (promptText ++ p.task.shell.currentCmd) := by
  set s := promptText ++ p.task.shell.currentCmd with hs
  constructor
  · rintro ⟨hcol, htext⟩
    have hlen : s.length = 80 * p.scrolls + p.writer.columnPosition := by
      have := congrArg List.length htext
      simp only [text, expected, List.length_map, List.length_range, List.length_drop, ← hs] at this
      have : 2 ≤ s.length := by simp [hs, promptText]
      omega
    refine ⟨hcol, hlen, fun i j hin hk => ?_⟩
    have hi : i.val < 25 := i.isLt
    have hj : j.val < 80 := j.isLt
    obtain ⟨k, hk'⟩ : ∃ k, 80 * (i.val + p.scrolls - 24) + j.val = 80 * (p.scrolls - 24) + k :=
      ⟨80 * (i.val + p.scrolls - 24) + j.val - 80 * (p.scrolls - 24), by omega⟩
    have hbound : k < 80 * min p.scrolls 24 + p.writer.columnPosition := by omega
    have hi' : 24 - min p.scrolls 24 + k / 80 = i.val := by omega
    have hj' : k % 80 = j.val := by omega
    have hget := congrArg (fun l => l[k]?) htext
    simp only [text, expected, List.getElem?_map, List.getElem?_range hbound, Option.map_some, hi',
      hj', List.getElem?_drop, ← hs, ← hk'] at hget
    rw [← hget]
    congr 2 <;> exact (Fin.ext (Nat.mod_eq_of_lt (Fin.isLt _)))
  · rintro ⟨hcol, hlen, hcell⟩
    refine ⟨hcol, List.ext_getElem? fun k => ?_⟩
    rw [expected, ← hs, List.getElem?_drop]
    rcases Nat.lt_or_ge k (80 * min p.scrolls 24 + p.writer.columnPosition) with hk | hk
    · have hi : 24 - min p.scrolls 24 + k / 80 < 25 := by omega
      have hj : k % 80 < 80 := by omega
      have hindex : 80 * (24 - min p.scrolls 24 + k / 80 + p.scrolls - 24) + k % 80 =
          80 * (p.scrolls - 24) + k := by omega
      have hget := hcell (Fin.ofNat _ (24 - min p.scrolls 24 + k / 80)) (Fin.ofNat _ (k % 80))
      simp only [Fin.val_ofNat, Nat.mod_eq_of_lt hi, Nat.mod_eq_of_lt hj, hindex] at hget
      rw [hget (by omega) (by omega)]
      simp only [text, List.getElem?_map, List.getElem?_range hk, Option.map_some]
    · -- behind the column there is no text
      rw [List.getElem?_eq_none (by simpa [text] using hk), List.getElem?_eq_none (by omega)]

/-! ### One key -/

lemma toNat_byte {c : Char} (hhi : c.toNat ≤ 0x7e) : (UInt8.ofNat c.toNat).toNat = c.toNat :=
  UInt8.toNat_ofNat_of_lt' (show c.toNat < 256 by omega)

/-- A printable character is written as one byte. -/
lemma map_shown_bytes {c : Char} (hlo : 0x20 ≤ c.toNat) (hhi : c.toNat ≤ 0x7e) :
    (encodeUtf8 [c]).map Writer.shown = [UInt8.ofNat c.toNat] := by
  have hencode : String.utf8EncodeChar c = [UInt8.ofNat c.toNat] :=
    if_pos (show c.toNat ≤ 127 by omega)
  have hshown : Writer.shown (UInt8.ofNat c.toNat) = UInt8.ofNat c.toNat := by
    refine if_pos (Or.inl ⟨?_, ?_⟩)
    · rw [UInt8.le_iff_toNat_le, toNat_byte hhi]
      exact hlo
    · rw [UInt8.le_iff_toNat_le, toNat_byte hhi]
      exact hhi
  simp [encodeUtf8, hencode, hshown]

lemma ofNat_ne_lineFeed {c : Char} (hlo : 0x20 ≤ c.toNat) (hhi : c.toNat ≤ 0x7e) :
    UInt8.ofNat c.toNat ≠ 0x0a := by
  intro h
  have hnat : c.toNat = 10 := by rw [← toNat_byte hhi, h]; rfl
  omega

/-- A character that is printed and added to the line. -/
lemma handleKey_char {c : Char} (hlo : 0x20 ≤ c.toNat) (hhi : c.toNat ≤ 0x7e) :
    p.handleKey (.unicode c) = .ok
      { writer := if p.writer.columnPosition < bufferWidth then p.writer.put (UInt8.ofNat c.toNat)
          else p.writer.scroll.put (UInt8.ofNat c.toNat)
        task := { p.task with shell.currentCmd := p.task.shell.currentCmd ++ [c] }
        scrolls := p.scrolls + if p.writer.columnPosition < bufferWidth then 0 else 1 } := by
  have hback : c ≠ '\x08' := by
    rintro rfl
    exact absurd hlo (by decide)
  have hfeed : c ≠ '\n' := by
    rintro rfl
    exact absurd hlo (by decide)
  have hbyte := ofNat_ne_lineFeed hlo hhi
  have hwrite : p.writer.writeString [c] = p.writer.writeByte (UInt8.ofNat c.toNat) := by
    rw [Writer.writeString_eq, map_shown_bytes hlo hhi, List.foldlM_cons]
    simp
  have hscrolls : scrollsFrom p.writer.columnPosition [UInt8.ofNat c.toNat] =
      if p.writer.columnPosition < bufferWidth then 0 else 1 := by
    simp only [scrollsFrom, if_neg hbyte, ge_iff_le, ← Nat.not_lt]
    split_ifs <;> rfl
  have htask : p.task.handleKey (.unicode c) =
      { p.task with shell.currentCmd := p.task.shell.currentCmd ++ [c] } := by
    have hne : DecodedKey.unicode c ≠ ShellTask.enter := by simpa [ShellTask.enter] using hfeed
    have hfits : ShellTask.FitsByte (.unicode c) := show c.toNat < 256 by omega
    rw [ShellTask.handleKey_of_ne hne hfits, ShellTask.edit, if_neg hback]
  simp only [handleKey, if_neg hback, if_neg hfeed, print, hwrite, Writer.writeByte_eq,
    if_neg hbyte, map_shown_bytes hlo hhi, hscrolls, ok_bind, pure_bind, htask]
  rfl

lemma handleKey_backspace_of_pos (hpos : 0 < p.writer.columnPosition)
    (hcol : p.writer.columnPosition ≤ 80) :
    p.handleKey (.unicode '\x08') = .ok
      { p with writer := p.writer.erase, task := p.task.handleKey (.unicode '\x08') } := by
  simp only [handleKey, if_pos, backspace, Writer.deleteByte_of_pos hpos hcol, ok_bind]
  rfl

lemma handleKey_backspace_of_zero (hzero : p.writer.columnPosition = 0) :
    p.handleKey (.unicode '\x08') = .ok
      { p with task := p.task.handleKey (.unicode '\x08') } := by
  simp only [handleKey, if_pos, backspace, Writer.deleteByte_of_zero hzero, ok_bind]
  rfl

lemma Agrees.handleKey_char {c : Char} (h : p.Agrees) (hlo : 0x20 ≤ c.toNat)
    (hhi : c.toNat ≤ 0x7e) : ∃ p₁, p.handleKey (.unicode c) = .ok p₁ ∧ p₁.Agrees := by
  refine ⟨_, Prompt.handleKey_char hlo hhi, agrees_iff_displays.mpr ?_⟩
  have hdisplays := agrees_iff_displays.mp h
  have hc : Char.ofNat (UInt8.ofNat c.toNat).toNat = c := ShellTask.ofNat_uint8 (by omega)
  rw [← List.append_assoc]
  by_cases hlt : p.writer.columnPosition < bufferWidth
  · simpa [hlt] using hdisplays.put hlt hc
  · -- the row is full
    have hfull : p.writer.columnPosition = 80 := le_antisymm h.column_le (Nat.le_of_not_lt hlt)
    simpa [hlt] using (hdisplays.scroll hfull).put (Nat.zero_lt_succ _) hc

/-- A backspace keeps the agreement exactly if it finds a character of the line in the last row: at
column 0 it only shortens the line, and on an empty line it deletes a character of the prompt. -/
lemma Agrees.handleKey_backspace_iff (h : p.Agrees) :
    (∃ p₁, p.handleKey (.unicode '\x08') = .ok p₁ ∧ p₁.Agrees) ↔
      p.task.shell.currentCmd ≠ [] ∧ 0 < p.writer.columnPosition := by
  have hdisplays := agrees_iff_displays.mp h
  have hlen := hdisplays.length
  simp only [promptText, List.length_append, List.length_cons, List.length_nil] at hlen
  constructor
  · rintro ⟨p₁, hkey, hagrees⟩
    have hlen₁ := (agrees_iff_displays.mp hagrees).length
    simp only [promptText, List.length_append, List.length_cons, List.length_nil] at hlen₁
    rcases Nat.eq_zero_or_pos p.writer.columnPosition with hzero | hpos
    · -- the text on the screen is as long as before
      rw [handleKey_backspace_of_zero hzero, Except.ok.injEq] at hkey
      subst hkey
      simp only [ShellTask.handleKey, Shell.backspace, List.length_dropLast, if_pos] at hlen₁
      omega
    · rw [handleKey_backspace_of_pos hpos h.column_le, Except.ok.injEq] at hkey
      subst hkey
      simp only [ShellTask.handleKey, Shell.backspace, List.length_dropLast, Writer.erase, if_pos]
        at hlen₁
      refine ⟨fun hnil => ?_, hpos⟩
      rw [hnil, List.length_nil] at hlen hlen₁
      omega
  · rintro ⟨hne, hpos⟩
    refine ⟨_, handleKey_backspace_of_pos hpos h.column_le, agrees_iff_displays.mpr ?_⟩
    have herase := hdisplays.erase hpos
    rwa [List.dropLast_append_of_ne_nil hne] at herase

/-- **One key.** -/
lemma agrees_handleKey_iff (h : p.Agrees) (key : TypedKey) :
    (∃ o p₁, machine.step p key = .ok (o, p₁) ∧ p₁.Agrees) ↔ p.BackspaceInRow key := by
  have hstep : (∃ o p₁, machine.step p key = .ok (o, p₁) ∧ p₁.Agrees) ↔
      ∃ p₁, p.handleKey key.val = .ok p₁ ∧ p₁.Agrees := by
    simp [machine, map_eq_ok]
  rw [hstep]
  obtain ⟨key, htyped⟩ := key
  cases key with
  | rawKey => exact htyped.elim
  | unicode c =>
      rcases htyped with rfl | ⟨hlo, hhi⟩
      · exact h.handleKey_backspace_iff.trans ⟨fun hrow _ => hrow, fun hrow => hrow rfl⟩
      · refine ⟨fun _ hback => ?_, fun _ => h.handleKey_char hlo hhi⟩
        obtain rfl : c = '\x08' := by simpa using hback
        exact absurd hlo (by decide)

/-! ### Behind the column -/

/-- There are only blanks from the column on. -/
def BlankBehind (w : Writer) : Prop :=
  ∀ j : Fin bufferWidth, w.columnPosition ≤ j.val → (w.buffer 24 j).asciiCharacter = 0x20

lemma BlankBehind.put (h : BlankBehind w) (byte : UInt8) : BlankBehind (w.put byte) := by
  intro j hj
  have hlt : w.columnPosition < j.val := hj
  simpa [Writer.put, Buffer.set, hlt.ne'] using h j hlt.le

lemma blankBehind_scroll (w : Writer) : BlankBehind w.scroll := by
  intro j _
  simp [Writer.scroll, Buffer.scrolled, Writer.blank]

lemma BlankBehind.erase (h : BlankBehind w) : BlankBehind w.erase := by
  intro j hj
  by_cases heq : j.val = w.columnPosition - 1
  · simp [Writer.erase, Buffer.set, heq, Writer.blank]
  · have hle : w.columnPosition ≤ j.val := by
      have : w.columnPosition - 1 ≤ j.val := hj
      omega
    simpa [Writer.erase, Buffer.set, heq] using h j hle

lemma step_of_handleKey (key : TypedKey) {p₁ : Prompt} (h : p.handleKey key.val = .ok p₁) :
    machine.step p key = .ok ((), p₁) :=
  map_eq_ok.mpr ⟨p₁, h, rfl⟩

/-- Every key gives a result and leaves blanks behind the column. -/
lemma BlankBehind.step (hcol : p.writer.columnPosition ≤ 80) (h : BlankBehind p.writer)
    (key : TypedKey) :
    ∃ o p₁, machine.step p key = .ok (o, p₁) ∧
      p₁.writer.columnPosition ≤ 80 ∧ BlankBehind p₁.writer := by
  suffices hkey : ∃ p₁, p.handleKey key.val = .ok p₁ ∧
      p₁.writer.columnPosition ≤ 80 ∧ BlankBehind p₁.writer by
    obtain ⟨p₁, hkey, hp₁⟩ := hkey
    exact ⟨(), p₁, step_of_handleKey key hkey, hp₁⟩
  obtain ⟨key, htyped⟩ := key
  cases key with
  | rawKey => exact htyped.elim
  | unicode c =>
      rcases htyped with rfl | ⟨hlo, hhi⟩
      · rcases Nat.eq_zero_or_pos p.writer.columnPosition with hzero | hpos
        · exact ⟨_, handleKey_backspace_of_zero hzero, hcol, h⟩
        · exact ⟨_, handleKey_backspace_of_pos hpos hcol, (Nat.sub_le _ _).trans hcol, h.erase⟩
      · refine ⟨_, handleKey_char hlo hhi, ?_⟩
        by_cases hlt : p.writer.columnPosition < bufferWidth
        · simpa [hlt] using ⟨(hlt : p.writer.columnPosition + 1 ≤ 80), h.put _⟩
        · simpa [hlt] using ⟨Nat.le_add_left 1 79, (blankBehind_scroll p.writer).put _⟩

/-! ### Typing at the prompt -/

/-- The state right after the prompt, which fits into the row. -/
lemma afterPrompt_eq {writer : Writer} (hcol : writer.columnPosition = 0) (task : ShellTask) :
    afterPrompt writer task = .ok ⟨(writer.put 0x3e).put 0x20, task, 0⟩ := by
  have hbytes : (encodeUtf8 promptText).map Writer.shown = [0x3e, 0x20] := by decide
  have hwrite : writer.writeString promptText = .ok ((writer.put 0x3e).put 0x20) := by
    rw [Writer.writeString_eq, hbytes]
    simp [Writer.writeByte_eq, hcol, Writer.put]
  simp only [afterPrompt, print, hwrite, hbytes, ok_bind, hcol]
  rfl

lemma agrees_afterPrompt {writer : Writer} (hcol : writer.columnPosition = 0) {task : ShellTask}
    (hcmd : task.shell.currentCmd = []) :
    Agrees ⟨(writer.put 0x3e).put 0x20, task, 0⟩ := by
  have hempty : Displays writer 0 [] :=
    { column_le := by omega
      length := by simp [hcol]
      cell := fun i j _ hk => absurd hk (Nat.not_lt_zero _) }
  have hprompt : Displays (writer.put 0x3e) 0 ['>'] := hempty.put (by omega) (by decide)
  have hblank : Displays ((writer.put 0x3e).put 0x20) 0 ['>', ' '] :=
    hprompt.put (by simp [Writer.put, hcol]) (by decide)
  rw [agrees_iff_displays, hcmd, List.append_nil]
  exact hblank

/-- **The prompt line.**  Right after the prompt was printed at column 0 with an empty command line,
the screen shows the prompt and the command line after each of the keys exactly if each backspace
finds a character of the command line in the last row; and if the row was empty, there are only
blanks behind the text. -/
theorem prompt_shows_command_iff (writer : Writer) (hcol : writer.columnPosition = 0)
    (task : ShellTask) (hcmd : task.shell.currentCmd = []) :
    ∃ start, afterPrompt writer task = .ok start ∧
      (∀ keys, machine.Stays Agrees start keys ↔ machine.Along BackspaceInRow start keys) ∧
      ((∀ j, (writer.buffer 24 j).asciiCharacter = 0x20) →
        ∀ keys, ∃ os p₁, machine.run start keys = .ok (os, p₁) ∧ BlankBehind p₁.writer) := by
  refine ⟨_, afterPrompt_eq hcol task, fun keys => ?_, fun hblank keys => ?_⟩
  · exact machine.stays_iff_along (fun _ key h => agrees_handleKey_iff h key)
      (agrees_afterPrompt hcol hcmd) keys
  · have hbehind : BlankBehind writer := fun j _ => hblank j
    obtain ⟨os, p₁, hrun, -, hp₁⟩ := machine.run_invariant
      (I := fun p => p.writer.columnPosition ≤ 80 ∧ BlankBehind p.writer)
      (fun p key hp _ => BlankBehind.step hp.1 hp.2 key)
      ⟨(agrees_afterPrompt hcol hcmd).column_le, (hbehind.put 0x3e).put 0x20⟩
      (machine.along_true _ keys)
    exact ⟨os, p₁, hrun, hp₁⟩

/-- A key that is typed. -/
def typedKey (c : Char) (h : c = '\x08' ∨ 0x20 ≤ c.toNat ∧ c.toNat ≤ 0x7e) : TypedKey :=
  ⟨.unicode c, h⟩

/-- A character and a backspace. -/
theorem prompt_shows_command_one_character :
    ∃ start, afterPrompt Writer.empty ShellTask.start = .ok start ∧
      machine.Stays Agrees start
        [typedKey 'a' (.inr (by decide)), typedKey '\x08' (.inl rfl)] := by
  obtain ⟨start, hstart, hiff, -⟩ :=
    prompt_shows_command_iff Writer.empty rfl ShellTask.start rfl
  rw [afterPrompt_eq rfl, Except.ok.injEq] at hstart
  subst hstart
  refine ⟨_, afterPrompt_eq rfl _, (hiff _).mpr ?_⟩
  have hstep := step_of_handleKey (typedKey 'a' (.inr (by decide)))
    (handleKey_char (p := ⟨(Writer.empty.put 0x3e).put 0x20, ShellTask.start, 0⟩) (c := 'a')
      (by decide) (by decide))
  rw [machine.along_cons_of_step hstep]
  exact ⟨fun h => absurd h (by decide), fun _ => ⟨by decide, by decide⟩, fun _ _ _ => trivial⟩

/-- A backspace on the empty command line deletes the blank of the prompt. -/
theorem backspace_deletes_prompt :
    ∃ start p₁, afterPrompt Writer.empty ShellTask.start = .ok start ∧
      machine.run start [typedKey '\x08' (.inl rfl)] = .ok ([()], p₁) ∧
      p₁.task.shell.currentCmd = [] ∧ p₁.text = ['>'] ∧ ¬ p₁.Agrees := by
  refine ⟨_, _, afterPrompt_eq rfl _, rfl, rfl, by decide, fun h => ?_⟩
  exact absurd h.text_eq (by decide)

end Prompt

end SilOS.Screen
