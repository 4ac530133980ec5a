/-
# What the editor shows

`Editor::draw` clears the screen and writes the lines of the text from the upper left corner on,
character by character; what does not fit is dropped.  The drawing is an overlay: every cell for
which the text has a character gets it, and all others keep what they have after clearing.  Clearing
leaves out the last row, so there an older character shows through wherever the text has none.
-/
import SilOS.Editor.Model
import SilOS.Screen.Writer

namespace SilOS

open Lib Screen

/-- `VgaTerminal`: the screen and the two bytes of the cursor position in the VGA registers. -/
structure VgaTerminal where
  writer : Writer
  cursorLow : UInt8
  cursorHigh : UInt8

namespace VgaTerminal

/-- `VgaTerminal::clear_screen`. -/
def clearScreen (t : VgaTerminal) : Except Fault VgaTerminal := do
  return { t with writer := ← t.writer.clear }

/-- `VgaTerminal::put_char`. -/
def putChar (t : VgaTerminal) (x y : ℕ) (c : Char) : Except Fault VgaTerminal := do
  return { t with writer := ← t.writer.writeCharAt x y (UInt8.ofNat c.toNat) 0x0F }

/-- `update_cursor`. -/
def moveCursor (t : VgaTerminal) (x y : ℕ) : Except Fault VgaTerminal := do
  let row ← mulW 64 y bufferWidth
  let pos ← addW 64 row x
  return { t with
    cursorLow := UInt8.ofNat (pos % 256)
    cursorHigh := UInt8.ofNat (pos / 256 % 256) }

/-- The inner loop of `Editor::draw`, on the line `y`. -/
def drawLine (t : VgaTerminal) (y : ℕ) (line : List (Char × ℕ)) : Except Fault VgaTerminal :=
  line.foldlM (fun t p => t.putChar p.2 y p.1) t

/-- The outer loop of `Editor::draw`. -/
def drawLines (t : VgaTerminal) (lines : List (List Char × ℕ)) : Except Fault VgaTerminal :=
  lines.foldlM (fun t p => t.drawLine p.2 p.1.zipIdx) t

end VgaTerminal

/-- `Editor::draw`. -/
def Editor.draw (e : Editor) (t : VgaTerminal) : Except Fault VgaTerminal := do
  let t ← t.clearScreen
  let t ← t.drawLines e.lines.zipIdx
  t.moveCursor e.cursorX e.cursorY

/-! ### Overlays -/

/-- The cell that `put_char` writes. -/
def charCell (c : Char) : ScreenChar := ⟨UInt8.ofNat c.toNat, 0x0F⟩

/-- The screen with the characters of `f` over it. -/
def overlay (b : Screen.Buffer) (f : ℕ → ℕ → Option Char) : Screen.Buffer := fun i j =>
  ((f i j).map charCell).getD (b i j)

lemma overlay_overlay (b : Screen.Buffer) (f g : ℕ → ℕ → Option Char) :
    overlay (overlay b f) g = overlay b fun i j => (g i j).or (f i j) := by
  funext i j
  cases hg : g i j <;> simp [overlay, hg]

namespace VgaTerminal

variable {t : VgaTerminal}

/-- The terminal with another screen. -/
def withBuffer (t : VgaTerminal) (b : Screen.Buffer) : VgaTerminal :=
  { t with writer := { t.writer with buffer := b } }

/-- Off the screen nothing is written, and an overlay has no cell to change. -/
lemma putChar_eq (t : VgaTerminal) (x y : ℕ) (c : Char) :
    t.putChar x y c = .ok (t.withBuffer
      (overlay t.writer.buffer fun i j => if i = y ∧ j = x then some c else none)) := by
  have hset : t.writer.buffer.set y x (charCell c) =
      overlay t.writer.buffer fun i j => if i = y ∧ j = x then some c else none := by
    funext i j
    rw [Screen.Buffer.set, overlay]
    split_ifs <;> rfl
  rw [putChar, Writer.writeCharAt, ← hset]
  split_ifs with hin
  · rw [Screen.Buffer.write_eq hin.2 hin.1]
    rfl
  · have hkeep : t.writer.buffer.set y x (charCell c) = t.writer.buffer := by
      funext i j
      have hne : ¬ (i.val = y ∧ j.val = x) := by
        rintro ⟨rfl, rfl⟩
        exact hin ⟨j.isLt, i.isLt⟩
      rw [Screen.Buffer.set, if_neg hne]
    rw [hkeep]
    rfl

/-- The characters from the column `k` on. -/
lemma drawLine_eq (t : VgaTerminal) (y k : ℕ) (l : List Char) :
    t.drawLine y (l.zipIdx k) = .ok (t.withBuffer (overlay t.writer.buffer
      fun i j => if i = y ∧ k ≤ j then l[j - k]? else none)) := by
  induction l generalizing t k with
  | nil =>
      have hnone : (overlay t.writer.buffer
          fun i j => if i = y ∧ k ≤ j then ([] : List Char)[j - k]? else none) =
          t.writer.buffer := by
        funext i j
        simp [overlay]
      rw [hnone]
      rfl
  | cons c l ih =>
      rw [drawLine, List.zipIdx_cons, List.foldlM_cons, putChar_eq, ok_bind]
      refine (ih _ (k + 1)).trans ?_
      simp only [withBuffer, overlay_overlay]
      congr 4
      funext i j
      by_cases hi : i = y
      · rcases Nat.lt_trichotomy j k with hj | rfl | hj
        · simp [hj.not_ge, hj.ne, Nat.not_le_of_lt (Nat.lt_succ_of_lt hj)]
        · simp [hi]
        · have hsub : j - k = j - (k + 1) + 1 := by omega
          simp [hi, hj.le, hj.ne', Nat.succ_le_of_lt hj, hsub]
      · simp [hi]

/-- The character of the text at a cell. -/
def charAt (lines : List (List Char)) (y x : ℕ) : Option Char := lines[y]?.bind (·[x]?)

/-- The lines from the row `k` on. -/
lemma drawLines_eq (t : VgaTerminal) (k : ℕ) (lines : List (List Char)) :
    t.drawLines (lines.zipIdx k) = .ok (t.withBuffer (overlay t.writer.buffer
      fun i j => if k ≤ i then charAt lines (i - k) j else none)) := by
  induction lines generalizing t k with
  | nil =>
      have hnone : (overlay t.writer.buffer
          fun i j => if k ≤ i then charAt [] (i - k) j else none) = t.writer.buffer := by
        funext i j
        simp [overlay, charAt]
      rw [hnone]
      rfl
  | cons line lines ih =>
      rw [drawLines, List.zipIdx_cons, List.foldlM_cons, drawLine_eq, ok_bind]
      refine (ih _ (k + 1)).trans ?_
      simp only [withBuffer, overlay_overlay]
      congr 4
      funext i j
      rcases Nat.lt_trichotomy i k with hi | rfl | hi
      · simp [hi.not_ge, hi.ne, Nat.not_le_of_lt (Nat.lt_succ_of_lt hi)]
      · simp [charAt]
      · have hsub : i - k = i - (k + 1) + 1 := by omega
        simp [hi.le, hi.ne', Nat.succ_le_of_lt hi, hsub, charAt]

/-- The cursor is moved unless its position is beyond the machine's numbers; the screen stays. -/
lemma exists_moveCursor_iff {x y : ℕ} :
    (∃ t', t.moveCursor x y = .ok t') ↔ y * 80 + x < 2 ^ 64 := by
  constructor
  · rintro ⟨t', h⟩
    rw [moveCursor] at h
    obtain ⟨row, hrow, h⟩ := bind_eq_ok.mp h
    obtain ⟨pos, hpos, -⟩ := bind_eq_ok.mp h
    obtain ⟨rfl, -⟩ := of_fit_eq_ok hrow
    exact (of_fit_eq_ok hpos).2
  · intro h
    have hrow : y * bufferWidth < 2 ^ 64 := (Nat.le_add_right _ _).trans_lt h
    rw [moveCursor, mulW_eq_ok hrow, ok_bind, addW_eq_ok h, ok_bind]
    exact ⟨_, rfl⟩

lemma writer_of_moveCursor {t' : VgaTerminal} {x y : ℕ} (h : t.moveCursor x y = .ok t') :
    t'.writer = t.writer := by
  rw [moveCursor] at h
  obtain ⟨row, -, h⟩ := bind_eq_ok.mp h
  obtain ⟨pos, -, h⟩ := bind_eq_ok.mp h
  obtain rfl := Except.ok.inj h
  rfl

end VgaTerminal

/-! ### The screen after drawing -/

namespace Editor

open VgaTerminal

variable {e e₂ : Editor} {t t' u u' : VgaTerminal}

/-- The character that the text has for a cell, as a byte, and a blank where it has none. -/
def textByte (lines : List (List Char)) (y x : ℕ) : UInt8 :=
  ((charAt lines y x).map fun c => UInt8.ofNat c.toNat).getD 0x20

lemma textByte_of_none {lines : List (List Char)} {y x : ℕ} (h : charAt lines y x = none) :
    textByte lines y x = 0x20 := by
  rw [textByte, h]
  rfl

lemma draw_eq (e : Editor) (t : VgaTerminal) :
    e.draw t = (t.withBuffer (overlay (t.writer.cleared 24) (charAt e.lines))).moveCursor
      e.cursorX e.cursorY := by
  have hclear : t.clearScreen = .ok (t.withBuffer (t.writer.cleared 24)) := by
    rw [clearScreen, Writer.clear_eq]
    rfl
  have hlines := drawLines_eq (t.withBuffer (t.writer.cleared 24)) 0 e.lines
  simp only [Nat.zero_le, if_true, Nat.sub_zero] at hlines
  rw [draw, hclear, ok_bind, hlines, ok_bind]
  rfl

/-- A cell after drawing: the text, and where there is none a blank or, in the last row, what was
there before. -/
lemma asciiCharacter_of_draw (h : e.draw t = .ok t') (i : Fin bufferHeight) (j : Fin bufferWidth) :
    (t'.writer.buffer i j).asciiCharacter =
      if i.val < 24 ∨ charAt e.lines i j ≠ none then textByte e.lines i j
      else (t.writer.buffer i j).asciiCharacter := by
  rw [draw_eq] at h
  rw [writer_of_moveCursor h, textByte]
  cases hchar : charAt e.lines i j with
  | some c => simp [withBuffer, overlay, hchar, charCell]
  | none =>
      by_cases hi : i.val < 24
      · simp [withBuffer, overlay, hchar, Writer.cleared, hi, Writer.blank]
      · simp [withBuffer, overlay, hchar, Writer.cleared, hi]

lemma asciiCharacter_of_draw_last (h : e.draw t = .ok t') {j : Fin bufferWidth}
    (hj : charAt e.lines 24 j = none) :
    (t'.writer.buffer (Fin.last 24) j).asciiCharacter =
      (t.writer.buffer (Fin.last 24) j).asciiCharacter := by
  rw [asciiCharacter_of_draw h, if_neg]
  simpa using hj

/-- Outside the open cells of the last row, only the text decides. -/
lemma eq_last_of_open {i : Fin bufferHeight} {j : Fin bufferWidth}
    (h : ¬ (i.val < 24 ∨ charAt e.lines i j ≠ none)) :
    i = Fin.last 24 ∧ charAt e.lines 24 j = none := by
  rw [not_or, not_not] at h
  have hi : i.val = 24 := by
    have hlt : i.val < 25 := i.isLt
    omega
  exact ⟨Fin.ext hi, hi ▸ h.2⟩

/-- **What the editor shows.**  Drawing gives a result exactly if the position of the cursor is one
of the machine's numbers.  Then every cell of the screen shows the character that the text has for
it, and a blank where it has none, exactly if every cell of the last row for which the text has no
character was blank before; and the screens after drawing the same text twice show the same exactly
if the screens before agreed in these cells. -/
theorem draw_shows_text_iff (e : Editor) (t : VgaTerminal) :
    ((∃ t', e.draw t = .ok t') ↔ e.cursorY * 80 + e.cursorX < 2 ^ 64) ∧
    ∀ t', e.draw t = .ok t' →
      ((∀ (i : Fin bufferHeight) (j : Fin bufferWidth),
          (t'.writer.buffer i j).asciiCharacter = textByte e.lines i j) ↔
        ∀ j : Fin bufferWidth, charAt e.lines 24 j = none →
          (t.writer.buffer (Fin.last 24) j).asciiCharacter = 0x20) ∧
      ∀ (e₂ : Editor) (u u' : VgaTerminal), e₂.lines = e.lines → e₂.draw u = .ok u' →
        ((∀ (i : Fin bufferHeight) (j : Fin bufferWidth),
            (t'.writer.buffer i j).asciiCharacter = (u'.writer.buffer i j).asciiCharacter) ↔
          ∀ j : Fin bufferWidth, charAt e.lines 24 j = none →
            (t.writer.buffer (Fin.last 24) j).asciiCharacter =
              (u.writer.buffer (Fin.last 24) j).asciiCharacter) := by
  refine ⟨?_, fun t' ht => ⟨⟨fun h j hj => ?_, fun h i j => ?_⟩,
    fun e₂ u u' hlines hu => ⟨fun h j hj => ?_, fun h i j => ?_⟩⟩⟩
  · rw [draw_eq]
    exact exists_moveCursor_iff
  · rw [← asciiCharacter_of_draw_last ht hj, h]
    exact textByte_of_none hj
  · rw [asciiCharacter_of_draw ht]
    split_ifs with hopen
    · rfl
    · obtain ⟨rfl, hj⟩ := eq_last_of_open hopen
      rw [h j hj]
      exact (textByte_of_none hj).symm
  · rw [← asciiCharacter_of_draw_last ht hj, h, asciiCharacter_of_draw_last hu (hlines ▸ hj)]
  · rw [asciiCharacter_of_draw ht, asciiCharacter_of_draw hu, hlines]
    split_ifs with hopen
    · rfl
    · obtain ⟨rfl, hj⟩ := eq_last_of_open hopen
      exact h j hj

/-- An empty text drawn over a screen full of `>`: the last row is still full of them. -/
theorem draw_leaves_last_row :
    let full : VgaTerminal := ⟨⟨0, 0x02, fun _ _ => ⟨0x3e, 0x02⟩⟩, 0, 0⟩
    ∃ t', (Editor.new []).draw full = .ok t' ∧
      ∀ j, (t'.writer.buffer (Fin.last 24) j).asciiCharacter = 0x3e ∧
        textByte (Editor.new []).lines 24 j = 0x20 := by
  intro full
  obtain ⟨t', ht⟩ : ∃ t', (Editor.new []).draw full = .ok t' := by
    rw [draw_eq]
    exact exists_moveCursor_iff.mpr (by decide)
  refine ⟨t', ht, fun j => ?_⟩
  have hnone : charAt (Editor.new []).lines 24 j = none := rfl
  exact ⟨asciiCharacter_of_draw_last ht hnone, textByte_of_none hnone⟩

end Editor

end SilOS
