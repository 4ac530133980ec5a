/-
# The cursor of the editor and character boundaries

`cursor_x` is a byte index that the methods step by one.  What they do is computed here on an
editor that is given around its cursor; from that it follows when a step keeps the cursor at a
character boundary.  A step that leaves the boundaries is the last one that can be relied on:
the next insertion or deletion at such a cursor stops the program.
-/
import SilOS.Editor.Model

namespace SilOS.Editor

open Lib

variable {e : Editor} {pre post : List (List Char)} {a b l : List Char} {c : Char}

/-! ### The operations around the cursor -/

@[simp] lemma line_append_cons (pre : List (List Char)) (l : List Char)
    (post : List (List Char)) : line (pre ++ l :: post) pre.length = .ok l := by
  simp [line]

@[simp] lemma splitOff_append (a b : List Char) :
    splitOff (a ++ b) (byteLen a) = .ok (a, b) := by
  simp [splitOff, splitAtByte_append]

lemma splitOff_of_not_isBoundary {i : ℕ} (h : ¬ IsBoundary l i) :
    splitOff l i = .error .panic := by
  simp [splitOff, not_isBoundary.mp h]

lemma insertIdx_length_succ (pre : List (List Char)) (a b : List Char)
    (post : List (List Char)) :
    (pre ++ a :: post).insertIdx (pre.length + 1) b = pre ++ a :: b :: post := by
  induction pre with
  | nil => simp
  | cons l pre ih => simp [ih]

lemma insertNewline_place :
    (place pre a b post).insertNewline = .ok (place (pre ++ [a]) [] b post) := by
  simp [insertNewline, place, insertIdx_length_succ, pure, Except.pure]

lemma insertChar_place (hc : c ≠ '\n') :
    (place pre a b post).insertChar c =
      .ok ⟨pre ++ (a ++ c :: b) :: post, byteLen a + 1, pre.length⟩ := by
  simp [insertChar, hc, place, pure, Except.pure]

lemma byteLen_pos (ha : a ≠ []) : 0 < byteLen a :=
  Nat.pos_of_ne_zero fun h => ha (byteLen_eq_zero.mp h)

/-- Deleting inside a line, where the index before the cursor is the end of `a`. -/
lemma backspace_place (h : byteLen (a ++ [c]) = byteLen a + 1) :
    (place pre (a ++ [c]) b post).backspace = .ok (place pre a b post) := by
  have hx : 0 < byteLen (a ++ [c]) := by omega
  have hsplit : splitOff (a ++ c :: b) (byteLen (a ++ [c]) - 1) = .ok (a, c :: b) := by
    rw [h, Nat.add_sub_cancel, splitOff_append]
  have hline : a ++ [c] ++ b = a ++ c :: b := by simp
  simp only [backspace, place, if_pos hx, line_append_cons, ok_bind, removeAt, hline, hsplit,
    pure, Except.pure]
  simp [h]

/-- Deleting a longer character stops the program: its last byte is not where it starts. -/
lemma backspace_place_panics (hc : c.utf8Size ≠ 1) :
    (place pre (a ++ [c]) b post).backspace = .error .panic := by
  have hx : 0 < byteLen (a ++ [c]) := byteLen_pos (by simp)
  have hnot : ¬ IsBoundary (a ++ c :: b) (byteLen (a ++ [c]) - 1) :=
    fun h => hc (isBoundary_pred_iff.mp h)
  have hline : a ++ [c] ++ b = a ++ c :: b := by simp
  simp only [backspace, place, if_pos hx, line_append_cons, ok_bind, removeAt, hline,
    splitOff_of_not_isBoundary hnot, error_bind]

/-- Deleting at the start of a line joins it to the line above. -/
lemma backspace_place_nil :
    (place (pre ++ [l]) [] b post).backspace = .ok (place pre l b post) := by
  have hlines : pre ++ [l] ++ ([] ++ b) :: post = pre ++ l :: b :: post := by simp
  have hcur : line (pre ++ l :: b :: post) (pre.length + 1) = .ok b := by simp [line]
  have herase : (pre ++ l :: b :: post).eraseIdx (pre.length + 1) = pre ++ l :: post := by
    rw [List.eraseIdx_append_of_length_le (by omega)]
    simp
  simp only [backspace, place, byteLen_nil, lt_irrefl, if_false, List.length_append,
    List.length_singleton, Nat.succ_pos, if_true, hlines, hcur, ok_bind, herase,
    Nat.add_sub_cancel, line_append_cons, pure, Except.pure]
  simp

lemma moveCursorLeft_place (ha : a ≠ []) :
    (place pre a b post).moveCursorLeft =
      .ok ⟨pre ++ (a ++ b) :: post, byteLen a - 1, pre.length⟩ := by
  simp [moveCursorLeft, place, byteLen_pos ha, pure, Except.pure]

lemma moveCursorLeft_place_nil :
    (place (pre ++ [l]) [] b post).moveCursorLeft = .ok (place pre l [] (b :: post)) := by
  simp [moveCursorLeft, place, pure, Except.pure]

lemma moveCursorRight_place (hb : b ≠ []) :
    (place pre a b post).moveCursorRight =
      .ok ⟨pre ++ (a ++ b) :: post, byteLen a + 1, pre.length⟩ := by
  simp [moveCursorRight, place, byteLen_pos hb, pure, Except.pure]

lemma subW_length (pre : List (List Char)) (l : List Char) (post : List (List Char)) :
    subW (pre ++ l :: post).length 1 = .ok (pre.length + post.length) := by
  rw [subW_eq_ok (by simp; omega)]
  simp

lemma moveCursorRight_place_nil :
    (place pre a [] (l :: post)).moveCursorRight = .ok (place (pre ++ [a]) [] l post) := by
  simp only [moveCursorRight, place, List.append_nil, line_append_cons, ok_bind, lt_irrefl,
    if_false, subW_length]
  simp [pure, Except.pure]

lemma clampTo_eq {y : ℕ} (h : line e.lines y = .ok l) :
    e.clampTo y = .ok ⟨e.lines, min e.cursorX (byteLen l), y⟩ := by
  have hmin : (if byteLen l < e.cursorX then byteLen l else e.cursorX)
      = min e.cursorX (byteLen l) := by
    split_ifs <;> omega
  simp only [clampTo, h, ok_bind, hmin]
  rfl

lemma moveCursorUp_place :
    (place (pre ++ [l]) a b post).moveCursorUp =
      .ok ⟨pre ++ l :: (a ++ b) :: post, min (byteLen a) (byteLen l), pre.length⟩ := by
  have hline : line (place (pre ++ [l]) a b post).lines pre.length = .ok l := by simp [place]
  have hy : (place (pre ++ [l]) a b post).cursorY = pre.length + 1 := by simp [place]
  rw [moveCursorUp, hy, if_pos (Nat.succ_pos _), Nat.add_sub_cancel, clampTo_eq hline]
  simp [place]

lemma moveCursorDown_place :
    (place pre a b (l :: post)).moveCursorDown =
      .ok ⟨pre ++ (a ++ b) :: l :: post, min (byteLen a) (byteLen l), pre.length + 1⟩ := by
  have hline : line (place pre a b (l :: post)).lines (pre.length + 1) = .ok l := by
    simp [place, line]
  have hlast : subW (place pre a b (l :: post)).lines.length 1
      = .ok (pre.length + (l :: post).length) := subW_length pre (a ++ b) (l :: post)
  have hlt : (place pre a b (l :: post)).cursorY < pre.length + (l :: post).length := by
    simp [place]
  rw [moveCursorDown, hlast, ok_bind, if_pos hlt]
  exact clampTo_eq hline

/-! At the ends of the text the operations do nothing. -/

lemma backspace_start : (place [] [] b post).backspace = .ok (place [] [] b post) := rfl

lemma moveCursorLeft_start : (place [] [] b post).moveCursorLeft = .ok (place [] [] b post) := rfl

lemma moveCursorRight_end : (place pre a [] []).moveCursorRight = .ok (place pre a [] []) := by
  simp [moveCursorRight, place, subW, pure, Except.pure]

lemma moveCursorUp_first : (place [] a b post).moveCursorUp = .ok (place [] a b post) := rfl

lemma moveCursorDown_last : (place pre a b []).moveCursorDown = .ok (place pre a b []) := by
  simp [moveCursorDown, place, subW, pure, Except.pure]

/-! ### Which steps keep to the boundaries -/

/-- The step goes from a boundary to a boundary: the index that the cursor is stepped to is one
in the line it is stepped to, and only characters of one byte are inserted. -/
def StepSafe (e : Editor) : Op → Prop
  | .insertChar c => c = '\n' ∨ c.utf8Size = 1
  | .backspace | .left =>
      0 < e.cursorX → ∀ l ∈ e.lines[e.cursorY]?, IsBoundary l (e.cursorX - 1)
  | .right => ∀ l ∈ e.lines[e.cursorY]?, e.cursorX < byteLen l → IsBoundary l (e.cursorX + 1)
  | .up =>
      0 < e.cursorY → ∀ l ∈ e.lines[e.cursorY - 1]?, IsBoundary l (min e.cursorX (byteLen l))
  | .down => ∀ l ∈ e.lines[e.cursorY + 1]?, IsBoundary l (min e.cursorX (byteLen l))

/-- The operation gives a result with the cursor in bounds. -/
def Keeps (e : Editor) (op : Op) : Prop := ∃ e', e.apply op = .ok e' ∧ e'.InBounds

lemma keeps_of_eq {e' : Editor} (op : Op) (h : e.apply op = .ok e') :
    e.Keeps op ↔ e'.InBounds := by
  rw [Keeps, h]
  simp

lemma inBounds_mk {x : ℕ} :
    (⟨pre ++ l :: post, x, pre.length⟩ : Editor).InBounds ↔ IsBoundary l x := by
  simp [InBounds]

lemma keeps_insertChar_iff :
    (place pre a b post).Keeps (.insertChar c) ↔
      (place pre a b post).StepSafe (.insertChar c) := by
  rw [StepSafe]
  by_cases hnl : c = '\n'
  · subst hnl
    rw [keeps_of_eq (.insertChar '\n') insertNewline_place]
    exact iff_of_true inBounds_place (.inl rfl)
  · rw [keeps_of_eq (.insertChar c) (insertChar_place hnl), inBounds_mk, isBoundary_succ_iff,
      or_iff_right hnl]

lemma keeps_backspace_iff :
    (place pre a b post).Keeps .backspace ↔ (place pre a b post).StepSafe .backspace := by
  rcases List.eq_nil_or_concat' a with rfl | ⟨a, c, rfl⟩
  · refine iff_of_true ?_ (fun h => absurd h (by simp [place]))
    rcases List.eq_nil_or_concat' pre with rfl | ⟨pre, l, rfl⟩
    · exact ⟨_, backspace_start, inBounds_place⟩
    · exact ⟨_, backspace_place_nil, inBounds_place⟩
  · have hx : 0 < byteLen (a ++ [c]) := byteLen_pos (by simp)
    have hline : (place pre (a ++ [c]) b post).lines[pre.length]? = some (a ++ c :: b) := by
      simp [place]
    have hsafe : (place pre (a ++ [c]) b post).StepSafe .backspace ↔
        IsBoundary (a ++ c :: b) (byteLen (a ++ [c]) - 1) := by
      refine ⟨fun h => h hx _ hline, fun h _ l hl => ?_⟩
      obtain rfl := Option.some.inj (hline.symm.trans hl)
      exact h
    rw [hsafe]
    by_cases hc : c.utf8Size = 1
    · have hlen : byteLen (a ++ [c]) = byteLen a + 1 := by simp [hc]
      exact iff_of_true ⟨_, backspace_place hlen, inBounds_place⟩ (isBoundary_pred_iff.mpr hc)
    · -- here the step is not only out of bounds, it stops the program
      refine iff_of_false ?_ fun h => hc (isBoundary_pred_iff.mp h)
      rintro ⟨e', he', -⟩
      rw [apply, backspace_place_panics hc] at he'
      exact absurd he' (by simp)

lemma keeps_left_iff :
    (place pre a b post).Keeps .left ↔ (place pre a b post).StepSafe .left := by
  by_cases ha : a = []
  · subst ha
    refine iff_of_true ?_ (fun h => absurd h (by simp [place]))
    rcases List.eq_nil_or_concat' pre with rfl | ⟨pre, l, rfl⟩
    · exact ⟨_, moveCursorLeft_start, inBounds_place⟩
    · exact ⟨_, moveCursorLeft_place_nil, inBounds_place⟩
  · rw [keeps_of_eq .left (moveCursorLeft_place ha), inBounds_mk]
    simp [StepSafe, place, byteLen_pos ha]

lemma keeps_right_iff :
    (place pre a b post).Keeps .right ↔ (place pre a b post).StepSafe .right := by
  by_cases hb : b = []
  · subst hb
    refine iff_of_true ?_ (by simp [StepSafe, place])
    cases post with
    | nil => exact ⟨_, moveCursorRight_end, inBounds_place⟩
    | cons l post => exact ⟨_, moveCursorRight_place_nil, inBounds_place⟩
  · rw [keeps_of_eq .right (moveCursorRight_place hb), inBounds_mk]
    simp [StepSafe, place, byteLen_pos hb]

lemma keeps_up_iff : (place pre a b post).Keeps .up ↔ (place pre a b post).StepSafe .up := by
  rcases List.eq_nil_or_concat' pre with rfl | ⟨pre, l, rfl⟩
  · exact iff_of_true ⟨_, moveCursorUp_first, inBounds_place⟩ (by simp [StepSafe, place])
  · rw [keeps_of_eq .up moveCursorUp_place, inBounds_mk]
    simp [StepSafe, place]

lemma keeps_down_iff :
    (place pre a b post).Keeps .down ↔ (place pre a b post).StepSafe .down := by
  cases post with
  | nil => exact iff_of_true ⟨_, moveCursorDown_last, inBounds_place⟩ (by simp [StepSafe, place])
  | cons l post =>
      rw [keeps_of_eq .down moveCursorDown_place]
      simp [InBounds, StepSafe, place]

/-- From a cursor in bounds, a step gives a result in bounds exactly if it is safe. -/
lemma keeps_iff_stepSafe (h : e.InBounds) (op : Op) : e.Keeps op ↔ e.StepSafe op := by
  obtain ⟨pre, a, b, post, rfl⟩ := inBounds_iff_place.mp h
  cases op with
  | insertChar c => exact keeps_insertChar_iff
  | backspace => exact keeps_backspace_iff
  | left => exact keeps_left_iff
  | right => exact keeps_right_iff
  | up => exact keeps_up_iff
  | down => exact keeps_down_iff

/-- **When the editor cannot be crashed.**  Whatever bytes a file has, in a run of operations on
it the cursor stays at a character boundary of an existing line and no operation stops the
program, exactly if every step of the run is safe. -/
theorem cursor_stays_iff (fileBytes : List UInt8) (ops : List Op) :
    machine.Stays InBounds (load fileBytes) ops ↔
      machine.Along StepSafe (load fileBytes) ops := by
  refine machine.stays_iff_along (fun e op he => ?_) (inBounds_new _) ops
  rw [← keeps_iff_stepSafe he op]
  constructor
  · rintro ⟨o, e', hstep, he'⟩
    exact ⟨e', step_eq_ok.mp hstep, he'⟩
  · rintro ⟨e', happly, he'⟩
    exact ⟨(), e', step_eq_ok.mpr happly, he'⟩

/-- A file with the two bytes of one character: a move to the right puts the cursor between
them, and the next character typed stops the program. -/
theorem cursor_leaves_boundary :
    ¬ machine.Stays InBounds (load [0xC3, 0xA9]) [.right] ∧
      machine.run (load [0xC3, 0xA9]) [.right, .insertChar 'x'] = .error .panic := by
  have hload : load [0xC3, 0xA9] = ⟨[['é']], 0, 0⟩ := by decide
  refine ⟨?_, by decide⟩
  rw [hload]
  rintro ⟨-, o, e', hstep, l, hl, hx⟩
  have happly : (⟨[['é']], 0, 0⟩ : Editor).apply .right = .ok ⟨[['é']], 1, 0⟩ := by decide
  rw [step_eq_ok, happly, Except.ok.injEq] at hstep
  subst hstep
  obtain rfl : ['é'] = l := by simpa using hl
  exact absurd hx (by decide)

end SilOS.Editor
