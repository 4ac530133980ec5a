/-
# The editor as a flat text buffer

What the editor is for: one text with a point in it.  Insertion and deletion act at the point,
left and right move it by one, up and down move it to the neighbouring line of the text.  On
text of one-byte characters the editor with its vector of lines does exactly this, as long as a
run may be.
-/
import SilOS.Editor.Cursor

namespace SilOS

open Lib

/-- A text and a point in it, the number of characters before it. -/
structure Buffer where
  text : List Char
  point : ℕ
deriving DecidableEq, Repr

namespace Buffer

/-- Insert a character at the point. -/
def insert (t : Buffer) (c : Char) : Buffer :=
  ⟨t.text.take t.point ++ c :: t.text.drop t.point, t.point + 1⟩

/-- Delete the character before the point. -/
def backspace (t : Buffer) : Buffer :=
  if t.point = 0 then t else ⟨t.text.eraseIdx (t.point - 1), t.point - 1⟩

def left (t : Buffer) : Buffer := ⟨t.text, t.point - 1⟩

def right (t : Buffer) : Buffer := ⟨t.text, min (t.point + 1) t.text.length⟩

def lines (t : Buffer) : List (List Char) := t.text.splitOn '\n'

def row (t : Buffer) : ℕ := Lib.row '\n' (t.text.take t.point)

def column (t : Buffer) : ℕ := Lib.column '\n' (t.text.take t.point)

/-- Move to the line `y`, to the same column or to the end of a shorter line. -/
def toLine (t : Buffer) (y : ℕ) : Buffer :=
  ⟨t.text, lineStart t.lines y + min t.column (t.lines.getD y []).length⟩

def up (t : Buffer) : Buffer := if t.row = 0 then t else t.toLine (t.row - 1)

def down (t : Buffer) : Buffer := if t.row + 1 < t.lines.length then t.toLine (t.row + 1) else t

/-- What an operation is for. -/
def apply (t : Buffer) : Editor.Op → Buffer
  | .insertChar c => t.insert c
  | .backspace => t.backspace
  | .left => t.left
  | .right => t.right
  | .up => t.up
  | .down => t.down

/-- The buffer with `u` before the point and `v` after it. -/
def around (u v : List Char) : Buffer := ⟨u ++ v, u.length⟩

variable {u v : List Char} {c : Char}

lemma insert_around : (around u v).insert c = around (u ++ [c]) v := by
  simp [insert, around]

lemma backspace_around : (around (u ++ [c]) v).backspace = around u v := by
  have herase : (u ++ c :: v).eraseIdx u.length = u ++ v := by
    rw [List.eraseIdx_append_of_length_le le_rfl]
    simp
  simp [backspace, around, herase]

lemma left_around : (around (u ++ [c]) v).left = around u (c :: v) := by
  simp [left, around]

lemma right_around : (around u (c :: v)).right = around (u ++ [c]) v := by
  simp [right, around]

end Buffer

namespace Editor

/-- The flat text of the editor and the offset of its cursor. -/
def flatten (e : Editor) : Buffer :=
  ⟨['\n'].intercalate e.lines, lineStart e.lines e.cursorY + e.cursorX⟩

/-- A line of one-byte characters. -/
def PlainLine (l : List Char) : Prop := ∀ c ∈ l, c.utf8Size = 1 ∧ c ≠ '\n'

/-- The cursor is in bounds and all lines are plain. -/
def Tidy (e : Editor) : Prop := e.InBounds ∧ ∀ l ∈ e.lines, PlainLine l

variable {e : Editor} {pre post : List (List Char)} {a b l : List Char} {c : Char}

lemma plainLine_append : PlainLine (a ++ b) ↔ PlainLine a ∧ PlainLine b :=
  List.forall_mem_append

lemma plainLine_cons : PlainLine (c :: a) ↔ (c.utf8Size = 1 ∧ c ≠ '\n') ∧ PlainLine a :=
  List.forall_mem_cons

lemma plainLine_nil : PlainLine [] := by simp [PlainLine]

lemma PlainLine.newline_notMem (h : PlainLine l) : '\n' ∉ l := fun hmem => (h _ hmem).2 rfl

lemma PlainLine.byteLen (h : PlainLine l) : Lib.byteLen l = l.length :=
  byteLen_eq_length fun c hc => (h c hc).1

lemma tidy_place_iff : (place pre a b post).Tidy ↔
    (∀ l ∈ pre, PlainLine l) ∧ PlainLine a ∧ PlainLine b ∧ ∀ l ∈ post, PlainLine l := by
  rw [Tidy, and_iff_right inBounds_place]
  simp only [place, List.forall_mem_append, List.forall_mem_cons, plainLine_append, and_assoc]

lemma Tidy.exists_place (h : e.Tidy) : ∃ pre a b post, e = place pre a b post :=
  inBounds_iff_place.mp h.1

/-- In a plain line every index up to its length is a place for the cursor. -/
lemma eq_place_take {x : ℕ} (hl : PlainLine l) (hx : x ≤ l.length) :
    (⟨pre ++ l :: post, x, pre.length⟩ : Editor) = place pre (l.take x) (l.drop x) post := by
  have htake : PlainLine (l.take x) := fun c hc => hl c (List.mem_of_mem_take hc)
  simp only [place, List.take_append_drop, htake.byteLen, List.length_take, min_eq_left hx]

lemma flatten_place (ha : PlainLine a) :
    (place pre a b post).flatten
      = .around (closeLines '\n' pre ++ a) (b ++ openLines '\n' post) := by
  simp only [flatten, place, Buffer.around, intercalate_append_cons, ha.byteLen,
    lineStart_append '\n', List.length_append, List.append_assoc]

/-! ### Rows and columns of the flat text -/

lemma take_around (u v : List Char) :
    (Buffer.around u v).text.take (Buffer.around u v).point = u := by
  simp [Buffer.around]

lemma row_flatten (h : (place pre a b post).Tidy) :
    (place pre a b post).flatten.row = pre.length := by
  obtain ⟨hpre, ha, -, -⟩ := tidy_place_iff.mp h
  rw [Buffer.row, flatten_place ha, take_around,
    row_closeLines_append (fun l hl => (hpre l hl).newline_notMem) ha.newline_notMem]

lemma column_flatten (ha : PlainLine a) : (place pre a b post).flatten.column = a.length := by
  rw [Buffer.column, flatten_place ha, take_around,
    column_closeLines_append pre ha.newline_notMem]

lemma Tidy.lines_flatten (h : e.Tidy) : e.flatten.lines = e.lines := by
  obtain ⟨pre, a, b, post, rfl⟩ := h.exists_place
  exact List.splitOn_intercalate '\n' (fun l hl => (h.2 l hl).newline_notMem) (by simp [place])

/-- Moving to another line in the flat text is clamping the cursor to it. -/
lemma Tidy.toLine_flatten {x : ℕ} (h : e.Tidy) (hx : e.flatten.column = x)
    (hlines : e.lines = pre ++ l :: post) :
    e.flatten.toLine pre.length
      = (⟨pre ++ l :: post, min x (Lib.byteLen l), pre.length⟩ : Editor).flatten := by
  have hl : PlainLine l := h.2 l (by rw [hlines]; simp)
  simp only [Buffer.toLine, h.lines_flatten, hx, hlines, hl.byteLen]
  simp [flatten, hlines]

lemma Tidy.clamped {x : ℕ} (h : e.Tidy) (hlines : e.lines = pre ++ l :: post) :
    (⟨pre ++ l :: post, min x (Lib.byteLen l), pre.length⟩ : Editor).Tidy := by
  have hl : PlainLine l := h.2 l (by rw [hlines]; simp)
  refine ⟨?_, fun l' hl' => h.2 l' (by rw [hlines]; exact hl')⟩
  rw [eq_place_take hl (by rw [hl.byteLen]; omega)]
  exact inBounds_place

/-! ### One operation -/

/-- The operation gives a result in which the editor is tidy again and shows what the
operation is for. -/
def Implements (e : Editor) (op : Op) : Prop :=
  ∃ e', e.apply op = .ok e' ∧ e'.Tidy ∧ e'.flatten = e.flatten.apply op

lemma implements_insertChar (h : (place pre a b post).Tidy) (hc : c.utf8Size = 1) :
    (place pre a b post).Implements (.insertChar c) := by
  obtain ⟨hpre, ha, hb, hpost⟩ := tidy_place_iff.mp h
  by_cases hnl : c = '\n'
  · -- the rest of the line becomes a line of its own
    subst hnl
    refine ⟨place (pre ++ [a]) [] b post, insertNewline_place, ?_, ?_⟩
    · rw [tidy_place_iff]
      exact ⟨List.forall_mem_append.mpr ⟨hpre, by simpa using ha⟩, plainLine_nil, hb, hpost⟩
    · rw [flatten_place plainLine_nil, flatten_place ha, Buffer.apply, Buffer.insert_around,
        closeLines_append_singleton, List.append_nil]
  · have hac : PlainLine (a ++ [c]) :=
      plainLine_append.mpr ⟨ha, plainLine_cons.mpr ⟨⟨hc, hnl⟩, plainLine_nil⟩⟩
    refine ⟨place pre (a ++ [c]) b post, ?_, tidy_place_iff.mpr ⟨hpre, hac, hb, hpost⟩, ?_⟩
    · rw [apply, insertChar_place hnl]
      simp [place, hc]
    · rw [flatten_place hac, flatten_place ha, Buffer.apply, Buffer.insert_around,
        List.append_assoc]

lemma implements_backspace (h : (place pre a b post).Tidy) :
    (place pre a b post).Implements .backspace := by
  obtain ⟨hpre, ha, hb, hpost⟩ := tidy_place_iff.mp h
  rcases List.eq_nil_or_concat' a with rfl | ⟨a, c, rfl⟩
  · rcases List.eq_nil_or_concat' pre with rfl | ⟨pre, l, rfl⟩
    · -- at the start of the text nothing is deleted
      exact ⟨_, backspace_start, h, by rw [flatten_place ha]; rfl⟩
    · have hl : PlainLine l := hpre l (by simp)
      -- the character before the point is the line break
      refine ⟨place pre l b post, backspace_place_nil, ?_, ?_⟩
      · exact tidy_place_iff.mpr ⟨fun l' hl' => hpre l' (by simp [hl']), hl, hb, hpost⟩
      · rw [flatten_place hl, flatten_place ha, Buffer.apply, List.append_nil,
          closeLines_append_singleton, Buffer.backspace_around]
  · obtain ⟨ha', hc⟩ := plainLine_append.mp ha
    have hlen : Lib.byteLen (a ++ [c]) = Lib.byteLen a + 1 := by
      simp [(plainLine_cons.mp hc).1.1]
    refine ⟨place pre a b post, backspace_place hlen, ?_, ?_⟩
    · exact tidy_place_iff.mpr ⟨hpre, ha', hb, hpost⟩
    · rw [flatten_place ha', flatten_place ha, Buffer.apply, ← List.append_assoc,
        Buffer.backspace_around]

lemma implements_left (h : (place pre a b post).Tidy) :
    (place pre a b post).Implements .left := by
  obtain ⟨hpre, ha, hb, hpost⟩ := tidy_place_iff.mp h
  rcases List.eq_nil_or_concat' a with rfl | ⟨a, c, rfl⟩
  · rcases List.eq_nil_or_concat' pre with rfl | ⟨pre, l, rfl⟩
    · exact ⟨_, moveCursorLeft_start, h, by rw [flatten_place ha]; rfl⟩
    · have hl : PlainLine l := hpre l (by simp)
      refine ⟨place pre l [] (b :: post), moveCursorLeft_place_nil, ?_, ?_⟩
      · refine tidy_place_iff.mpr ⟨fun l' hl' => hpre l' (by simp [hl']), hl, plainLine_nil, ?_⟩
        exact List.forall_mem_cons.mpr ⟨hb, hpost⟩
      · rw [flatten_place hl, flatten_place ha, Buffer.apply, List.append_nil,
          closeLines_append_singleton, Buffer.left_around, List.nil_append, openLines_cons]
  · obtain ⟨ha', hc⟩ := plainLine_append.mp ha
    have hsize := (plainLine_cons.mp hc).1
    refine ⟨place pre a (c :: b) post, ?_, ?_, ?_⟩
    · rw [apply, moveCursorLeft_place (by simp)]
      simp [place, hsize.1]
    · exact tidy_place_iff.mpr ⟨hpre, ha', plainLine_cons.mpr ⟨hsize, hb⟩, hpost⟩
    · rw [flatten_place ha', flatten_place ha, Buffer.apply, ← List.append_assoc,
        Buffer.left_around, List.cons_append]

lemma implements_right (h : (place pre a b post).Tidy) :
    (place pre a b post).Implements .right := by
  obtain ⟨hpre, ha, hb, hpost⟩ := tidy_place_iff.mp h
  cases b with
  | nil =>
      cases post with
      | nil =>
          refine ⟨_, moveCursorRight_end, h, ?_⟩
          rw [flatten_place ha]
          simp [Buffer.apply, Buffer.right, Buffer.around]
      | cons l post =>
          obtain ⟨hl, hpost'⟩ := List.forall_mem_cons.mp hpost
          refine ⟨place (pre ++ [a]) [] l post, moveCursorRight_place_nil, ?_, ?_⟩
          · rw [tidy_place_iff]
            exact ⟨List.forall_mem_append.mpr ⟨hpre, by simpa using ha⟩, plainLine_nil, hl, hpost'⟩
          · rw [flatten_place plainLine_nil, flatten_place ha, Buffer.apply, List.nil_append,
              openLines_cons, Buffer.right_around, closeLines_append_singleton, List.append_nil]
  | cons c b =>
      obtain ⟨hc, hb'⟩ := plainLine_cons.mp hb
      have hac : PlainLine (a ++ [c]) :=
        plainLine_append.mpr ⟨ha, plainLine_cons.mpr ⟨hc, plainLine_nil⟩⟩
      refine ⟨place pre (a ++ [c]) b post, ?_, tidy_place_iff.mpr ⟨hpre, hac, hb', hpost⟩, ?_⟩
      · rw [apply, moveCursorRight_place (by simp)]
        simp [place, hc.1]
      · rw [flatten_place hac, flatten_place ha, Buffer.apply, List.cons_append,
          Buffer.right_around, List.append_assoc]

lemma implements_up (h : (place pre a b post).Tidy) : (place pre a b post).Implements .up := by
  have ha := (tidy_place_iff.mp h).2.1
  rcases List.eq_nil_or_concat' pre with rfl | ⟨pre, l, rfl⟩
  · refine ⟨_, moveCursorUp_first, h, ?_⟩
    rw [Buffer.apply, Buffer.up, row_flatten h, List.length_nil, if_pos rfl]
  · have hlines : (place (pre ++ [l]) a b post).lines = pre ++ l :: (a ++ b) :: post := by
      simp [place]
    have hx : (place (pre ++ [l]) a b post).flatten.column = Lib.byteLen a := by
      rw [column_flatten ha, ha.byteLen]
    refine ⟨_, moveCursorUp_place, h.clamped hlines, ?_⟩
    rw [Buffer.apply, Buffer.up, row_flatten h, List.length_append, List.length_singleton,
      if_neg (Nat.succ_ne_zero _), Nat.add_sub_cancel, h.toLine_flatten hx hlines]

lemma implements_down (h : (place pre a b post).Tidy) :
    (place pre a b post).Implements .down := by
  have ha := (tidy_place_iff.mp h).2.1
  cases post with
  | nil =>
      refine ⟨_, moveCursorDown_last, h, ?_⟩
      rw [Buffer.apply, Buffer.down, row_flatten h, h.lines_flatten, if_neg (by simp [place])]
  | cons l post =>
      have hlines : (place pre a b (l :: post)).lines = (pre ++ [a ++ b]) ++ l :: post := by
        simp [place]
      have hx : (place pre a b (l :: post)).flatten.column = Lib.byteLen a := by
        rw [column_flatten ha, ha.byteLen]
      have hy : (pre ++ [a ++ b]).length = pre.length + 1 := by simp
      -- seen from the line below, the current line is the last one above
      have hto := h.toLine_flatten hx hlines
      have htidy := h.clamped (x := Lib.byteLen a) hlines
      rw [hy, List.append_assoc, List.singleton_append] at hto htidy
      refine ⟨_, moveCursorDown_place, htidy, ?_⟩
      rw [Buffer.apply, Buffer.down, row_flatten h, h.lines_flatten, if_pos (by simp [place]),
        hto]

/-- The characters of one byte. -/
def IsAscii (c : Char) : Prop := c.toNat < 128

instance : DecidablePred IsAscii := fun c => inferInstanceAs (Decidable (c.toNat < 128))

lemma IsAscii.utf8Size (h : IsAscii c) : c.utf8Size = 1 := by
  rw [Char.utf8Size_eq_one_iff, UInt32.le_iff_toNat_le]
  exact Nat.le_of_lt_succ h

/-- An operation that inserts ASCII characters only. -/
def Op.IsAscii : Op → Prop
  | .insertChar c => Editor.IsAscii c
  | _ => True

instance : DecidablePred Op.IsAscii
  | .insertChar c => inferInstanceAs (Decidable (Editor.IsAscii c))
  | .backspace | .left | .right | .up | .down => inferInstanceAs (Decidable True)

lemma Tidy.implements (h : e.Tidy) {op : Op} (hop : op.IsAscii) : e.Implements op := by
  obtain ⟨pre, a, b, post, rfl⟩ := h.exists_place
  cases op with
  | insertChar c => exact implements_insertChar h (IsAscii.utf8Size hop)
  | backspace => exact implements_backspace h
  | left => exact implements_left h
  | right => exact implements_right h
  | up => exact implements_up h
  | down => exact implements_down h

lemma tidy_new {s : List Char} (hs : ∀ c ∈ s, IsAscii c) : (new s).Tidy := by
  obtain ⟨l, post, hnew, hplain⟩ := new_eq_place s
  rw [hnew]
  refine ⟨inBounds_place, fun l' hl' c hc => ?_⟩
  obtain ⟨hmem, hne⟩ := hplain l' (by simpa [place] using hl') c hc
  exact ⟨(hs c hmem).utf8Size, hne⟩

/-- **The editor is a flat text buffer.**  On ASCII text every run of operations gives a
result, the flat text and the point at its end are those of the buffer after the same
operations, and the cursor is on a line and not beyond its end. -/
theorem editor_refines_buffer (s : List Char) (hs : ∀ c ∈ s, IsAscii c) (ops : List Op)
    (hops : ∀ op ∈ ops, op.IsAscii) :
    ∃ os e, machine.run (new s) ops = .ok (os, e) ∧
      e.flatten = ops.foldl Buffer.apply (new s).flatten ∧
      ∃ l, e.lines[e.cursorY]? = some l ∧ e.cursorX ≤ Lib.byteLen l := by
  have hstep : ∀ e op, e.Tidy → op.IsAscii → ∃ o e₁, machine.step e op = .ok (o, e₁) ∧
      e₁.Tidy ∧ e₁.flatten = e.flatten.apply op := by
    intro e op he hop
    obtain ⟨e₁, happly, he₁, hflat⟩ := he.implements hop
    exact ⟨(), e₁, step_eq_ok.mpr happly, he₁, hflat⟩
  obtain ⟨os, e, hrun, htidy, hflat⟩ := machine.run_refines hstep (tidy_new hs) hops
  obtain ⟨l, hl, hx⟩ := htidy.1
  exact ⟨os, e, hrun, hflat, l, hl, hx.le_byteLen⟩

/-- Two lines, text inserted in the second, a line break deleted and put in elsewhere. -/
theorem editor_refines_buffer_two :
    ∃ os e, machine.run (new ['a', 'b', '\n', 'c'])
        [.right, .right, .down, .insertChar 'd', .up, .right, .backspace, .left,
          .insertChar '\n'] = .ok (os, e) ∧
      e.flatten = ⟨['a', '\n', 'b', 'c', 'd'], 2⟩ := by
  obtain ⟨os, e, hrun, hflat, -⟩ := editor_refines_buffer ['a', 'b', '\n', 'c']
    (by simp [IsAscii])
    [.right, .right, .down, .insertChar 'd', .up, .right, .backspace, .left,
      .insertChar '\n'] (by decide)
  exact ⟨os, e, hrun, hflat.trans (by decide)⟩

end Editor

end SilOS
