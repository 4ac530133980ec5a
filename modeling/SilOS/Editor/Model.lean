/-
# The text editor

The editor of `editor/mod.rs` keeps the text as a vector of lines and a cursor.  The cursor
`cursor_x` is used as a byte index into the line `lines[cursor_y]`: `String::insert`,
`String::remove` and `String::split_off` stop the program at an index that is not a character
boundary, and indexing the vector stops it beyond the last line.  Each operation below is the
method of the same name, with these checks.
-/
import SilOS.Lib.Checked
import SilOS.Lib.Lines
import SilOS.Lib.Machine
import SilOS.Lib.Utf8

namespace SilOS

open Lib

/-- `Editor`: the lines of the text and the cursor. -/
structure Editor where
  lines : List (List Char)
  cursorX : ℕ
  cursorY : ℕ
deriving DecidableEq, Repr

namespace Editor

/-- `Editor::new`: the lines of the initial data, one empty line if there are none. -/
def new (initialData : List Char) : Editor :=
  let lines := Lib.lines initialData
  { lines := if lines = [] then [[]] else lines, cursorX := 0, cursorY := 0 }

/-- The editor that `run_editor` opens on the contents of a file. -/
def load (fileBytes : List UInt8) : Editor := new (decodeLossy fileBytes)

/-- `lines[y]`. -/
def line (lines : List (List Char)) (y : ℕ) : Except Fault (List Char) :=
  match lines[y]? with
  | some l => .ok l
  | none => .error .panic

/-- Cut a string at a byte index, as `String::split_off` does. -/
def splitOff (l : List Char) (i : ℕ) : Except Fault (List Char × List Char) :=
  match splitAtByte l i with
  | some p => .ok p
  | none => .error .panic

/-- `String::remove`: there has to be a character at the index. -/
def removeAt (l : List Char) (i : ℕ) : Except Fault (List Char) := do
  let (a, b) ← splitOff l i
  match b with
  | [] => .error .panic
  | _ :: b => return a ++ b

/-- `Editor::insert_newline`. -/
def insertNewline (e : Editor) : Except Fault Editor := do
  let currentLine ← line e.lines e.cursorY
  let (rest, newLineContent) ← splitOff currentLine e.cursorX
  return { lines := (e.lines.set e.cursorY rest).insertIdx (e.cursorY + 1) newLineContent
           cursorX := 0
           cursorY := e.cursorY + 1 }

/-- `Editor::insert_char`. -/
def insertChar (e : Editor) (c : Char) : Except Fault Editor :=
  if c = '\n' then e.insertNewline
  else do
    let currentLine ← line e.lines e.cursorY
    let (a, b) ← splitOff currentLine e.cursorX
    return { e with
      lines := e.lines.set e.cursorY (a ++ c :: b)
      cursorX := e.cursorX + 1 }

/-- `Editor::backspace`. -/
def backspace (e : Editor) : Except Fault Editor :=
  if 0 < e.cursorX then do
    let currentLine ← line e.lines e.cursorY
    let shorter ← removeAt currentLine (e.cursorX - 1)
    return { e with
      lines := e.lines.set e.cursorY shorter
      cursorX := e.cursorX - 1 }
  else if 0 < e.cursorY then do
    let currentLine ← line e.lines e.cursorY
    let lines := e.lines.eraseIdx e.cursorY
    let prevLine ← line lines (e.cursorY - 1)
    return { lines := lines.set (e.cursorY - 1) (prevLine ++ currentLine)
             cursorX := byteLen prevLine
             cursorY := e.cursorY - 1 }
  else return e

/-- `Editor::move_cursor_left`. -/
def moveCursorLeft (e : Editor) : Except Fault Editor :=
  if 0 < e.cursorX then return { e with cursorX := e.cursorX - 1 }
  else if 0 < e.cursorY then do
    let prevLine ← line e.lines (e.cursorY - 1)
    return { e with cursorX := byteLen prevLine, cursorY := e.cursorY - 1 }
  else return e

/-- `Editor::move_cursor_right`. -/
def moveCursorRight (e : Editor) : Except Fault Editor := do
  let currentLine ← line e.lines e.cursorY
  if e.cursorX < byteLen currentLine then return { e with cursorX := e.cursorX + 1 }
  else
    let last ← subW e.lines.length 1
    if e.cursorY < last then return { e with cursorX := 0, cursorY := e.cursorY + 1 }
    else return e

/-- Put the cursor on the line `y`, as far to the right as before or at the end of the line. -/
def clampTo (e : Editor) (y : ℕ) : Except Fault Editor := do
  let l ← line e.lines y
  return { e with
    cursorX := if byteLen l < e.cursorX then byteLen l else e.cursorX
    cursorY := y }

/-- `Editor::move_cursor_up`. -/
def moveCursorUp (e : Editor) : Except Fault Editor :=
  if 0 < e.cursorY then e.clampTo (e.cursorY - 1) else return e

/-- `Editor::move_cursor_down`. -/
def moveCursorDown (e : Editor) : Except Fault Editor := do
  let last ← subW e.lines.length 1
  if e.cursorY < last then e.clampTo (e.cursorY + 1) else return e

/-- The operations on the text that the keys stand for. -/
inductive Op where
  | insertChar (c : Char)
  | backspace
  | left
  | right
  | up
  | down
deriving DecidableEq, Repr

/-- The operation's method. -/
def apply (e : Editor) : Op → Except Fault Editor
  | .insertChar c => e.insertChar c
  | .backspace => e.backspace
  | .left => e.moveCursorLeft
  | .right => e.moveCursorRight
  | .up => e.moveCursorUp
  | .down => e.moveCursorDown

/-- The editor as a machine. -/
def machine : Machine Editor Op Unit Fault where
  step e op := (e.apply op).map fun e' => ((), e')

lemma step_eq_ok {e e' : Editor} {op : Op} {o : Unit} :
    machine.step e op = .ok (o, e') ↔ e.apply op = .ok e' := by
  simp only [machine]
  cases e.apply op with
  | error f => simp [Except.map]
  | ok e₁ => simp [Except.map]

/-- The cursor is on a line, at a character boundary of it. -/
def InBounds (e : Editor) : Prop :=
  ∃ l, e.lines[e.cursorY]? = some l ∧ IsBoundary l e.cursorX

/-! ### The editor around its cursor -/

/-- The editor with the lines `pre` above the cursor and `post` below it, and the parts `a` and
`b` of the current line before and after it. -/
def place (pre : List (List Char)) (a b : List Char) (post : List (List Char)) : Editor where
  lines := pre ++ (a ++ b) :: post
  cursorX := byteLen a
  cursorY := pre.length

variable {e : Editor} {pre post : List (List Char)} {a b l : List Char} {c : Char}

theorem inBounds_iff_place : e.InBounds ↔ ∃ pre a b post, e = place pre a b post := by
  constructor
  · rintro ⟨l, hl, hx⟩
    obtain ⟨a, b, rfl, ha⟩ := isBoundary_iff.mp hx
    obtain ⟨hlt, hget⟩ := List.getElem?_eq_some_iff.mp hl
    refine ⟨e.lines.take e.cursorY, a, b, e.lines.drop (e.cursorY + 1), ?_⟩
    have hlines : e.lines = e.lines.take e.cursorY ++ (a ++ b) :: e.lines.drop (e.cursorY + 1) := by
      rw [← hget, List.cons_getElem_drop_succ, List.take_append_drop]
    have hy : e.cursorY = (e.lines.take e.cursorY).length := by
      rw [List.length_take, min_eq_left hlt.le]
    cases e
    simp only [place, mk.injEq]
    exact ⟨hlines, ha.symm, hy⟩
  · rintro ⟨pre, a, b, post, rfl⟩
    exact ⟨a ++ b, by simp [place], isBoundary_iff.mpr ⟨a, b, rfl, rfl⟩⟩

lemma inBounds_place : (place pre a b post).InBounds :=
  inBounds_iff_place.mpr ⟨pre, a, b, post, rfl⟩

lemma new_eq_place (s : List Char) : ∃ l post, new s = place [] [] l post ∧
    ∀ l' ∈ l :: post, ∀ c ∈ l', c ∈ s ∧ c ≠ '\n' := by
  rcases h : Lib.lines s with _ | ⟨l, post⟩
  · exact ⟨[], [], by simp [new, h, place], by simp⟩
  · refine ⟨l, post, by simp [new, h, place], fun l' hl' c hc => ?_⟩
    rw [← h] at hl'
    exact mem_lines hl' hc

lemma inBounds_new (s : List Char) : (new s).InBounds := by
  obtain ⟨l, post, h, -⟩ := new_eq_place s
  rw [h]
  exact inBounds_place

end Editor

end SilOS
