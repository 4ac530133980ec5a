/-
# Opening and leaving the editor

`run_editor` loads a file with `str::lines` and writes its lines joined by newlines at Escape,
whether or not they were changed.  Keys that only move the cursor leave the lines as they are, so
the bytes that are written depend on the bytes that were loaded alone: they are the same up to a
newline at the end of the file, which is lost.
-/
import SilOS.Shell.Names

namespace SilOS

open Lib Fat16 Risp

namespace Editor

variable {e : Editor} {l : List Char}

/-! ### Moving the cursor -/

/-- The key moves the cursor and edits nothing. -/
def Op.IsMove : Op → Prop
  | .insertChar _ | .backspace => False
  | .left | .right | .up | .down => True

/-- The cursor is on a line.  It need not be at a character boundary of it. -/
def OnLine (e : Editor) : Prop := e.cursorY < e.lines.length

/-- The operation gives a result with the cursor on a line and the lines as they were. -/
def KeepsLines (e : Editor) (op : Op) : Prop :=
  ∃ e', e.apply op = .ok e' ∧ e'.lines = e.lines ∧ e'.OnLine

lemma line_eq_ok {lines : List (List Char)} {y : ℕ} (h : y < lines.length) :
    line lines y = .ok lines[y] := by
  rw [line, List.getElem?_eq_getElem h]

lemma OnLine.exists_clampTo {y : ℕ} (h : y < e.lines.length) :
    ∃ e', e.clampTo y = .ok e' ∧ e'.lines = e.lines ∧ e'.OnLine := by
  rw [clampTo, line_eq_ok h, ok_bind]
  exact ⟨_, rfl, rfl, h⟩

lemma OnLine.subW_length (h : e.OnLine) : subW e.lines.length 1 = .ok (e.lines.length - 1) :=
  subW_eq_ok (Nat.one_le_of_lt h)

lemma OnLine.keepsLines_left (h : e.OnLine) : e.KeepsLines .left := by
  rw [KeepsLines, apply, moveCursorLeft]
  split_ifs with hx hy
  · exact ⟨_, rfl, rfl, h⟩
  · have hprev : e.cursorY - 1 < e.lines.length := (Nat.sub_le _ _).trans_lt h
    rw [line_eq_ok hprev, ok_bind]
    exact ⟨_, rfl, rfl, hprev⟩
  · exact ⟨e, rfl, rfl, h⟩

lemma OnLine.keepsLines_right (h : e.OnLine) : e.KeepsLines .right := by
  rw [KeepsLines, apply, moveCursorRight, line_eq_ok h, ok_bind]
  split_ifs with hx
  · exact ⟨_, rfl, rfl, h⟩
  · rw [h.subW_length, ok_bind]
    split_ifs with hy
    · exact ⟨_, rfl, rfl, Nat.add_lt_of_lt_sub hy⟩
    · exact ⟨e, rfl, rfl, h⟩

lemma OnLine.keepsLines_up (h : e.OnLine) : e.KeepsLines .up := by
  rw [KeepsLines, apply, moveCursorUp]
  split_ifs with hy
  · exact exists_clampTo ((Nat.sub_le _ _).trans_lt h)
  · exact ⟨e, rfl, rfl, h⟩

lemma OnLine.keepsLines_down (h : e.OnLine) : e.KeepsLines .down := by
  rw [KeepsLines, apply, moveCursorDown, h.subW_length, ok_bind]
  split_ifs with hy
  · exact exists_clampTo (Nat.add_lt_of_lt_sub hy)
  · exact ⟨e, rfl, rfl, h⟩

lemma OnLine.keepsLines {op : Op} (h : e.OnLine) (hop : op.IsMove) : e.KeepsLines op := by
  cases op with
  | insertChar c => exact hop.elim
  | backspace => exact hop.elim
  | left => exact h.keepsLines_left
  | right => exact h.keepsLines_right
  | up => exact h.keepsLines_up
  | down => exact h.keepsLines_down

/-- Moving the cursor about never stops the editor and leaves the text alone. -/
lemma OnLine.run_moves {keys : List Op} (h : e.OnLine) (hkeys : ∀ op ∈ keys, op.IsMove) :
    ∃ os e', machine.run e keys = .ok (os, e') ∧ e'.lines = e.lines := by
  have hstep : ∀ e₁ op, e₁.OnLine → op.IsMove →
      ∃ o e₂, machine.step e₁ op = .ok (o, e₂) ∧ e₂.OnLine ∧ e₂.lines = e₁.lines := by
    intro e₁ op he₁ hop
    obtain ⟨e₂, happly, hlines, he₂⟩ := he₁.keepsLines hop
    exact ⟨(), e₂, step_eq_ok.mpr happly, he₂, hlines⟩
  obtain ⟨os, e', hrun, -, hlines⟩ :=
    @machine.run_refines _ _ _ _ _ OnLine Op.IsMove Editor.lines (fun ls _ => ls) hstep _ _ h hkeys
  exact ⟨os, e', hrun, hlines.trans (List.foldl_fixed _)⟩

end Editor

/-! ### What is written at Escape -/

/-- The bytes that `run_editor` writes at Escape. -/
def Editor.written (e : Editor) : List UInt8 := encodeUtf8 (List.intercalate ['\n'] e.lines)

lemma Editor.onLine_new (s : Str) : (Editor.new s).OnLine := by
  rw [OnLine, new]
  split_ifs with h
  · exact Nat.one_pos
  · exact List.length_pos_iff.mpr h

/-- The one empty line of an empty file is no text. -/
lemma Editor.written_new {s : Str} (hcr : '\r' ∉ s) :
    (Editor.new s).written = encodeUtf8 (stripNewline s) := by
  rw [written, ← intercalate_lines hcr, new]
  split_ifs with h
  · rw [h]
    rfl
  · rfl

namespace Mount

variable {m : Mount} {fs : Fat16FileSystem} {entry : DirectoryEntry} {args : List Str}
  {keys : List Editor.Op} {s : Str}

/-- A session of the editor on a file with the text `s` in which the cursor is only moved. -/
lemma runEdit_of_moves (hfs : m.fs = some fs)
    (hfind : fs.findFile m.disk (editorFile args).1 (editorFile args).2 = .ok (some entry))
    (hread : fs.readFile m.disk entry = .ok (encodeUtf8 s)) (hkeys : ∀ op ∈ keys, op.IsMove) :
    m.runEdit args keys = (do
      let (_, disk) ← fs.overwriteFile m.disk (editorFile args).1 (editorFile args).2
        (Editor.new s).written
      return (.success "Worked" false, { m with disk := disk })) := by
  obtain ⟨os, e', hrun, hlines⟩ := (Editor.onLine_new s).run_moves hkeys
  have hopen : m.openEditor (editorFile args).1 (editorFile args).2 = .ok (Editor.new s) := by
    rw [openEditor, hfs]
    simp only [contents, hfind, hread, ok_bind]
    rw [pure_bind]
    simp only [Editor.load, decodeLossy_encodeUtf8]
    rfl
  rw [runEdit]
  simp only [editorFile] at hopen hfind ⊢
  rw [hopen, ok_bind, hrun, ok_bind, saveEditor, hfs]
  simp only [hfind, ok_bind, hlines, bind_assoc, pure_bind]
  rfl

end Mount

/-- **Opening and leaving the editor.**  In a session on a file with the text `s` in which no key
edits anything, the file is overwritten with the lines of `s` joined by newlines.  For a text
without carriage returns these are the bytes that were loaded exactly if the text does not end with
a newline. -/
theorem eden_writes_loaded_bytes_iff {s : Str} (hcr : '\r' ∉ s) :
    (∀ (m : Mount) (fs : Fat16FileSystem) (entry : DirectoryEntry) (args : List Str)
        (keys : List Editor.Op), m.fs = some fs →
      fs.findFile m.disk (editorFile args).1 (editorFile args).2 = .ok (some entry) →
      fs.readFile m.disk entry = .ok (encodeUtf8 s) → (∀ op ∈ keys, op.IsMove) →
      m.runEdit args keys = (do
        let (_, disk) ← fs.overwriteFile m.disk (editorFile args).1
          (editorFile args).2 (Editor.load (encodeUtf8 s)).written
        return (.success "Worked" false, { m with disk := disk }))) ∧
    ((Editor.load (encodeUtf8 s)).written = encodeUtf8 s ↔ s.getLast? ≠ some '\n') := by
  rw [Editor.load, decodeLossy_encodeUtf8]
  refine ⟨fun m fs entry args keys hfs hfind hread hkeys =>
    Mount.runEdit_of_moves hfs hfind hread hkeys, ?_⟩
  rw [Editor.written_new hcr, encodeUtf8_injective.eq_iff, stripNewline_eq_self_iff]

theorem eden_writes_loaded_bytes_iff_two_lines :
    '\r' ∉ ['é', '\n', 'a'] ∧
      (Editor.load (encodeUtf8 ['é', '\n', 'a'])).written = encodeUtf8 ['é', '\n', 'a'] :=
  ⟨by decide, (eden_writes_loaded_bytes_iff (by decide)).2.mpr (by decide)⟩

/-- A file of one line that ends with a newline is a byte shorter after a visit. -/
theorem eden_drops_last_newline :
    encodeUtf8 ['a', '\n'] = [0x61, 0x0A] ∧
      (Editor.load (encodeUtf8 ['a', '\n'])).written = [0x61] ∧
      (Editor.load (encodeUtf8 ['a', '\n'])).written ≠ encodeUtf8 ['a', '\n'] := by
  decide

end SilOS
