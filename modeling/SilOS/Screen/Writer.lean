/-
# The screen writer

`vga_buffer.rs` writes on the last row of a text screen of 25 rows and 80 columns and scrolls the
screen when the row ends.  A row ends at a line feed, or when a character arrives and the row is
full.  Scrolling copies the rows in place, cell by cell.

The purpose of the writer is an append-only terminal: the screen shows the last 25 rows of all
that was written.  `Shows w older line` says that the screen of `w` shows the last 24 of the rows
`older` and under them `line`.  `Shows.writeByte` is the step of the refinement, and
`Shows.writeBytes` is the whole text.
-/
import SilOS.Lib.Checked
import SilOS.Lib.Machine
import SilOS.Lib.Utf8
import SilOS.Lib.Wrap

namespace SilOS.Screen

open Lib

/-- `BUFFER_HEIGHT`. -/
abbrev bufferHeight : ℕ := 25

/-- `BUFFER_WIDTH`. -/
abbrev bufferWidth : ℕ := 80

/-- `ScreenChar`, with the colour code as the byte it is. -/
structure ScreenChar where
  asciiCharacter : UInt8
  colorCode : UInt8
deriving DecidableEq, Repr

/-- `Buffer`: the cells by row and column. -/
def Buffer : Type := Fin bufferHeight → Fin bufferWidth → ScreenChar

namespace Buffer

/-- `chars[row][col].read()`. -/
def read (b : Buffer) (row col : ℕ) : Except Fault ScreenChar :=
  if h : row < bufferHeight ∧ col < bufferWidth then .ok (b ⟨row, h.1⟩ ⟨col, h.2⟩)
  else .error .panic

/-- The buffer with one cell replaced. -/
def set (b : Buffer) (row col : ℕ) (c : ScreenChar) : Buffer := fun i j =>
  if i.val = row ∧ j.val = col then c else b i j

/-- `chars[row][col].write(c)`. -/
def write (b : Buffer) (row col : ℕ) (c : ScreenChar) : Except Fault Buffer :=
  if row < bufferHeight ∧ col < bufferWidth then .ok (b.set row col c) else .error .panic

end Buffer

/-- `Writer`. -/
structure Writer where
  columnPosition : ℕ
  colorCode : UInt8
  buffer : Buffer

namespace Writer

/-- A blank in the colour of the writer. -/
def blank (w : Writer) : ScreenChar := ⟨0x20, w.colorCode⟩

/-- `Writer::delete_byte`. -/
def deleteByte (w : Writer) : Except Fault Writer :=
  if w.columnPosition > 0 then do
    let col := w.columnPosition - 1
    let buffer ← w.buffer.write (bufferHeight - 1) col w.blank
    return { w with columnPosition := col, buffer := buffer }
  else return w

/-- `Writer::clear`: the last row is not cleared, and the column stays. -/
def clear (w : Writer) : Except Fault Writer := do
  let buffer ← forRange 0 24
    (fun buffer i => forRange 0 80 (fun buffer j => buffer.write i j w.blank) buffer) w.buffer
  return { w with buffer := buffer }

/-- `Writer::set_color`. -/
def setColor (w : Writer) (colorCode : UInt8) : Writer := { w with colorCode := colorCode }

/-- `Writer::clear_row`. -/
def clearRow (w : Writer) (row : ℕ) : Except Fault Writer := do
  let buffer ← forRange 0 bufferWidth (fun buffer col => buffer.write row col w.blank) w.buffer
  return { w with buffer := buffer }

/-- The body of the loops of `new_line`. -/
def copyCell (row : ℕ) (buffer : Buffer) (col : ℕ) : Except Fault Buffer := do
  let character ← buffer.read row col
  let above ← subW row 1
  buffer.write above col character

/-- `Writer::new_line`. -/
def newLine (w : Writer) : Except Fault Writer := do
  let buffer ← forRange 1 bufferHeight
    (fun buffer row => forRange 0 bufferWidth (copyCell row) buffer) w.buffer
  let w ← clearRow { w with buffer := buffer } (bufferHeight - 1)
  return { w with columnPosition := 0 }

/-- `Writer::write_byte`. -/
def writeByte (w : Writer) (byte : UInt8) : Except Fault Writer :=
  if byte = 0x0a then w.newLine
  else do
    let w ← if w.columnPosition ≥ bufferWidth then w.newLine else pure w
    let buffer ← w.buffer.write (bufferHeight - 1) w.columnPosition ⟨byte, w.colorCode⟩
    let column ← addW 64 w.columnPosition 1
    return { w with columnPosition := column, buffer := buffer }

/-- What `write_string` passes on for a byte. -/
def shown (byte : UInt8) : UInt8 :=
  if 0x20 ≤ byte ∧ byte ≤ 0x7e ∨ byte = 0x0a then byte else 0xfe

/-- `Writer::write_string`. -/
def writeString (w : Writer) (s : List Char) : Except Fault Writer :=
  (encodeUtf8 s).foldlM (fun w byte => w.writeByte (shown byte)) w

/-- `write_char_at`: nothing happens off the screen. -/
def writeCharAt (w : Writer) (x y : ℕ) (c colorCode : UInt8) : Except Fault Writer :=
  if x < bufferWidth ∧ y < bufferHeight then do
    let buffer ← w.buffer.write y x ⟨c, colorCode⟩
    return { w with buffer := buffer }
  else return w

/-! ### What the loops do -/

end Writer

namespace Buffer

variable {b : Buffer} {row col : ℕ}

lemma read_eq (i : Fin bufferHeight) (j : Fin bufferWidth) : b.read i j = .ok (b i j) := by
  rw [read, dif_pos ⟨i.isLt, j.isLt⟩]

lemma write_eq (hrow : row < bufferHeight) (hcol : col < bufferWidth) (c : ScreenChar) :
    b.write row col c = .ok (b.set row col c) := by
  rw [write, if_pos ⟨hrow, hcol⟩]

/-- The buffer with the first `n` cells of a row replaced by those of `cells`. -/
def setRow (b : Buffer) (row n : ℕ) (cells : Fin bufferWidth → ScreenChar) : Buffer := fun i j =>
  if i.val = row ∧ j.val < n then cells j else b i j

lemma set_setRow (cells : Fin bufferWidth → ScreenChar) (j : Fin bufferWidth) :
    (b.setRow row j cells).set row j (cells j) = b.setRow row (j + 1) cells := by
  funext i j'
  by_cases hi : i.val = row
  · rcases Nat.lt_trichotomy j'.val j.val with hj | hj | hj
    · simp [set, setRow, hi, hj, hj.ne, Nat.lt_succ_of_lt hj]
    · obtain rfl := Fin.ext hj
      simp [set, setRow, hi]
    · have h₁ : ¬ j'.val < j.val := by omega
      have h₂ : ¬ j'.val < j.val + 1 := by omega
      simp [set, setRow, h₁, h₂, hj.ne']
  · simp [set, setRow, hi]

/-- A loop over a row whose turn `col` writes the cell that `cells` has there. -/
lemma forRange_row {body : Buffer → ℕ → Except Fault Buffer}
    (cells : Fin bufferWidth → ScreenChar) (hrow : row < bufferHeight)
    (hbody : ∀ j : Fin bufferWidth,
      body (b.setRow row j cells) j = (b.setRow row j cells).write row j (cells j)) :
    forRange 0 bufferWidth body b = .ok (b.setRow row bufferWidth cells) := by
  have hzero : b.setRow row 0 cells = b := by
    funext i j
    simp [setRow]
  have hloop := forRange_eq body (fun n => b.setRow row n cells) (Nat.zero_le bufferWidth)
    fun col _ hcol => by
      rw [hbody ⟨col, hcol⟩, write_eq hrow hcol, set_setRow cells ⟨col, hcol⟩]
  rwa [hzero] at hloop

/-- The buffer with `c` in all cells of the first `n` rows. -/
def filled (b : Buffer) (c : ScreenChar) (n : ℕ) : Buffer := fun i j =>
  if i.val < n then c else b i j

lemma setRow_filled (c : ScreenChar) (n : ℕ) :
    (b.filled c n).setRow n bufferWidth (fun _ => c) = b.filled c (n + 1) := by
  funext i j
  rcases Nat.lt_trichotomy i.val n with hi | hi | hi
  · simp [setRow, filled, hi, hi.ne, Nat.lt_succ_of_lt hi]
  · simp [setRow, filled, hi]
  · have hlt : ¬ i.val < n := by omega
    have hle : ¬ i.val ≤ n := by omega
    simp [setRow, filled, hi.ne', hlt, hle]

/-- The loops that write one character into all cells of the first `n` rows. -/
lemma forRange_filled {c : ScreenChar} {n : ℕ} (hn : n ≤ bufferHeight) :
    forRange 0 n (fun b i => forRange 0 bufferWidth (fun b j => b.write i j c) b) b =
      .ok (b.filled c n) := by
  have hstart : b.filled c 0 = b := by
    funext i j
    simp [filled]
  have hloop := forRange_eq
    (fun b i => forRange 0 bufferWidth (fun b j => Buffer.write b i j c) b)
    (b.filled c) (Nat.zero_le n) fun i _ hi => by
      rw [← setRow_filled]
      exact forRange_row (fun _ => c) (hi.trans_le hn) fun _ => rfl
  rwa [hstart] at hloop

/-- The buffer moved up by one row, with `c` in all cells of the last row. -/
def scrolled (b : Buffer) (c : ScreenChar) : Buffer := fun i j =>
  if h : i.val + 1 < bufferHeight then b ⟨i + 1, h⟩ j else c

/-- The buffer in which the rows above `row` have been overwritten by those under them. -/
def moved (b : Buffer) (row : ℕ) : Buffer := fun i j =>
  if h : i.val + 1 < bufferHeight ∧ i.val + 1 < row then b ⟨i + 1, h.1⟩ j else b i j

/-- The inner loop of `new_line`: the row that is read has not been overwritten yet. -/
lemma forRange_copyCell (hlo : 1 ≤ row) (hhi : row < bufferHeight) :
    forRange 0 bufferWidth (Writer.copyCell row) (b.moved row) = .ok (b.moved (row + 1)) := by
  have habove : row - 1 < bufferHeight := by omega
  rw [forRange_row (b ⟨row, hhi⟩) habove]
  · congr 1
    funext i j
    by_cases hi : i.val = row - 1
    · simp [setRow, moved, hi, Nat.sub_add_cancel hlo, hhi]
    · have hiff : i.val + 1 < row + 1 ↔ i.val + 1 < row := by omega
      simp [setRow, moved, hi, hiff]
  · intro j
    have hread : (b.moved row).setRow (row - 1) j (b ⟨row, hhi⟩) ⟨row, hhi⟩ j = b ⟨row, hhi⟩ j := by
      have hne : row ≠ row - 1 := by omega
      simp [setRow, moved, hne]
    rw [Writer.copyCell, read_eq ⟨row, hhi⟩ j, hread, ok_bind, subW_eq_ok hlo, ok_bind]

end Buffer

namespace Writer

variable {w : Writer}

lemma clearRow_eq {row : ℕ} (hrow : row < bufferHeight) :
    w.clearRow row =
      .ok { w with buffer := w.buffer.setRow row bufferWidth fun _ => w.blank } := by
  rw [clearRow, Buffer.forRange_row (fun _ => w.blank) hrow fun _ => rfl]
  rfl

/-- The outer loop of `new_line`. -/
lemma forRange_copyRows (b : Buffer) :
    forRange 1 bufferHeight (fun buffer row => forRange 0 bufferWidth (copyCell row) buffer) b
      = .ok (b.moved bufferHeight) := by
  have hstart : b.moved 1 = b := by
    funext i j
    simp [Buffer.moved]
  have hloop := forRange_eq (fun buffer row => forRange 0 bufferWidth (copyCell row) buffer)
    b.moved (by decide : 1 ≤ bufferHeight) fun row hlo hhi => Buffer.forRange_copyCell hlo hhi
  rwa [hstart] at hloop

/-- The state after a line feed. -/
def scroll (w : Writer) : Writer :=
  { w with columnPosition := 0, buffer := w.buffer.scrolled w.blank }

/-- The state after a character has been put at the end of the row. -/
def put (w : Writer) (byte : UInt8) : Writer :=
  { w with
    columnPosition := w.columnPosition + 1
    buffer := w.buffer.set (bufferHeight - 1) w.columnPosition ⟨byte, w.colorCode⟩ }

lemma newLine_eq (w : Writer) : w.newLine = .ok w.scroll := by
  rw [newLine, forRange_copyRows, ok_bind, clearRow_eq (by decide), ok_bind]
  have hbuffer : (w.buffer.moved bufferHeight).setRow (bufferHeight - 1) bufferWidth
      (fun _ => w.blank) = w.buffer.scrolled w.blank := by
    funext i j
    by_cases hi : i.val + 1 < bufferHeight
    · have hne : i.val ≠ bufferHeight - 1 := by omega
      simp only [Buffer.setRow, Buffer.moved, Buffer.scrolled, hne, hi]
      simp
    · have heq : i.val = bufferHeight - 1 := by omega
      simp [Buffer.setRow, Buffer.scrolled, heq]
  simp only [scroll, ← hbuffer]
  rfl

lemma write_put (h : w.columnPosition < bufferWidth) (byte : UInt8) :
    (do
      let buffer ← w.buffer.write (bufferHeight - 1) w.columnPosition ⟨byte, w.colorCode⟩
      let column ← addW 64 w.columnPosition 1
      return { w with columnPosition := column, buffer := buffer }) = Except.ok (w.put byte) := by
  have hfits : w.columnPosition + 1 < 2 ^ 64 := by
    have : w.columnPosition < 80 := h
    omega
  rw [Buffer.write_eq (by decide) h, ok_bind, addW_eq_ok hfits, ok_bind]
  rfl

/-- **One byte.**  Whatever the column, `write_byte` gives a result: a line feed scrolls, and a
character that finds the row full scrolls first. -/
lemma writeByte_eq (w : Writer) (byte : UInt8) :
    w.writeByte byte = .ok
      (if byte = 0x0a then w.scroll
       else if w.columnPosition < bufferWidth then w.put byte
       else w.scroll.put byte) := by
  rw [writeByte]
  split_ifs with hfeed hfull hlt hlt
  · exact newLine_eq w
  · exact absurd hlt (by omega)
  · rw [newLine_eq, ok_bind]
    exact write_put (Nat.zero_lt_succ _) byte
  · exact write_put hlt byte
  · exact absurd hlt (by omega)

/-! ### The append-only terminal -/

/-- The rows of the text that `write_string` writes. -/
def wrapped (s : List Char) : List (List UInt8) :=
  wrap 0x0a bufferWidth ((encodeUtf8 s).map shown)

/-- The characters on the screen, row by row. -/
def rows (w : Writer) : List (List UInt8) :=
  List.ofFn fun i => List.ofFn fun j => (w.buffer i j).asciiCharacter

/-- A row filled up with blanks. -/
def pad (row : List UInt8) : List UInt8 := row ++ List.replicate (bufferWidth - row.length) 0x20

/-- The screen shows the last 24 of the rows `older` and under them `line`, with the column at the
end of `line`. -/
structure Shows (w : Writer) (older : List (List UInt8)) (line : List UInt8) : Prop where
  many : 24 ≤ older.length
  narrow : ∀ row ∈ older, row.length ≤ 80
  fits : line.length ≤ 80
  column : w.columnPosition = line.length
  above : ∀ i j, i.val < 24 →
    (w.buffer i j).asciiCharacter = (older.getD (older.length - 24 + i) []).getD j 0x20
  last : ∀ i j, i.val = 24 → (w.buffer i j).asciiCharacter = line.getD j 0x20

variable {older : List (List UInt8)} {line : List UInt8} {byte : UInt8}

lemma Shows.put (h : w.Shows older line) (hlt : line.length < 80) :
    (w.put byte).Shows older (line ++ [byte]) where
  many := h.many
  narrow := h.narrow
  fits := by simpa using hlt
  column := by simp [Writer.put, h.column]
  above i j hi := by
    have hne : i.val ≠ 24 := by omega
    simpa [Writer.put, Buffer.set, hne] using h.above i j hi
  last i j hi := by
    rcases Nat.lt_trichotomy j.val line.length with hj | hj | hj
    · rw [List.getD_append _ _ _ _ hj, ← h.last i j hi]
      simp [Writer.put, Buffer.set, h.column, hj.ne]
    · simp [Writer.put, Buffer.set, h.column, hi, hj]
    · have hlast := h.last i j hi
      rw [List.getD_eq_default _ _ hj.le] at hlast
      rw [List.getD_eq_default _ _ (by simpa using hj)]
      simpa [Writer.put, Buffer.set, h.column, hj.ne'] using hlast

/-- The row that was written becomes the last of the older ones. -/
lemma Shows.scroll (h : w.Shows older line) : w.scroll.Shows (older ++ [line]) [] where
  many := by
    have := h.many
    simp
    omega
  narrow row hrow := by
    rcases List.mem_append.mp hrow with hrow | hrow
    · exact h.narrow row hrow
    · exact List.mem_singleton.mp hrow ▸ h.fits
  fits := Nat.zero_le _
  column := rfl
  above i j hi := by
    have hmany := h.many
    have hin : i.val + 1 < bufferHeight := Nat.succ_lt_succ hi
    have hcell : w.scroll.buffer i j = w.buffer ⟨i + 1, hin⟩ j := dif_pos hin
    have hindex : (older ++ [line]).length - 24 + i.val = older.length - 24 + (i.val + 1) := by
      rw [List.length_append, List.length_singleton]
      omega
    rw [hcell, hindex]
    rcases Nat.lt_or_ge (i.val + 1) 24 with hi' | hi'
    · rw [h.above ⟨i + 1, hin⟩ j hi', List.getD_append _ _ _ _ (by omega)]
    · -- the row above the last one is the line
      have hlen : older.length - 24 + (i.val + 1) = older.length := by omega
      rw [h.last ⟨i + 1, hin⟩ j (by simp; omega), hlen]
      simp
  last i j hi := by simp [Writer.scroll, Buffer.scrolled, hi, Writer.blank]

/-- **Step of the refinement.**  A byte goes to the end of the rows, as on the terminal. -/
lemma Shows.writeByte (h : w.Shows older line) (byte : UInt8) :
    ∃ w₁ older₁ line₁, w.writeByte byte = .ok w₁ ∧ w₁.Shows older₁ line₁ ∧
      older₁ ++ [line₁] =
        if byte = 0x0a then older ++ [line] ++ [[]] else addTo 80 (older ++ [line]) byte := by
  rw [writeByte_eq]
  by_cases hfeed : byte = 0x0a
  · exact ⟨_, _, _, rfl, by simpa [hfeed] using h.scroll, by simp [hfeed]⟩
  · rw [if_neg hfeed, if_neg hfeed, addTo_concat, h.column]
    by_cases hlt : line.length < 80
    · exact ⟨_, _, _, rfl, by simpa [hlt] using h.put hlt, by simp [hlt]⟩
    · -- the row is full
      exact ⟨_, _, _, rfl, by simpa [hlt] using h.scroll.put (by simp), by simp [hlt]⟩

/-- The whole text, byte by byte: what is written before a byte is wrapped already. -/
lemma Shows.writeBytes (h : w.Shows older []) (text : List UInt8) :
    ∃ w₁ older₁ line₁, text.foldlM Writer.writeByte w = .ok w₁ ∧ w₁.Shows older₁ line₁ ∧
      older₁ ++ [line₁] = older ++ wrap 0x0a 80 text := by
  induction text using List.reverseRecOn with
  | nil => exact ⟨w, older, [], rfl, h, by simp [wrap, chunks_of_le]⟩
  | append_singleton text byte ih =>
      obtain ⟨w₁, older₁, line₁, hrun, hshows, hrows⟩ := ih
      obtain ⟨w₂, older₂, line₂, hbyte, hshows₂, hrows₂⟩ := hshows.writeByte byte
      refine ⟨w₂, older₂, line₂, ?_, hshows₂, ?_⟩
      · rw [List.foldlM_append, hrun, ok_bind, List.foldlM_cons, hbyte]
        rfl
      · rw [hrows₂, hrows]
        split_ifs with hfeed
        · rw [hfeed, wrap_concat_sep, List.append_assoc]
        · rw [wrap_concat (by decide) hfeed, addTo_append (wrap_ne_nil _ _ _)]

lemma length_rows (w : Writer) : w.rows.length = 25 := List.length_ofFn

lemma getElem_rows {i : ℕ} (hi25 : i < bufferHeight) (hi : i < w.rows.length) :
    w.rows[i] = List.ofFn fun j => (w.buffer ⟨i, hi25⟩ j).asciiCharacter :=
  List.getElem_ofFn hi

/-- A row of the screen that shows `row`, and blanks behind it. -/
lemma ofFn_eq_pad {row : List UInt8} (hrow : row.length ≤ 80) {cells : Fin bufferWidth → UInt8}
    (h : ∀ j, cells j = row.getD j 0x20) : List.ofFn cells = pad row := by
  have hlen : (List.ofFn cells).length = (pad row).length := by
    rw [List.length_ofFn, pad, List.length_append, List.length_replicate, Nat.add_sub_cancel' hrow]
  refine List.ext_getElem hlen fun j hj hj' => ?_
  rw [List.getElem_ofFn, h]
  rcases Nat.lt_or_ge j row.length with hlt | hge
  · simp [pad, hlt]
  · simp [pad, List.getElem_append_right, hge]

/-- What `Shows` says of the screen as a whole. -/
lemma Shows.rows_eq (h : w.Shows older line) :
    w.rows = ((older ++ [line]).rtake 25).map pad := by
  have hmany := h.many
  rw [List.rtake_concat_succ, List.rtake]
  have hlen : w.rows.length =
      ((older.drop (older.length - 24) ++ [line]).map pad).length := by
    rw [length_rows, List.length_map, List.length_append, List.length_drop, List.length_singleton]
    omega
  refine List.ext_getElem hlen fun i hi hi' => ?_
  have hi25 : i < 25 := w.length_rows ▸ hi
  rw [getElem_rows hi25, List.getElem_map]
  rcases Nat.lt_or_ge i 24 with hlt | hge
  · have hin : older.length - 24 + i < older.length := by omega
    rw [List.getElem_append_left (by simp; omega), List.getElem_drop]
    refine ofFn_eq_pad (h.narrow _ (List.getElem_mem _)) fun j => ?_
    rw [h.above ⟨i, hi25⟩ j hlt, List.getD_eq_getElem _ _ hin]
  · rw [List.getElem_append_right (by simp; omega), List.getElem_singleton]
    exact ofFn_eq_pad h.fits fun j => h.last ⟨i, hi25⟩ j (by simp; omega)

/-- A screen whose column is 0 and whose last row is blank shows its rows and an empty line. -/
lemma shows_of_blank (hcol : w.columnPosition = 0)
    (hblank : ∀ j, (w.buffer 24 j).asciiCharacter = 0x20) : w.Shows (w.rows.take 24) [] where
  many := by
    rw [List.length_take, length_rows]
    decide
  narrow row hrow := by
    obtain ⟨i, hi⟩ := List.mem_ofFn.mp (List.mem_of_mem_take hrow)
    rw [← hi, List.length_ofFn]
  fits := Nat.zero_le _
  column := hcol
  above i j hi := by
    have hlen : (w.rows.take 24).length = 24 := by
      rw [List.length_take, length_rows]
      rfl
    have hi' : i.val < (w.rows.take 24).length := hlen.symm ▸ hi
    have hrow : (w.rows.take 24).getD i [] =
        List.ofFn fun j => (w.buffer i j).asciiCharacter := by
      rw [List.getD_eq_getElem _ _ hi', List.getElem_take, getElem_rows i.isLt]
    have hj : j.val < (List.ofFn fun j => (w.buffer i j).asciiCharacter).length :=
      List.length_ofFn.symm ▸ j.isLt
    rw [hlen, Nat.sub_self, Nat.zero_add, hrow, List.getD_eq_getElem _ _ hj, List.getElem_ofFn]
  last i j hi := by
    obtain rfl : i = 24 := Fin.ext hi
    simpa using hblank j

lemma writeString_eq (w : Writer) (s : List Char) :
    w.writeString s = ((encodeUtf8 s).map shown).foldlM writeByte w := by
  rw [writeString, List.foldlM_map]

/-! ### All operations -/

/-- The operations that the rest of the kernel has on the writer. -/
inductive Op where
  | deleteByte
  | clear
  | setColor (colorCode : UInt8)
  | writeByte (byte : UInt8)
  | writeString (s : List Char)
  | writeCharAt (x y : ℕ) (c colorCode : UInt8)

/-- The writer after an operation. -/
def apply (w : Writer) : Op → Except Fault Writer
  | .deleteByte => w.deleteByte
  | .clear => w.clear
  | .setColor colorCode => .ok (w.setColor colorCode)
  | .writeByte byte => w.writeByte byte
  | .writeString s => w.writeString s
  | .writeCharAt x y c colorCode => w.writeCharAt x y c colorCode

/-- The writer as a machine. -/
def machine : Machine Writer Op Unit Fault where
  step w op := (w.apply op).map fun w => ((), w)

/-- The outer loop of `clear` leaves the rows before `n` blank. -/
def cleared (w : Writer) (n : ℕ) : Buffer := fun i j => if i.val < n then w.blank else w.buffer i j

lemma clear_eq (w : Writer) : w.clear = .ok { w with buffer := w.cleared 24 } := by
  rw [clear, Buffer.forRange_filled (by decide)]
  rfl

/-- The state after the character before the column has been deleted. -/
def erase (w : Writer) : Writer :=
  { w with
    columnPosition := w.columnPosition - 1
    buffer := w.buffer.set (bufferHeight - 1) (w.columnPosition - 1) w.blank }

lemma deleteByte_of_pos (hpos : 0 < w.columnPosition) (hcol : w.columnPosition ≤ 80) :
    w.deleteByte = .ok w.erase := by
  have hlt : w.columnPosition - 1 < bufferWidth :=
    Nat.lt_of_lt_of_le (Nat.sub_one_lt (by omega)) hcol
  simp only [deleteByte, if_pos hpos, Buffer.write_eq (by decide : bufferHeight - 1 < 25) hlt,
    ok_bind]
  rfl

lemma deleteByte_of_zero (hcol : w.columnPosition = 0) : w.deleteByte = .ok w := by
  rw [deleteByte, if_neg (by omega)]
  rfl

lemma writeByte_column (w : Writer) (byte : UInt8) :
    ∃ w₁, w.writeByte byte = .ok w₁ ∧ w₁.columnPosition ≤ 80 := by
  refine ⟨_, writeByte_eq w byte, ?_⟩
  split_ifs with hfeed hlt
  · exact Nat.zero_le _
  · exact hlt
  · exact Nat.le_add_left 1 79

lemma writeBytes_column (hcol : w.columnPosition ≤ 80) (text : List UInt8) :
    ∃ w₁, text.foldlM writeByte w = .ok w₁ ∧ w₁.columnPosition ≤ 80 := by
  induction text generalizing w with
  | nil => exact ⟨w, rfl, hcol⟩
  | cons byte text ih =>
      obtain ⟨w₁, hbyte, hcol₁⟩ := w.writeByte_column byte
      rw [List.foldlM_cons, hbyte]
      exact ih hcol₁

/-- Every operation that finds the column on the screen gives a result and leaves it there. -/
lemma apply_column (hcol : w.columnPosition ≤ 80) (op : Op) :
    ∃ w₁, w.apply op = .ok w₁ ∧ w₁.columnPosition ≤ 80 := by
  cases op with
  | deleteByte =>
      rcases Nat.eq_zero_or_pos w.columnPosition with hzero | hpos
      · exact ⟨w, deleteByte_of_zero hzero, hcol⟩
      · exact ⟨w.erase, deleteByte_of_pos hpos hcol, (Nat.sub_le _ _).trans hcol⟩
  | clear => exact ⟨_, clear_eq w, hcol⟩
  | setColor colorCode => exact ⟨_, rfl, hcol⟩
  | writeByte byte => exact w.writeByte_column byte
  | writeString s =>
      rw [apply, writeString_eq]
      exact writeBytes_column hcol _
  | writeCharAt x y c colorCode =>
      rw [apply, writeCharAt]
      split_ifs with hin
      · rw [Buffer.write_eq hin.2 hin.1]
        exact ⟨_, rfl, hcol⟩
      · exact ⟨w, rfl, hcol⟩

/-- **The terminal.**  A text written from the start of an empty last row leaves on the screen the
last 25 rows of what was there and the wrapped text, and the column at the end of its last row; and
in every run of the writer the column stays on the screen, so that no write is out of range. -/
theorem writer_refines_terminal :
    (∀ (w : Writer) (s : List Char), w.columnPosition = 0 →
      (∀ j, (w.buffer 24 j).asciiCharacter = 0x20) →
      ∃ w₁, w.writeString s = .ok w₁ ∧
        w₁.rows = ((w.rows.take 24 ++ wrapped s).rtake 25).map pad ∧
        (wrapped s).getLast?.map List.length = some w₁.columnPosition) ∧
    ∀ (colorCode : UInt8) (buffer : Buffer) (ops : List Op), ∃ os w₁,
      machine.run ⟨0, colorCode, buffer⟩ ops = .ok (os, w₁) ∧ w₁.columnPosition ≤ 80 := by
  constructor
  · intro w s hcol hblank
    obtain ⟨w₁, older, line, hrun, hshows, hrows⟩ :=
      (shows_of_blank hcol hblank).writeBytes ((encodeUtf8 s).map shown)
    refine ⟨w₁, (writeString_eq w s).trans hrun, ?_, ?_⟩
    · rw [hshows.rows_eq, hrows]
      rfl
    · -- the last row of the screen is the last one of the text
      have hlast : (w.rows.take 24 ++ wrapped s).getLast? = some line := by
        rw [wrapped, ← hrows, List.getLast?_concat]
      have hne : wrapped s ≠ [] := wrap_ne_nil _ _ _
      rw [List.getLast?_append_of_ne_nil _ hne] at hlast
      rw [hlast, Option.map_some, hshows.column]
  · intro colorCode buffer ops
    refine machine.run_invariant (I := fun w => w.columnPosition ≤ 80) (fun w op hcol _ => ?_)
      (Nat.zero_le _) (machine.along_true _ _)
    obtain ⟨w₁, happly, hcol₁⟩ := apply_column hcol op
    exact ⟨(), w₁, map_eq_ok.mpr ⟨w₁, happly, rfl⟩, hcol₁⟩

/-- The writer of the kernel, on a screen that is empty. -/
def empty : Writer := ⟨0, 2, fun _ _ => ⟨0x20, 2⟩⟩

/-- Two lines on an empty screen. -/
theorem writer_refines_terminal_two_lines :
    ∃ w₁, empty.writeString ['a', '\n', 'b'] = .ok w₁ ∧
      w₁.rows = ((empty.rows.take 24 ++ [[0x61], [0x62]]).rtake 25).map pad ∧
      w₁.columnPosition = 1 := by
  have hbytes : (encodeUtf8 ['a', '\n', 'b']).map shown = [0x61, 0x0a, 0x62] := by decide
  have hwrapped : wrapped ['a', '\n', 'b'] = [[0x61], [0x62]] := by
    simp [wrapped, hbytes, wrap, List.splitOn, List.splitOnP_cons_eq_if_modifyHead, chunks_of_le]
  obtain ⟨w₁, hrun, hrows, hcol⟩ :=
    writer_refines_terminal.1 empty ['a', '\n', 'b'] rfl fun _ => rfl
  rw [hwrapped] at hrows hcol
  exact ⟨w₁, hrun, hrows, (Option.some.inj hcol).symm⟩

end Writer

end SilOS.Screen
