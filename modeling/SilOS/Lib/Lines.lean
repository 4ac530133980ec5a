/-
# Texts and their lines

A text is a list over some alphabet in which one letter `x` separates the lines.  The lines
`ls` and the text `[x].intercalate ls` determine each other as long as no line contains `x`.
A position in the text is given by what stands before it, and its row and its column can be
read off that part: the row is the number of separators, the column is the number of letters
after the last of them.
-/
import Mathlib

namespace Lib

universe u

variable {α : Type u}

/-- The lines `ls`, each with a separator after it. -/
def closeLines (x : α) (ls : List (List α)) : List α := ls.flatMap fun l => l ++ [x]

/-- The lines `ls`, each with a separator before it. -/
def openLines (x : α) (ls : List (List α)) : List α := ls.flatMap fun l => x :: l

/-- The offset at which the line `y` starts, if one separator stands after each line. -/
def lineStart (ls : List (List α)) (y : ℕ) : ℕ := ((ls.take y).map fun l => l.length + 1).sum

/-- The row of the position after `s`. -/
def row [DecidableEq α] (x : α) (s : List α) : ℕ := s.count x

/-- The column of the position after `s`. -/
def column [DecidableEq α] (x : α) (s : List α) : ℕ := (s.reverse.takeWhile (· ≠ x)).length

variable {x : α} {pre post ls : List (List α)} {a l : List α}

@[simp] lemma closeLines_nil (x : α) : closeLines x [] = [] := rfl

lemma closeLines_append_singleton (x : α) (pre : List (List α)) (l : List α) :
    closeLines x (pre ++ [l]) = closeLines x pre ++ l ++ [x] := by
  simp [closeLines]

@[simp] lemma openLines_nil (x : α) : openLines x [] = [] := rfl

@[simp] lemma openLines_cons (x : α) (l : List α) (post : List (List α)) :
    openLines x (l :: post) = x :: (l ++ openLines x post) := by
  simp [openLines]

lemma intercalate_cons_eq (x : α) (l : List α) (post : List (List α)) :
    [x].intercalate (l :: post) = l ++ openLines x post := by
  induction post generalizing l with
  | nil => simp
  | cons l' post ih => simp [ih]

/-- The text around a line: closed lines before it, opened lines after it. -/
lemma intercalate_append_cons (x : α) (pre : List (List α)) (l : List α)
    (post : List (List α)) :
    [x].intercalate (pre ++ l :: post) = closeLines x pre ++ (l ++ openLines x post) := by
  induction pre with
  | nil => simp [intercalate_cons_eq]
  | cons l' pre ih =>
      rw [List.cons_append, List.intercalate_cons_of_ne_nil (by simp), ih]
      simp [closeLines]

lemma lineStart_append (x : α) (pre rest : List (List α)) :
    lineStart (pre ++ rest) pre.length = (closeLines x pre).length := by
  simp [lineStart, closeLines, List.length_flatMap]

variable [DecidableEq α]

lemma row_closeLines_append (hpre : ∀ l ∈ pre, x ∉ l) (ha : x ∉ a) :
    row x (closeLines x pre ++ a) = pre.length := by
  rw [row, List.count_append, List.count_eq_zero.mpr ha]
  induction pre with
  | nil => rfl
  | cons l pre ih =>
      have hl : l.count x = 0 := List.count_eq_zero.mpr (hpre l (by simp))
      have hrest := ih fun l' hl' => hpre l' (by simp [hl'])
      simp only [closeLines, List.flatMap_cons, List.count_append, List.count_singleton_self,
        List.length_cons] at hrest ⊢
      omega

/-- What is read back from the last separator on is the part of the last line. -/
lemma column_closeLines_append (pre : List (List α)) (ha : x ∉ a) :
    column x (closeLines x pre ++ a) = a.length := by
  have hall : ∀ c ∈ a.reverse, (decide (c ≠ x)) = true := by
    intro c hc
    rw [decide_eq_true_eq]
    rintro rfl
    exact ha (List.mem_reverse.mp hc)
  rw [column, List.reverse_append, List.takeWhile_append_of_pos hall, List.length_append,
    List.length_reverse]
  -- before the part stands a separator or nothing, so nothing more is taken
  rcases List.eq_nil_or_concat pre with rfl | ⟨pre', l, rfl⟩
  · simp
  · simp [closeLines_append_singleton]

/-! ### The lines of a string

The line ending of a string is a newline with an optional carriage return before it, and the
last line need not have one. -/

/-- A line without the carriage return of its line ending. -/
def stripCr (s : List Char) : List Char := if s.getLast? = some '\r' then s.dropLast else s

/-- The lines of a string of which the part `cur` of a line has been read. -/
def linesFrom : List Char → List Char → List (List Char)
  | cur, [] => if cur = [] then [] else [cur]
  | cur, c :: s => if c = '\n' then stripCr cur :: linesFrom [] s else linesFrom (cur ++ [c]) s

/-- The lines of a string. -/
def lines (s : List Char) : List (List Char) := linesFrom [] s

lemma mem_of_mem_stripCr {s : List Char} {c : Char} (h : c ∈ stripCr s) : c ∈ s := by
  rw [stripCr] at h
  split_ifs at h
  · exact List.mem_of_mem_dropLast h
  · exact h

lemma mem_linesFrom {cur s l : List Char} {c : Char} (hcur : ∀ d ∈ cur, d ≠ '\n')
    (hl : l ∈ linesFrom cur s) (hc : c ∈ l) : (c ∈ cur ∨ c ∈ s) ∧ c ≠ '\n' := by
  induction s generalizing cur with
  | nil =>
      rw [linesFrom] at hl
      split_ifs at hl with hnil
      · exact absurd hl (by simp)
      · obtain rfl := List.mem_singleton.mp hl
        exact ⟨.inl hc, hcur c hc⟩
  | cons d s ih =>
      rw [linesFrom] at hl
      split_ifs at hl with hd
      · rcases List.mem_cons.mp hl with rfl | hl
        · have hmem := mem_of_mem_stripCr hc
          exact ⟨.inl hmem, hcur c hmem⟩
        · obtain ⟨h, hne⟩ := ih (by simp) hl
          exact ⟨.inr (List.mem_cons_of_mem d (h.resolve_left (by simp))), hne⟩
      · have hcur' : ∀ e ∈ cur ++ [d], e ≠ '\n' := by
          intro e he
          rcases List.mem_append.mp he with he | he
          · exact hcur e he
          · rw [List.mem_singleton.mp he]
            exact hd
        obtain ⟨h, hne⟩ := ih hcur' hl
        refine ⟨?_, hne⟩
        simp only [List.mem_append, List.mem_cons] at h ⊢
        tauto

/-- The letters of a line are letters of the string, and none of them is a newline. -/
theorem mem_lines {s l : List Char} {c : Char} (hl : l ∈ lines s) (hc : c ∈ l) :
    c ∈ s ∧ c ≠ '\n' := by
  obtain ⟨h, hne⟩ := mem_linesFrom (by simp) hl hc
  exact ⟨h.resolve_left (by simp), hne⟩

/-! The lines of a string without carriage returns give it back, up to a newline at its end. -/

/-- A string without the newline at its end. -/
def stripNewline (s : List Char) : List Char := if s.getLast? = some '\n' then s.dropLast else s

lemma stripNewline_cons {c : Char} {s : List Char} (h : c ≠ '\n' ∨ s ≠ []) :
    stripNewline (c :: s) = c :: stripNewline s := by
  cases s with
  | nil => simp [stripNewline, h.resolve_right (by simp)]
  | cons d s =>
      simp only [stripNewline, List.getLast?_cons_cons, List.dropLast_cons_cons]
      split_ifs <;> rfl

lemma stripNewline_eq_self_iff {s : List Char} :
    stripNewline s = s ↔ s.getLast? ≠ some '\n' := by
  rw [stripNewline]
  split_ifs with h
  · have hne : s ≠ [] := by
      rintro rfl
      exact absurd h (by simp)
    have hlen : s.dropLast.length ≠ s.length := by
      have := List.length_pos_iff.mpr hne
      rw [List.length_dropLast]
      omega
    exact iff_of_false (fun heq => hlen (congrArg List.length heq)) (not_not.mpr h)
  · exact iff_of_true rfl h

lemma linesFrom_ne_nil {cur s : List Char} (h : cur ≠ [] ∨ s ≠ []) : linesFrom cur s ≠ [] := by
  induction s generalizing cur with
  | nil => simpa [linesFrom] using h
  | cons c s ih =>
      rw [linesFrom]
      split_ifs
      · simp
      · exact ih (.inl (by simp))

lemma intercalate_linesFrom {cur s : List Char} (hcur : '\r' ∉ cur) (hs : '\r' ∉ s) :
    List.intercalate ['\n'] (linesFrom cur s) = cur ++ stripNewline s := by
  induction s generalizing cur with
  | nil =>
      rw [linesFrom]
      split_ifs with hnil
      · simp [hnil, stripNewline]
      · simp [stripNewline]
  | cons c s ih =>
      have hs' : '\r' ∉ s := fun h => hs (List.mem_cons_of_mem c h)
      rw [linesFrom]
      split_ifs with hc
      · subst hc
        have hstrip : stripCr cur = cur := by
          rw [stripCr, if_neg fun h => hcur (List.mem_of_getLast? h)]
        rw [hstrip]
        by_cases hnil : s = []
        · subst hnil
          simp [linesFrom, stripNewline]
        · rw [List.intercalate_cons_of_ne_nil (linesFrom_ne_nil (.inr hnil)), ih (by simp) hs',
            stripNewline_cons (.inr hnil)]
          simp
      · have hcur' : '\r' ∉ cur ++ [c] := by
          rw [List.mem_append, List.mem_singleton]
          rintro (h | h)
          · exact hcur h
          · exact hs (h ▸ List.mem_cons_self)
        rw [ih hcur' hs', stripNewline_cons (.inl hc)]
        simp

/-- **Lines joined again.**  The newline at the end of the string is the only thing lost. -/
theorem intercalate_lines {s : List Char} (h : '\r' ∉ s) :
    List.intercalate ['\n'] (lines s) = stripNewline s := by
  rw [lines, intercalate_linesFrom (by simp) h, List.nil_append]

end Lib
