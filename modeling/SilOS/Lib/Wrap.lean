/-
# Wrapped lines

Text broken into rows of a fixed width: a separator ends a row, and a row that is full ends when
one more element arrives.  `wrap` says which rows these are for a whole text; `wrap_concat` and
`wrap_concat_sep` say how they change when the text grows at its end.
-/
import Mathlib

namespace Lib

universe u

variable {α : Type u}

/-- A line cut into rows of `n` elements; an empty line is one empty row. -/
def chunks (n : ℕ) (l : List α) : List (List α) :=
  if 0 < n ∧ n < l.length then l.take n :: chunks n (l.drop n) else [l]
termination_by l.length

/-- The rows of a text: its lines between separators, each cut into rows of `n` elements. -/
def wrap [BEq α] (sep : α) (n : ℕ) (l : List α) : List (List α) :=
  (l.splitOn sep).flatMap (chunks n)

/-- One more element at the end of the last row, or in a new one. -/
def addTo (n : ℕ) : List (List α) → α → List (List α)
  | [], a => [[a]]
  | [row], a => if row.length < n then [row ++ [a]] else [row, [a]]
  | row :: row' :: rows, a => row :: addTo n (row' :: rows) a

variable {n : ℕ} {l : List α} {a : α}

lemma chunks_of_le (h : l.length ≤ n) : chunks n l = [l] := by
  rw [chunks, if_neg (by omega)]

lemma chunks_of_lt (hn : 0 < n) (h : n < l.length) :
    chunks n l = l.take n :: chunks n (l.drop n) := by
  rw [chunks, if_pos ⟨hn, h⟩]

lemma chunks_ne_nil (n : ℕ) (l : List α) : chunks n l ≠ [] := by
  rw [chunks]
  split_ifs <;> simp

lemma addTo_cons_of_ne {rows : List (List α)} (h : rows ≠ []) (row : List α) (a : α) :
    addTo n (row :: rows) a = row :: addTo n rows a := by
  cases rows with
  | nil => exact absurd rfl h
  | cons row' rows => rfl

lemma addTo_append {rows : List (List α)} (h : rows ≠ []) (front : List (List α)) (a : α) :
    addTo n (front ++ rows) a = front ++ addTo n rows a := by
  induction front with
  | nil => rfl
  | cons row front ih =>
      rw [List.cons_append, addTo_cons_of_ne (by simp [h]), ih, List.cons_append]

/-- The last row takes the element if it is not full. -/
lemma addTo_concat (front : List (List α)) (row : List α) (a : α) :
    addTo n (front ++ [row]) a =
      if row.length < n then front ++ [row ++ [a]] else front ++ [row] ++ [[a]] := by
  rw [addTo_append (by simp), addTo]
  split_ifs <;> simp

lemma chunks_concat (hn : 0 < n) (l : List α) (a : α) :
    chunks n (l ++ [a]) = addTo n (chunks n l) a := by
  fun_induction chunks n l with
  | case1 l hlt ih =>
      have hlen : n < (l ++ [a]).length := by
        rw [List.length_append]
        omega
      rw [chunks_of_lt hn hlen, List.take_append_of_le_length hlt.2.le,
        List.drop_append_of_le_length hlt.2.le, ih, addTo_cons_of_ne (chunks_ne_nil _ _)]
  | case2 l hle =>
      rw [addTo]
      split_ifs with hlt
      · exact chunks_of_le (by simpa using hlt)
      · -- the row is full
        have hlen : l.length = n := by omega
        rw [chunks_of_lt hn (by simp [hlen]), List.take_left' hlen, List.drop_left' hlen,
          chunks_of_le (Nat.succ_le_of_lt hn)]

section Wrap

variable [BEq α] [LawfulBEq α] {sep : α}

/-- An element that is no separator goes to the end of the last line. -/
lemma splitOn_concat (h : a ≠ sep) (l : List α) :
    ∃ front line, l.splitOn sep = front ++ [line] ∧
      (l ++ [a]).splitOn sep = front ++ [line ++ [a]] := by
  induction l with
  | nil => exact ⟨[], [], by simp, by simp [List.splitOn, List.splitOnP_cons_eq_if_modifyHead, h]⟩
  | cons c l ih =>
      obtain ⟨front, line, hl, hla⟩ := ih
      simp only [List.splitOn] at hl hla
      simp only [List.splitOn, List.cons_append, List.splitOnP_cons_eq_if_modifyHead, hl, hla]
      split_ifs
      · exact ⟨[] :: front, line, rfl, rfl⟩
      · cases front with
        | nil => exact ⟨[], c :: line, rfl, rfl⟩
        | cons first front => exact ⟨(c :: first) :: front, line, rfl, rfl⟩

omit [LawfulBEq α] in
lemma wrap_ne_nil (sep : α) (n : ℕ) (l : List α) : wrap sep n l ≠ [] := by
  obtain ⟨line, rest, hl⟩ := List.exists_cons_of_ne_nil (List.splitOn_ne_nil sep l)
  simp [wrap, hl, chunks_ne_nil]

lemma wrap_concat (hn : 0 < n) (h : a ≠ sep) (l : List α) :
    wrap sep n (l ++ [a]) = addTo n (wrap sep n l) a := by
  obtain ⟨front, line, hl, hla⟩ := splitOn_concat h l
  simp only [wrap, hl, hla, List.flatMap_append, List.flatMap_singleton]
  rw [chunks_concat hn, addTo_append (chunks_ne_nil _ _)]

lemma wrap_concat_sep (l : List α) : wrap sep n (l ++ [sep]) = wrap sep n l ++ [[]] := by
  rw [wrap, List.splitOn, List.splitOnP_append_cons l [] (by simp), List.flatMap_append]
  simp [wrap, List.splitOn, chunks_of_le]

end Wrap

end Lib
