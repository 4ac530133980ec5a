/-
# The words of a string

A word is a longest part of a string without white space.
-/
import Mathlib

namespace Lib

/-- `char::is_whitespace`: the characters with the Unicode property `White_Space`. -/
def isWhitespace (c : Char) : Bool :=
  let n := c.toNat
  (0x09 ≤ n && n ≤ 0x0D) || n == 0x20 || n == 0x85 || n == 0xA0 || n == 0x1680 ||
    (0x2000 ≤ n && n ≤ 0x200A) || n == 0x2028 || n == 0x2029 || n == 0x202F || n == 0x205F ||
    n == 0x3000

/-- The words of a string of which the part `cur` of a word has been read. -/
def wordsFrom : List Char → List Char → List (List Char)
  | cur, [] => if cur = [] then [] else [cur]
  | cur, c :: s =>
      if isWhitespace c then
        if cur = [] then wordsFrom [] s else cur :: wordsFrom [] s
      else wordsFrom (cur ++ [c]) s

/-- `str::split_whitespace`. -/
def words (s : List Char) : List (List Char) := wordsFrom [] s

/-- `str::trim`. -/
def trim (s : List Char) : List Char :=
  ((s.dropWhile isWhitespace).reverse.dropWhile isWhitespace).reverse

lemma mem_wordsFrom {cur s w : List Char} (hcur : ∀ c ∈ cur, isWhitespace c = false)
    (hw : w ∈ wordsFrom cur s) : w ≠ [] ∧ ∀ c ∈ w, isWhitespace c = false := by
  induction s generalizing cur with
  | nil =>
      rw [wordsFrom] at hw
      split_ifs at hw with hnil
      · exact absurd hw (by simp)
      · obtain rfl := List.mem_singleton.mp hw
        exact ⟨hnil, hcur⟩
  | cons c s ih =>
      rw [wordsFrom] at hw
      split_ifs at hw with hc hnil
      · exact ih (by simp) hw
      · rcases List.mem_cons.mp hw with rfl | hw
        · exact ⟨hnil, hcur⟩
        · exact ih (by simp) hw
      · refine ih (fun d hd => ?_) hw
        rcases List.mem_append.mp hd with hd | hd
        · exact hcur d hd
        · rw [List.mem_singleton.mp hd]
          simpa using hc

/-- A word is not empty and has no white space in it. -/
theorem mem_words {s w : List Char} (hw : w ∈ words s) :
    w ≠ [] ∧ ∀ c ∈ w, isWhitespace c = false :=
  mem_wordsFrom (by simp) hw

/-- There is nothing to trim from a string without white space. -/
lemma trim_eq_self {s : List Char} (h : ∀ c ∈ s, isWhitespace c = false) : trim s = s := by
  have hdrop : ∀ t : List Char, (∀ c ∈ t, isWhitespace c = false) →
      t.dropWhile isWhitespace = t := by
    intro t ht
    cases t with
    | nil => rfl
    | cons c t => exact List.dropWhile_cons_of_neg (by simp [ht c (by simp)])
  rw [trim, hdrop s h, hdrop s.reverse fun c hc => h c (List.mem_reverse.mp hc),
    List.reverse_reverse]

end Lib
