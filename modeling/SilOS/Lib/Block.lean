/-
# Lists stored in blocks

A list stored in consecutive blocks of `B` elements: the blocks hold its pieces in order, the
last one possibly with something else behind its piece.  Joining the blocks and cutting to
the length of the list gives the list back.
-/
import Mathlib

namespace Lib

variable {β : Type*}

/-- The `i`-th piece of `l`, for blocks of `B` elements. -/
def piece (B : ℕ) (l : List β) (i : ℕ) : List β := (l.drop (i * B)).take B

lemma length_piece (B : ℕ) (l : List β) (i : ℕ) :
    (piece B l i).length = min B (l.length - i * B) := by
  simp [piece]

lemma piece_drop (B : ℕ) (l : List β) (i : ℕ) : piece B (l.drop B) i = piece B l (i + 1) := by
  rw [piece, piece, List.drop_drop, Nat.succ_mul, Nat.add_comm]

lemma length_flatMap_blocks {B n : ℕ} {f : ℕ → List β} (hlen : ∀ i < n, (f i).length = B) :
    ((List.range n).flatMap f).length = n * B := by
  rw [List.length_flatMap]
  have : (List.range n).map (fun i => (f i).length) = (List.range n).map (fun _ => B) :=
    List.map_congr_left (fun i hi => hlen i (List.mem_range.mp hi))
  rw [this]
  simp

/-- The blocks of the elements of a list, by position. -/
lemma flatMap_eq_flatMap_range {α : Type*} (l : List α) (z : α) (f : α → List β) :
    l.flatMap f = (List.range l.length).flatMap fun i => f (l.getD i z) := by
  rw [List.flatMap_def, List.flatMap_def]
  congr 1
  apply List.ext_getElem
  · simp
  · intro i h₁ h₂
    have hi : i < l.length := by simpa using h₁
    rw [List.getElem_map, List.getElem_map, List.getElem_range, List.getD_eq_getElem _ _ hi]

/-- Blocks that begin with the pieces of `l`, joined and cut to the length of `l`. -/
lemma take_flatMap_blocks {B n : ℕ} {f : ℕ → List β} {l : List β}
    (hlen : ∀ i < n, (f i).length = B)
    (hpiece : ∀ i < n, (f i).take (piece B l i).length = piece B l i)
    (hl : l.length ≤ n * B) : ((List.range n).flatMap f).take l.length = l := by
  induction n generalizing f l with
  | zero =>
      have : l = [] := List.eq_nil_of_length_eq_zero (by omega)
      subst this
      rfl
  | succ n ih =>
      rw [List.range_succ_eq_map, List.flatMap_cons, List.flatMap_map, List.take_append,
        hlen 0 (by omega)]
      have h0 := hpiece 0 (by omega)
      rw [length_piece, Nat.zero_mul, Nat.sub_zero] at h0
      by_cases hB : l.length ≤ B
      · -- the list ends inside the first block
        rw [min_eq_right hB] at h0
        rw [h0, piece, Nat.zero_mul, List.drop_zero, List.take_of_length_le hB,
          show l.length - B = 0 by omega, List.take_zero, List.append_nil]
      · rw [min_eq_left (by omega)] at h0
        have hfirst : (f 0).take l.length = l.take B := by
          rw [List.take_of_length_le (by rw [hlen 0 (by omega)]; omega)]
          rw [List.take_of_length_le (by rw [hlen 0 (by omega)])] at h0
          rw [h0, piece, Nat.zero_mul, List.drop_zero]
        have hrest := ih (f := fun i => f (i + 1)) (l := l.drop B)
          (fun i hi => hlen (i + 1) (by omega))
          (fun i hi => by rw [piece_drop]; exact hpiece (i + 1) (by omega))
          (by rw [List.length_drop]; rw [Nat.succ_mul] at hl; omega)
        rw [List.length_drop] at hrest
        rw [hfirst]
        have hrest' : ((List.range n).flatMap fun a => f a.succ).take (l.length - B) = l.drop B :=
          hrest
        rw [hrest', List.take_append_drop]

/-- Blocks filled with the pieces of a list at least as long, joined. -/
lemma flatMap_blocks_eq_take {B n : ℕ} {f : ℕ → List β} {l : List β}
    (hlen : ∀ i < n, (f i).length = B) (hpiece : ∀ i < n, f i = piece B l i)
    (hl : n * B ≤ l.length) : (List.range n).flatMap f = l.take (n * B) := by
  have htake : (l.take (n * B)).length = n * B := by simp [hl]
  have h := take_flatMap_blocks (l := l.take (n * B)) hlen ?_ (by rw [htake])
  · rwa [htake, List.take_of_length_le (by rw [length_flatMap_blocks hlen])] at h
  · intro i hi
    have hi' : (i + 1) * B ≤ n * B := Nat.mul_le_mul_right B (by omega)
    have hp : piece B (l.take (n * B)) i = piece B l i := by
      rw [piece, piece, List.drop_take, List.take_take, min_eq_left]
      rw [Nat.succ_mul] at hi'
      omega
    rw [hp, ← hpiece i hi]
    simp

end Lib
