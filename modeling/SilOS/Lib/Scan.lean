/-
# Nested scans

A scan with an early return is `List.findSome?`.  A scan over the rows of a table that scans
each row is a scan over the cells of the table in order; this file states that and says which
cell the scan over a range stops at.
-/
import Mathlib

namespace Lib

variable {β : Type*}

/-- A scan of `n` rows of `m` cells is a scan of `n * m` cells. -/
lemma findSome?_range_mul {m : ℕ} (hm : 0 < m) (n : ℕ) (f : ℕ → ℕ → Option β) :
    (List.range n).findSome? (fun s => (List.range m).findSome? (f s)) =
      (List.range (n * m)).findSome? fun j => f (j / m) (j % m) := by
  induction n with
  | zero => simp
  | succ n ih =>
      have hrow : ∀ l : List ℕ, (∀ i ∈ l, i < m) →
          l.findSome? (f n) =
            (l.map (n * m + ·)).findSome? fun j => f (j / m) (j % m) := by
        intro l hl
        induction l with
        | nil => rfl
        | cons i l ihl =>
            have hi : i < m := hl i (by simp)
            have hdiv : (n * m + i) / m = n := by
              rw [Nat.add_comm, Nat.add_mul_div_right _ _ hm, Nat.div_eq_of_lt hi, Nat.zero_add]
            have hmod : (n * m + i) % m = i := by
              rw [Nat.add_comm, Nat.add_mul_mod_self_right, Nat.mod_eq_of_lt hi]
            rw [List.map_cons, List.findSome?_cons, List.findSome?_cons, hdiv, hmod,
              ihl (fun j hj => hl j (by simp [hj]))]
      rw [List.range_succ, List.findSome?_append, ih, List.findSome?_cons, List.findSome?_nil,
        hrow (List.range m) (fun i hi => List.mem_range.mp hi), Nat.succ_mul, List.range_add,
        List.findSome?_append]
      congr 1
      cases (List.map (n * m + ·) (List.range m)).findSome? fun j => f (j / m) (j % m) <;> rfl

/-- Two scans of a range with the same body. -/
lemma findSome?_range_congr {n : ℕ} {f g : ℕ → Option β} (h : ∀ j < n, f j = g j) :
    (List.range n).findSome? f = (List.range n).findSome? g := by
  induction n with
  | zero => rfl
  | succ n ih =>
      rw [List.range_succ, List.findSome?_append, List.findSome?_append,
        ih (fun j hj => h j (by omega)), List.findSome?_cons, List.findSome?_cons, h n (by omega)]
      rfl

/-- A scan that returns a value computed from the first element with a property. -/
lemma findSome?_ite {α : Type*} (p : α → Prop) [DecidablePred p] (g : α → β) (l : List α) :
    l.findSome? (fun x => if p x then some (g x) else none) =
      (l.find? fun x => decide (p x)).map g := by
  induction l with
  | nil => rfl
  | cons x l ih =>
      by_cases hx : p x
      · simp [hx]
      · simp [hx, ih]

/-- A scan that gives up at the first element with `stop`, passes over those with `skip`, and
returns a value computed from the first other element with `hit`. -/
lemma join_findSome?_stop {α : Type*} (stop skip hit : α → Prop) [DecidablePred stop]
    [DecidablePred skip] [DecidablePred hit] (g : α → β) (l : List α) :
    (l.findSome? fun x => if stop x then some none else if skip x then none
      else if hit x then some (some (g x)) else none).join =
      ((l.takeWhile fun x => ¬ stop x).find? fun x => decide (¬ skip x ∧ hit x)).map g := by
  induction l with
  | nil => rfl
  | cons x l ih =>
      by_cases hstop : stop x
      · simp [hstop]
      · by_cases hskip : skip x
        · simpa [hstop, hskip] using ih
        · by_cases hhit : hit x
          · simp [hstop, hskip, hhit]
          · simpa [hstop, hskip, hhit] using ih

/-- The scan of a range stops at the first cell where the body returns. -/
lemma findSome?_range_eq_some {n : ℕ} {f : ℕ → Option β} {b : β} :
    (List.range n).findSome? f = some b ↔
      ∃ j < n, f j = some b ∧ ∀ i < j, f i = none := by
  induction n with
  | zero => simp
  | succ n ih =>
      rw [List.range_succ, List.findSome?_append]
      cases hn : (List.range n).findSome? f with
      | some c =>
          rw [hn] at ih
          simp only [Option.some_or]
          rw [ih]
          constructor
          · rintro ⟨j, hj, h⟩
            exact ⟨j, by omega, h⟩
          · -- the first hit cannot be the new last index, since there is an earlier one
            rintro ⟨j, hj, hfj, hmin⟩
            obtain ⟨i, hi, hfi⟩ : ∃ i < n, f i = some c := by
              obtain ⟨i, hi, hfi⟩ := List.exists_of_findSome?_eq_some hn
              exact ⟨i, List.mem_range.mp hi, hfi⟩
            have hji : j ≤ i := by
              by_contra hlt
              rw [hmin i (by omega)] at hfi
              exact absurd hfi (by simp)
            exact ⟨j, by omega, hfj, hmin⟩
      | none =>
          simp only [Option.none_or, List.findSome?_cons, List.findSome?_nil]
          have hnone : ∀ i < n, f i = none := by
            intro i hi
            exact List.findSome?_eq_none_iff.mp hn i (List.mem_range.mpr hi)
          constructor
          · intro h
            refine ⟨n, by omega, ?_, hnone⟩
            cases hf : f n with
            | none => rw [hf] at h; exact absurd h (by simp)
            | some c => rw [hf] at h; simpa using h
          · rintro ⟨j, hj, hfj, -⟩
            have hjn : j = n := by
              by_contra hne
              rw [hnone j (by omega)] at hfj
              exact absurd hfj (by simp)
            subst hjn
            rw [hfj]

lemma findSome?_range_eq_none {n : ℕ} {f : ℕ → Option β} :
    (List.range n).findSome? f = none ↔ ∀ j < n, f j = none := by
  simp [List.findSome?_eq_none_iff]

/-- A loop over a range that is left at the index `k`. -/
lemma takeWhile_range_lt (n k : ℕ) :
    (List.range n).takeWhile (fun i => i < k) = List.range (min n k) := by
  induction n with
  | zero => simp
  | succ n ih =>
      rw [List.range_succ, List.takeWhile_append, ih]
      by_cases hn : n < k
      · rw [min_eq_left (by omega : n ≤ k), min_eq_left (by omega : n + 1 ≤ k), if_pos rfl,
          List.range_succ]
        simp [hn]
      · rw [min_eq_right (by omega : k ≤ n + 1)]
        split_ifs with hlen
        · simp only [List.length_range] at hlen
          have hkn : k = n := by omega
          subst hkn
          simp
        · rw [min_eq_right (by omega : k ≤ n)]

end Lib
