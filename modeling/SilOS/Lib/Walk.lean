/-
# Walks in an arbitrary table of links

A table `next : α → α` whose links may form cycles, join each other or lead anywhere.  A walk from
`v` visits cells as long as `go` holds of them.  Nothing marks the cells that were visited, so on
a cycle a walk goes on for ever, unless it destroys the links it has followed: overwriting the link
of each cell that is left with a value where no walk goes ends every walk, and the cells visited
are the same (`visits_iff_update`).  The number of cells that can still be followed (`liveCells`)
goes down with each link that is overwritten.
-/
import SilOS.Lib.Chain

namespace Lib

variable {α : Type*} {next : α → α} {go : α → Prop} {v x z : α}

/-- The cells that a walk from `v` visits. -/
inductive Visits (next : α → α) (go : α → Prop) (v : α) : α → Prop
  | start (hv : go v) : Visits next go v v
  | step {x : α} (hx : Visits next go v x) (hnext : go (next x)) : Visits next go v (next x)

lemma not_visits (hv : ¬ go v) : ¬ Visits next go v x := by
  intro hx
  induction hx with
  | start h => exact hv h
  | step _ _ ih => exact ih

/-- A walk that does not pass an end stays on its chain. -/
lemma Leads.mem_of_visits {stop : α → Prop} {l : List α} (h : Leads next stop v l)
    (hgo : ∀ x, go x → ¬ stop x) (hx : Visits next go v x) : x ∈ l := by
  induction hx with
  | start hv =>
      cases l with
      | nil => exact absurd h (hgo v hv)
      | cons y l => exact h.1 ▸ List.mem_cons_self
  | step _ hnext ih => exact (h.next_mem ih).resolve_left (hgo _ hnext)

/-- **Overwriting the link that was just followed** does not change which cells are visited. -/
lemma visits_iff_update [DecidableEq α] (hz : ¬ go z) (hv : go v) :
    Visits next go v x ↔ x = v ∨ Visits (Function.update next v z) go (next v) x := by
  constructor
  · intro hx
    induction hx with
    | start _ => exact Or.inl rfl
    | @step x hx hnext ih =>
        by_cases hxv : x = v
        · subst hxv
          exact Or.inr (.start hnext)
        · have hstep := ih.resolve_left hxv
          have hsame : Function.update next v z x = next x := Function.update_of_ne hxv _ _
          rw [← hsame] at hnext ⊢
          exact Or.inr (hstep.step hnext)
  · rintro (rfl | hx)
    · exact .start hv
    · induction hx with
      | start hnext => exact (Visits.start hv).step hnext
      | @step x hx hnext ih =>
          by_cases hxv : x = v
          · -- back at the start, where the walk in the new table ends
            rw [hxv, Function.update_self] at hnext
            exact absurd hnext hz
          · rw [Function.update_of_ne hxv] at hnext ⊢
            exact ih.step hnext

/-! ### Termination -/

section LiveCells

variable [Fintype α] [DecidableEq α] [DecidablePred go]

/-- The number of cells that a walk can follow to something else than `z`. -/
def liveCells (next : α → α) (go : α → Prop) [DecidablePred go] (z : α) : ℕ :=
  (Finset.univ.filter fun x => go x ∧ next x ≠ z).card

lemma liveCells_update_lt (hv : go v) (hnext : next v ≠ z) :
    liveCells (Function.update next v z) go z < liveCells next go z := by
  apply Finset.card_lt_card
  refine Finset.ssubset_iff_of_subset ?_ |>.mpr ⟨v, by simp [hv, hnext], by simp⟩
  intro x hx
  rw [Finset.mem_filter] at hx ⊢
  by_cases hxv : x = v
  · rw [hxv, Function.update_self] at hx
    exact absurd rfl hx.2.2
  · rwa [Function.update_of_ne hxv] at hx

lemma liveCells_lt_card (hx : ¬ go x) : liveCells next go z < Fintype.card α := by
  apply Finset.card_lt_univ_of_notMem (x := x)
  simp [hx]

end LiveCells

/-- The cells before the first one where a walk stops are different. -/
lemma le_card_of_iterate [Fintype α] {stop : α → Prop} {n : ℕ}
    (hgo : ∀ i < n, ¬ stop (next^[i] v)) (hstop : stop (next^[n] v)) : n ≤ Fintype.card α := by
  have hinj : Function.Injective fun i : Fin n => next^[i] v := by
    intro i j hij
    by_contra hne
    wlog hlt : i < j generalizing i j
    · exact this hij.symm (Ne.symm hne) (lt_of_le_of_ne (not_lt.mp hlt) (Ne.symm hne))
    -- the walk from the earlier cell is the walk from the later one, so it stops earlier
    have hshift : next^[n - j + i] v = next^[n] v := by
      rw [Function.iterate_add_apply]
      simp only at hij
      rw [hij, ← Function.iterate_add_apply, Nat.sub_add_cancel j.isLt.le]
    have hearly : n - j + i < n := by
      have := j.isLt
      omega
    exact hgo _ hearly (hshift ▸ hstop)
  simpa using Fintype.card_le_of_injective _ hinj

end Lib
