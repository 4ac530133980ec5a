/-
# Chains in a table of links

A table `next : α → α` links each cell to the next one of its chain; a chain ends at a link
that satisfies `stop`.  `Leads next stop v l` says that the value `v` leads through the cells
`l`, in order, to a stop.

Three operations on tables are studied: appending to a chain (`link`), clearing the cells of
a chain (`clear`), and listing the cells that carry a given mark (`vacant`), which is how an
allocator finds its free cells.
-/
import Mathlib

namespace Lib

variable {α : Type*}

/-- Following the links from the value `v` visits the cells `l` and then stops. -/
def Leads (next : α → α) (stop : α → Prop) : α → List α → Prop
  | v, [] => stop v
  | v, x :: l => v = x ∧ ¬ stop x ∧ Leads next stop (next x) l

section Leads

variable {next next' : α → α} {stop : α → Prop} {v x : α} {l l₁ l₂ : List α}

/-- The cells a value leads through are determined by the table. -/
lemma Leads.unique (h₁ : Leads next stop v l₁) (h₂ : Leads next stop v l₂) : l₁ = l₂ := by
  induction l₁ generalizing v l₂ with
  | nil =>
      cases l₂ with
      | nil => rfl
      | cons y l₂ =>
          obtain ⟨rfl, hy, -⟩ := h₂
          exact absurd h₁ hy
  | cons x l₁ ih =>
      obtain ⟨rfl, hx, h₁⟩ := h₁
      cases l₂ with
      | nil => exact absurd h₂ hx
      | cons y l₂ =>
          obtain ⟨rfl, -, h₂⟩ := h₂
          rw [ih h₁ h₂]

/-- A chain only depends on the links of its own cells. -/
lemma Leads.congr (h : Leads next stop v l) (heq : ∀ x ∈ l, next' x = next x) :
    Leads next' stop v l := by
  induction l generalizing v with
  | nil => exact h
  | cons x l ih =>
      obtain ⟨rfl, hx, h⟩ := h
      refine ⟨rfl, hx, ?_⟩
      rw [heq v (by simp)]
      exact ih h (fun y hy => heq y (by simp [hy]))

/-- A cell of a chain leads through the rest of the chain. -/
lemma Leads.suffix (h : Leads next stop v (l₁ ++ x :: l₂)) :
    Leads next stop x (x :: l₂) := by
  induction l₁ generalizing v with
  | nil =>
      obtain ⟨rfl, hx, h⟩ := h
      exact ⟨rfl, hx, h⟩
  | cons y l₁ ih => exact ih h.2.2

/-- Cells that are linked in order and end in a stop form a chain. -/
lemma leads_of_isChain (hfirst : l.head? = some v) (hl : ∀ x ∈ l, ¬ stop x)
    (hlinks : l.IsChain fun x y => next x = y) (hlast : ∀ x ∈ l.getLast?, stop (next x)) :
    Leads next stop v l := by
  induction l generalizing v with
  | nil => exact absurd hfirst (by simp)
  | cons x l ih =>
      obtain rfl : x = v := by simpa using hfirst
      refine ⟨rfl, hl x (by simp), ?_⟩
      cases l with
      | nil => exact hlast x (by simp)
      | cons y l =>
          obtain ⟨rfl, hlinks⟩ := List.isChain_cons_cons.mp hlinks
          exact ih rfl (fun z hz => hl z (by simp [hz])) hlinks
            (fun z hz => hlast z (by simpa using hz))

/-- The link of a cell of a chain is an end or another cell of the chain. -/
lemma Leads.next_mem (h : Leads next stop v l) (hx : x ∈ l) : stop (next x) ∨ next x ∈ l := by
  induction l generalizing v with
  | nil => exact absurd hx (by simp)
  | cons y l ih =>
      obtain ⟨rfl, -, h⟩ := h
      rcases List.mem_cons.mp hx with rfl | hx
      · cases l with
        | nil => exact Or.inl h
        | cons z l =>
            obtain ⟨hz, -, -⟩ := h
            exact Or.inr (by rw [hz]; simp)
      · rcases ih h hx with hs | hm
        · exact Or.inl hs
        · exact Or.inr (List.mem_cons_of_mem _ hm)

end Leads

variable [DecidableEq α]

/-! ### Linking cells into a chain -/

/-- The table in which the cells `l` are linked in order and the last one ends in `e`. -/
def link (next : α → α) (e : α) : List α → α → α
  | [] => next
  | x :: l => Function.update (link next e l) x (l.headD e)

section Link

variable {next : α → α} {stop : α → Prop} {e x c p : α} {l : List α}

lemma link_of_notMem (h : x ∉ l) : link next e l x = next x := by
  induction l with
  | nil => rfl
  | cons y l ih =>
      rw [List.mem_cons, not_or] at h
      rw [link, Function.update_of_ne h.1, ih h.2]

lemma link_mem (h : x ∈ l) (hnd : l.Nodup) : link next e l x ∈ e :: l := by
  induction l with
  | nil => exact absurd h (by simp)
  | cons y l ih =>
      obtain ⟨hy, hnd⟩ := List.nodup_cons.mp hnd
      by_cases hxy : x = y
      · subst hxy
        rw [link, Function.update_self]
        cases l with
        | nil => simp
        | cons z l => simp
      · have hx : x ∈ l := by simpa [hxy] using h
        rw [link, Function.update_of_ne hxy]
        have := ih hx hnd
        simp only [List.mem_cons] at this ⊢
        tauto

/-- Linked cells form a chain. -/
lemma leads_link (hnd : l.Nodup) (hl : ∀ x ∈ l, ¬ stop x) (he : stop e) :
    Leads (link next e l) stop (l.headD e) l := by
  induction l with
  | nil => exact he
  | cons x l ih =>
      obtain ⟨hx, hnd⟩ := List.nodup_cons.mp hnd
      refine ⟨rfl, hl x (by simp), ?_⟩
      rw [link, Function.update_self]
      refine (ih hnd (fun y hy => hl y (by simp [hy]))).congr ?_
      intro y hy
      have hyx : y ≠ x := fun h => hx (h ▸ hy)
      rw [Function.update_of_ne hyx]

/-- Appending a cell: the new cell ends the chain and the old last cell links to it. -/
lemma link_append (hnd : (l ++ [p, c]).Nodup) :
    link next e (l ++ [p, c]) =
      Function.update (Function.update (link next e (l ++ [p])) c e) p c := by
  induction l with
  | nil =>
      have hpc : p ≠ c := by simpa using hnd
      simp only [List.nil_append, link, List.headD_cons, List.headD_nil]
      funext y
      by_cases hyp : y = p
      · simp [hyp]
      · by_cases hyc : y = c
        · subst hyc
          simp [hyp]
        · simp [hyp, hyc]
  | cons x l ih =>
      rw [List.cons_append] at hnd
      obtain ⟨hx, hnd⟩ := List.nodup_cons.mp hnd
      have hxp : x ≠ p := fun h => hx (by simp [h])
      have hxc : x ≠ c := fun h => hx (by simp [h])
      have hhead : (l ++ [p, c]).headD e = (l ++ [p]).headD e := by cases l <;> rfl
      simp only [List.cons_append, link, hhead]
      rw [ih hnd]
      rw [Function.update_comm hxp.symm, Function.update_comm hxc.symm]

end Link

/-! ### Clearing cells -/

/-- The table in which the cells `l` carry `z`. -/
def clear (next : α → α) (z : α) (l : List α) : α → α := fun x => if x ∈ l then z else next x

lemma clear_nil (next : α → α) (z : α) : clear next z [] = next := by
  funext x
  simp [clear]

lemma clear_cons (next : α → α) (z : α) (x : α) (l : List α) :
    clear next z (x :: l) = clear (Function.update next x z) z l := by
  funext y
  by_cases hyl : y ∈ l
  · simp [clear, hyl]
  · by_cases hyx : y = x
    · simp [clear, hyx]
    · simp [clear, hyl, hyx]

/-! ### The cells that carry a mark -/

/-- The cells of the list `U` that carry the mark `z`, in the order of `U`. -/
def vacant (U : List α) (next : α → α) (z : α) : List α := U.filter fun x => next x = z

section Vacant

variable {U : List α} {next : α → α} {z v c x : α} {F : List α}

lemma mem_vacant : x ∈ vacant U next z ↔ x ∈ U ∧ next x = z := by
  simp [vacant]

lemma vacant_nodup (hU : U.Nodup) : (vacant U next z).Nodup := hU.filter _

/-- Linking the first cells that carry the mark leaves the mark on the others. -/
lemma vacant_link {e : α} {A R : List α} (hU : U.Nodup) (h : vacant U next z = A ++ R)
    (hz : z ∉ A) (he : e ≠ z) : vacant U (link next e A) z = R := by
  have hnd : (A ++ R).Nodup := h ▸ vacant_nodup hU
  have hA : A.Nodup := (List.nodup_append.mp hnd).1
  have hR : R = (vacant U next z).filter (fun x => x ∉ A) := by
    have hA0 : A.filter (fun x => decide (x ∉ A)) = [] := by
      rw [List.filter_eq_nil_iff]
      intro x hx
      simpa using hx
    have hR0 : R.filter (fun x => decide (x ∉ A)) = R := by
      rw [List.filter_eq_self]
      intro x hx
      have : x ∉ A := fun hxA => (List.nodup_append.mp hnd).2.2 x hxA x hx rfl
      simpa using this
    rw [h, List.filter_append, hA0, hR0, List.nil_append]
  rw [hR, vacant, vacant, List.filter_filter]
  apply List.filter_congr
  intro x _
  by_cases hxA : x ∈ A
  · have hmem : link next e A x ∈ e :: A := link_mem hxA hA
    have hne : link next e A x ≠ z := by
      rcases List.mem_cons.mp hmem with hxe | hxA'
      · rw [hxe]
        exact he
      · exact fun hxz => hz (hxz ▸ hxA')
    simp [hxA, hne]
  · simp [hxA, link_of_notMem hxA]

/-- Clearing cells that did not carry the mark adds them to those that do. -/
lemma length_vacant_clear {l : List α} (hU : U.Nodup) (hl : l.Nodup) (hlU : l ⊆ U)
    (hz : ∀ x ∈ l, next x ≠ z) :
    (vacant U (clear next z l) z).length = (vacant U next z).length + l.length := by
  have hdisj : (vacant U next z).Disjoint l :=
    fun x hx hxl => hz x hxl (mem_vacant.mp hx).2
  rw [← List.length_append]
  apply List.Perm.length_eq
  rw [List.perm_ext_iff_of_nodup (vacant_nodup hU)
    (List.nodup_append'.mpr ⟨vacant_nodup hU, hl, hdisj⟩)]
  intro x
  rw [List.mem_append, mem_vacant, mem_vacant, clear]
  by_cases hxl : x ∈ l
  · simp [hxl, hlU hxl]
  · simp [hxl]

end Vacant

end Lib
