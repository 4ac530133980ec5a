/-
# Ordered association lists

A finite map as the list of its entries in the order of the keys.  Looking a key up is
`List.lookup`.  The laws of looking up after an update hold for every list of entries, ordered
or not, so they need no invariant.
-/
import Mathlib

namespace Lib.Assoc

universe u v

variable {α : Type u} {β : Type v} [DecidableEq α]

section Insert

variable [LT α] [DecidableLT α]

/-- Bind `k` to `v`: the entry takes the place of that of `k`, or stands before the first larger
key. -/
def insert (k : α) (v : β) : List (α × β) → List (α × β)
  | [] => [(k, v)]
  | (k', v') :: m =>
      if k = k' then (k, v) :: m
      else if k < k' then (k, v) :: (k', v') :: m
      else (k', v') :: insert k v m

/-- Bind the keys of a list of entries one after the other. -/
def insertAll (m : List (α × β)) (entries : List (α × β)) : List (α × β) :=
  entries.foldl (fun m p => insert p.1 p.2 m) m

variable [BEq α] [LawfulBEq α] in
lemma lookup_insert_of_ne {k k' : α} (h : k' ≠ k) (v : β) (m : List (α × β)) :
    (insert k v m).lookup k' = m.lookup k' := by
  induction m with
  | nil => simp [insert, List.lookup_cons, beq_false_of_ne h]
  | cons p m ih =>
      obtain ⟨k'', v'⟩ := p
      rw [insert]
      split_ifs with heq hlt
      · subst heq
        simp [List.lookup_cons, beq_false_of_ne h]
      · simp [List.lookup_cons, beq_false_of_ne h]
      · simp only [List.lookup_cons, ih]

variable [BEq α] [LawfulBEq α] in
@[simp] lemma lookup_insert_self (k : α) (v : β) (m : List (α × β)) :
    (insert k v m).lookup k = some v := by
  induction m with
  | nil => simp [insert]
  | cons p m ih =>
      obtain ⟨k', v'⟩ := p
      rw [insert]
      split_ifs with heq hlt
      · simp
      · simp
      · simp only [List.lookup_cons, beq_false_of_ne heq, ih]

variable [BEq α] [LawfulBEq α] in
/-- The last entry of a key counts, or the value it had before. -/
lemma lookup_insertAll (k : α) (m entries : List (α × β)) :
    (insertAll m entries).lookup k = (entries.reverse.lookup k).or (m.lookup k) := by
  induction entries generalizing m with
  | nil => rfl
  | cons p entries ih =>
      refine (ih (insert p.1 p.2 m)).trans ?_
      rw [List.reverse_cons, List.lookup_append, Option.or_assoc]
      congr 1
      by_cases hk : k = p.1
      · subst hk
        rw [lookup_insert_self, List.lookup_cons_self]
        rfl
      · rw [lookup_insert_of_ne hk, List.lookup_cons, beq_false_of_ne hk]
        rfl

variable [BEq α] [LawfulBEq α] in
/-- A key that is not bound by the entries keeps its value. -/
lemma lookup_insertAll_of_notMem {k : α} {m entries : List (α × β)} (h : k ∉ entries.map Prod.fst) :
    (insertAll m entries).lookup k = m.lookup k := by
  induction entries generalizing m with
  | nil => rfl
  | cons p entries ih =>
      rw [List.map_cons, List.mem_cons, not_or] at h
      exact (ih h.2).trans (lookup_insert_of_ne h.1 p.2 m)

variable [BEq α] [LawfulBEq α] in
/-- A key that is bound by the entries gets the value of one of them. -/
lemma exists_lookup_insertAll {k : α} {m entries : List (α × β)} (h : k ∈ entries.map Prod.fst) :
    ∃ v, (k, v) ∈ entries ∧ (insertAll m entries).lookup k = some v := by
  induction entries generalizing m with
  | nil => exact absurd h (by simp)
  | cons p entries ih =>
      by_cases hk : k ∈ entries.map Prod.fst
      · obtain ⟨v, hv, hlookup⟩ := ih (m := insert p.1 p.2 m) hk
        exact ⟨v, List.mem_cons_of_mem p hv, hlookup⟩
      · obtain rfl : k = p.1 := by
          rw [List.map_cons, List.mem_cons] at h
          exact h.resolve_right hk
        refine ⟨p.2, List.mem_cons_self, ?_⟩
        exact (lookup_insertAll_of_notMem hk).trans (lookup_insert_self p.1 p.2 m)

lemma mem_of_mem_insert {k : α} {v : β} {m : List (α × β)} {p : α × β}
    (h : p ∈ insert k v m) : p = (k, v) ∨ p ∈ m := by
  induction m with
  | nil => exact Or.inl (by simpa [insert] using h)
  | cons q m ih =>
      obtain ⟨k', v'⟩ := q
      rw [insert] at h
      split_ifs at h
      · exact (List.mem_cons.mp h).imp_right (List.mem_cons_of_mem _)
      · exact List.mem_cons.mp h
      · rcases List.mem_cons.mp h with rfl | h
        · exact Or.inr (List.mem_cons_self)
        · exact (ih h).imp_right (List.mem_cons_of_mem _)

lemma mem_map_fst_insert {k k' : α} {v : β} {m : List (α × β)} :
    k' ∈ (insert k v m).map Prod.fst ↔ k' = k ∨ k' ∈ m.map Prod.fst := by
  induction m with
  | nil => simp [insert]
  | cons p m ih =>
      rw [insert]
      split_ifs with heq
      · simp [← heq]
      · simp
      · rw [List.map_cons, List.mem_cons, ih, List.map_cons, List.mem_cons]
        exact or_left_comm

lemma mem_map_fst_insertAll {k : α} {m entries : List (α × β)} :
    k ∈ (insertAll m entries).map Prod.fst ↔ k ∈ m.map Prod.fst ∨ k ∈ entries.map Prod.fst := by
  induction entries generalizing m with
  | nil => simp [insertAll]
  | cons p entries ih =>
      refine ih.trans ?_
      rw [mem_map_fst_insert, List.map_cons, List.mem_cons, or_assoc, or_left_comm]

lemma mem_of_mem_insertAll {m entries : List (α × β)} {p : α × β}
    (h : p ∈ insertAll m entries) : p ∈ entries ∨ p ∈ m := by
  induction entries generalizing m with
  | nil => exact Or.inr h
  | cons q entries ih =>
      rcases ih h with hp | hp
      · exact Or.inl (List.mem_cons_of_mem _ hp)
      · rcases mem_of_mem_insert hp with rfl | hp
        · exact Or.inl List.mem_cons_self
        · exact Or.inr hp

end Insert

/-- Drop the entry of `k`. -/
def remove (k : α) (m : List (α × β)) : List (α × β) := m.filter fun p => p.1 ≠ k

lemma mem_of_mem_remove {k : α} {m : List (α × β)} {p : α × β} (h : p ∈ remove k m) : p ∈ m :=
  List.mem_of_mem_filter h

omit [DecidableEq α] in
lemma mem_of_lookup [BEq α] [LawfulBEq α] {k : α} {v : β} {m : List (α × β)}
    (h : m.lookup k = some v) : (k, v) ∈ m := by
  obtain ⟨l₁, l₂, rfl, -⟩ := List.lookup_eq_some_iff.mp h
  simp

/-! ### Ordered lists -/

section Sorted

variable [LT α] [DecidableLT α]

/-- The keys are in strictly increasing order. -/
def Sorted (m : List (α × β)) : Prop := m.Pairwise fun p q => p.1 < q.1

/-- The entries with a key that is kept. -/
def restrict (keep : α → Bool) (m : List (α × β)) : List (α × β) := m.filter fun p => keep p.1

variable {k : α} {v : β} {m entries : List (α × β)} {keep : α → Bool}

omit [DecidableEq α] [DecidableLT α] in
lemma Sorted.restrict (h : Sorted m) (keep : α → Bool) : Sorted (restrict keep m) := h.filter _

omit [DecidableEq α] [LT α] [DecidableLT α] in
lemma restrict_cons (p : α × β) :
    restrict keep (p :: m) = if keep p.1 then p :: restrict keep m else restrict keep m :=
  List.filter_cons

/-- What is dropped does not matter for what is kept. -/
lemma restrict_insert_of_dropped (hk : keep k = false) :
    restrict keep (insert k v m) = restrict keep m := by
  induction m with
  | nil => simp [insert, restrict, hk]
  | cons p m ih =>
      obtain ⟨k', v'⟩ := p
      rw [insert]
      split_ifs with heq hlt
      · simp [restrict_cons, ← heq, hk]
      · simp [restrict_cons, hk]
      · simp only [restrict_cons, ih]

variable [IsStrictTotalOrder α (· < ·)]

omit [DecidableEq α] [DecidableLT α] in
lemma lt_of_not_lt {k k' : α} (hne : k ≠ k') (hlt : ¬ k < k') : k' < k := by
  by_contra h
  exact hne (Std.Trichotomous.trichotomous (r := (· < ·)) k k' hlt h)

omit [DecidableEq α] [DecidableLT α] in
/-- A key below all the others is not bound. -/
lemma lookup_of_forall_lt [BEq α] [LawfulBEq α] (h : ∀ p ∈ m, k < p.1) : m.lookup k = none := by
  refine List.lookup_eq_none_iff.mpr fun p hp => bne_iff_ne.mpr ?_
  rintro rfl
  exact Std.Irrefl.irrefl (r := (· < ·)) p.1 (h p hp)

omit [DecidableEq α] [DecidableLT α] in
lemma Sorted.lookup_of_lt_head [BEq α] [LawfulBEq α] {p : α × β} (h : Sorted (p :: m))
    (hk : k < p.1) : (p :: m).lookup k = none := by
  obtain ⟨hhead, -⟩ := List.pairwise_cons.mp h
  refine lookup_of_forall_lt (List.forall_mem_cons.mpr ⟨hk, fun q hq => ?_⟩)
  exact IsTrans.trans (r := (· < ·)) _ _ _ hk (hhead q hq)

lemma insert_of_lt (h : ∀ p ∈ m, k < p.1) : insert k v m = (k, v) :: m := by
  cases m with
  | nil => rfl
  | cons p m =>
      have hlt : k < p.1 := h p List.mem_cons_self
      have hne : k ≠ p.1 := fun heq => Std.Irrefl.irrefl (r := (· < ·)) p.1 (heq ▸ hlt)
      rw [insert, if_neg hne, if_pos hlt]

lemma Sorted.insert (h : Sorted m) (k : α) (v : β) : Sorted (insert k v m) := by
  induction m with
  | nil => simp [Sorted, Assoc.insert]
  | cons p m ih =>
      obtain ⟨k', v'⟩ := p
      obtain ⟨hhead, htail⟩ := List.pairwise_cons.mp h
      rw [Assoc.insert]
      split_ifs with heq hlt
      · subst heq
        exact List.pairwise_cons.mpr ⟨hhead, htail⟩
      · refine List.pairwise_cons.mpr ⟨fun q hq => ?_, h⟩
        rcases List.mem_cons.mp hq with rfl | hq
        · exact hlt
        · exact IsTrans.trans (r := (· < ·)) _ _ _ hlt (hhead q hq)
      · refine List.pairwise_cons.mpr ⟨fun q hq => ?_, ih htail⟩
        rcases mem_of_mem_insert hq with rfl | hq
        · exact lt_of_not_lt heq hlt
        · exact hhead q hq

lemma Sorted.insertAll (h : Sorted m) (entries : List (α × β)) : Sorted (insertAll m entries) := by
  induction entries generalizing m with
  | nil => exact h
  | cons p entries ih => exact ih (h.insert p.1 p.2)

/-- An entry that is kept is inserted among those that are kept.  In a list that is not ordered
its place could depend on an entry that is dropped. -/
lemma Sorted.restrict_insert (h : Sorted m) (hk : keep k = true) :
    Assoc.restrict keep (Assoc.insert k v m) = Assoc.insert k v (Assoc.restrict keep m) := by
  induction m with
  | nil => simp [Assoc.insert, Assoc.restrict, hk]
  | cons p m ih =>
      obtain ⟨k', v'⟩ := p
      obtain ⟨hhead, htail⟩ := List.pairwise_cons.mp h
      rw [Assoc.insert]
      split_ifs with heq hlt
      · subst heq
        simp [restrict_cons, hk, Assoc.insert]
      · have hall : ∀ q ∈ Assoc.restrict keep ((k', v') :: m), k < q.1 := by
          intro q hq
          rcases List.mem_cons.mp (List.mem_of_mem_filter hq) with rfl | hq
          · exact hlt
          · exact IsTrans.trans (r := (· < ·)) _ _ _ hlt (hhead q hq)
        rw [insert_of_lt hall, restrict_cons, if_pos hk]
      · rw [restrict_cons, restrict_cons, ih htail]
        split_ifs
        · rw [Assoc.insert, if_neg heq, if_neg hlt]
        · rfl

lemma Sorted.restrict_insertAll (h : Sorted m) :
    Assoc.restrict keep (Assoc.insertAll m entries) =
      Assoc.insertAll (Assoc.restrict keep m) (Assoc.restrict keep entries) := by
  induction entries generalizing m with
  | nil => rfl
  | cons p entries ih =>
      refine (ih (h.insert p.1 p.2)).trans ?_
      rw [restrict_cons]
      split_ifs with hk
      · rw [h.restrict_insert hk]
        rfl
      · rw [restrict_insert_of_dropped (by simpa using hk)]

end Sorted

section Restrict

omit [DecidableEq α]

variable [BEq α] [LawfulBEq α]

lemma lookup_restrict (keep : α → Bool) (k : α) (m : List (α × β)) :
    (restrict keep m).lookup k = if keep k then m.lookup k else none := by
  induction m with
  | nil => simp [restrict]
  | cons p m ih =>
      obtain ⟨k', v⟩ := p
      rw [restrict_cons]
      by_cases hk : k = k'
      · subst hk
        split_ifs with hkeep
        · rw [List.lookup_cons_self, List.lookup_cons_self]
        · rw [ih, if_neg hkeep]
      · have hother : ∀ l : List (α × β), ((k', v) :: l).lookup k = l.lookup k := fun l => by
          rw [List.lookup_cons, beq_false_of_ne hk]
        rw [hother m, ← ih]
        split_ifs
        · exact hother _
        · rfl

end Restrict

/-! ### Lists with the same keys -/

/-- The two lists have the same keys in the same order, with related values. -/
inductive Rel {γ : Type v} (R : β → γ → Prop) : List (α × β) → List (α × γ) → Prop
  | nil : Rel R [] []
  | cons {k : α} {v : β} {w : γ} {m : List (α × β)} {m' : List (α × γ)} (h : R v w)
      (t : Rel R m m') : Rel R ((k, v) :: m) ((k, w) :: m')

namespace Rel

variable {γ : Type v} {R : β → γ → Prop} {m entries : List (α × β)} {m' entries' : List (α × γ)}

omit [DecidableEq α] in
lemma map_fst (h : Rel R m m') : m.map Prod.fst = m'.map Prod.fst := by
  induction h with
  | nil => rfl
  | cons _ _ ih => rw [List.map_cons, List.map_cons, ih]

omit [DecidableEq α] in
lemma lookup [BEq α] (h : Rel R m m') (k : α) : Option.Rel R (m.lookup k) (m'.lookup k) := by
  induction h with
  | nil => exact .none
  | @cons k' v w m m' hv _ ih =>
      rw [List.lookup_cons, List.lookup_cons]
      split
      · exact .some hv
      · exact ih

lemma remove (h : Rel R m m') (k : α) :
    Rel R (Assoc.remove k m) (Assoc.remove k m') := by
  induction h with
  | nil => exact .nil
  | @cons k' v w m m' hv _ ih =>
      rw [Assoc.remove, Assoc.remove, List.filter_cons, List.filter_cons]
      split_ifs
      · exact .cons hv ih
      · exact ih

omit [DecidableEq α] in
lemma restrict (h : Rel R m m') (keep : α → Bool) :
    Rel R (Assoc.restrict keep m) (Assoc.restrict keep m') := by
  induction h with
  | nil => exact .nil
  | cons hv _ ih =>
      rw [restrict_cons, restrict_cons]
      split_ifs
      · exact .cons hv ih
      · exact ih

omit [DecidableEq α] in
lemma of_zip {ks : List α} {vs : List β} {ws : List γ} (h : List.Forall₂ R vs ws) :
    Rel R (ks.zip vs) (ks.zip ws) := by
  induction h generalizing ks with
  | nil => simpa using Rel.nil
  | cons hv _ ih =>
      cases ks with
      | nil => exact .nil
      | cons k ks => exact .cons hv ih

variable [LT α] [DecidableLT α]

lemma insert (h : Rel R m m') (k : α) {v : β} {w : γ} (hv : R v w) :
    Rel R (Assoc.insert k v m) (Assoc.insert k w m') := by
  induction h with
  | nil => exact .cons hv .nil
  | @cons k' v' w' m m' hv' ht ih =>
      rw [Assoc.insert, Assoc.insert]
      split_ifs
      · exact .cons hv ht
      · exact .cons hv (.cons hv' ht)
      · exact .cons hv' ih

lemma insertAll (h : Rel R m m') (hentries : Rel R entries entries') :
    Rel R (Assoc.insertAll m entries) (Assoc.insertAll m' entries') := by
  induction hentries generalizing m m' with
  | nil => exact h
  | cons hv _ ih => exact ih (h.insert _ hv)

omit [DecidableEq α] [DecidableLT α] in
/-- Ordered lists are determined by what is found in them. -/
lemma of_lookup [BEq α] [LawfulBEq α] [IsStrictTotalOrder α (· < ·)] (hm : Sorted m)
    (hm' : Sorted m') (h : ∀ k, Option.Rel R (m.lookup k) (m'.lookup k)) : Rel R m m' := by
  induction m generalizing m' with
  | nil =>
      cases m' with
      | nil => exact .nil
      | cons p' m' =>
          have hp' := h p'.1
          rw [List.lookup_cons_self] at hp'
          cases hp'
  | cons p m ih =>
      cases m' with
      | nil =>
          have hp := h p.1
          rw [List.lookup_cons_self] at hp
          cases hp
      | cons p' m' =>
          obtain ⟨k, v⟩ := p
          obtain ⟨k', w⟩ := p'
          -- the smaller of the two first keys would be bound in one list only
          have hkk' : ¬ k < k' := by
            intro hlt
            have hk := h k
            rw [List.lookup_cons_self, hm'.lookup_of_lt_head hlt] at hk
            cases hk
          have hk'k : ¬ k' < k := by
            intro hlt
            have hk := h k'
            rw [List.lookup_cons_self, hm.lookup_of_lt_head hlt] at hk
            cases hk
          obtain rfl := Std.Trichotomous.trichotomous (r := (· < ·)) k k' hkk' hk'k
          obtain ⟨hhead, htail⟩ := List.pairwise_cons.mp hm
          obtain ⟨hhead', htail'⟩ := List.pairwise_cons.mp hm'
          have hv := h k
          rw [List.lookup_cons_self, List.lookup_cons_self] at hv
          cases hv with
          | some hv =>
              refine .cons hv (ih htail htail' fun j => ?_)
              by_cases hj : j = k
              · rw [hj, lookup_of_forall_lt hhead, lookup_of_forall_lt hhead']
                exact .none
              · have htl := h j
                rwa [List.lookup_cons, List.lookup_cons, beq_false_of_ne hj] at htl

end Rel

end Lib.Assoc
