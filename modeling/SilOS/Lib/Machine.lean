/-
# Runs of a deterministic machine

A machine consumes inputs one at a time; each input either stops it with a fault or yields
an output and a new state.  This file defines the runs on a list of inputs and the rules by
which properties of single steps become properties of whole runs:

* `Machine.run_invariant`: an invariant kept by every guarded step is kept by every run
  whose steps all meet the guard, and such a run gives a result;
* `Machine.run_simulation`: a relation to an abstract state kept by every step is kept by
  every run, the abstract state being the fold of the abstract steps;
* `Machine.run_refines`: the same for a function that abstracts the state, in a run that is
  also shown to give a result;
* `Machine.run_history`: a property of the outputs so far and the state that every step keeps;
  `Machine.run_history_total` is the same for a run that is also shown to give a result;
* `Machine.run_keeps`: a property kept by the guarded steps that give a result;
* `Machine.run_ne_error`: an error that no guarded step ends in is not the end of a run;
* `Machine.along_of_count`: a guard that holds below a bound, which only some steps come nearer to,
  is met along every run with few such steps;
* `Machine.stays_iff_along`: when a step keeps the invariant exactly if it meets the guard,
  the invariant holds in all states of a run exactly if all its steps meet the guard;
  `Machine.stays_iff_along_of_invariant` is the same beside an invariant that every step keeps.
-/
import Mathlib

namespace Lib

universe u v w x y z

/-- A deterministic machine with states `σ`, inputs `ι`, outputs `ο` and faults `ε`. -/
structure Machine (σ : Type u) (ι : Type v) (ο : Type w) (ε : Type x) where
  /-- One step: the output and the next state, or a fault. -/
  step : σ → ι → Except ε (ο × σ)

namespace Machine

variable {σ : Type u} {ι : Type v} {ο : Type w} {ε : Type x} (M : Machine σ ι ο ε)

/-- The run on a list of inputs: the outputs in order and the last state. -/
def run : σ → List ι → Except ε (List ο × σ)
  | s, [] => .ok ([], s)
  | s, i :: is =>
      match M.step s i with
      | .error e => .error e
      | .ok (o, s₁) =>
          match run s₁ is with
          | .error e => .error e
          | .ok (os, s₂) => .ok (o :: os, s₂)

@[simp] lemma run_nil (s : σ) : M.run s [] = .ok ([], s) := rfl

lemma run_cons_of_step {s s₁ : σ} {i : ι} {o : ο} (h : M.step s i = .ok (o, s₁)) (is : List ι) :
    M.run s (i :: is) =
      match M.run s₁ is with
      | .error e => .error e
      | .ok (os, s₂) => .ok (o :: os, s₂) := by
  rw [run, h]

lemma run_cons_eq_ok {s s₂ : σ} {i : ι} {is : List ι} {os : List ο} :
    M.run s (i :: is) = .ok (os, s₂) ↔
      ∃ o s₁ os₁, M.step s i = .ok (o, s₁) ∧ M.run s₁ is = .ok (os₁, s₂) ∧ os = o :: os₁ := by
  constructor
  · intro h
    rw [run] at h
    rcases hs : M.step s i with e | ⟨o, s₁⟩
    · rw [hs] at h
      exact absurd h (by simp)
    · rw [hs] at h
      simp only at h
      rcases hr : M.run s₁ is with e | ⟨os₁, s₃⟩
      · rw [hr] at h
        exact absurd h (by simp)
      · rw [hr] at h
        simp only [Except.ok.injEq, Prod.mk.injEq] at h
        obtain ⟨rfl, rfl⟩ := h
        exact ⟨o, s₁, os₁, rfl, hr, rfl⟩
  · rintro ⟨o, s₁, os₁, hs, hr, rfl⟩
    rw [M.run_cons_of_step hs, hr]

/-- Every step taken by the run on `is` meets the guard `G`, a condition on the input and
the state before the step. -/
def Along (G : σ → ι → Prop) : σ → List ι → Prop
  | _, [] => True
  | s, i :: is => G s i ∧ ∀ o s₁, M.step s i = .ok (o, s₁) → Along G s₁ is

/-- **Invariant rule.**  If every guarded step from a state satisfying `I` gives a result
and keeps `I`, then every run whose steps meet the guard gives a result and keeps `I`. -/
theorem run_invariant {I : σ → Prop} {G : σ → ι → Prop}
    (hstep : ∀ s i, I s → G s i → ∃ o s₁, M.step s i = .ok (o, s₁) ∧ I s₁)
    {s : σ} {is : List ι} (hI : I s) (hG : M.Along G s is) :
    ∃ os s₁, M.run s is = .ok (os, s₁) ∧ I s₁ := by
  induction is generalizing s with
  | nil => exact ⟨[], s, rfl, hI⟩
  | cons i is ih =>
      obtain ⟨o, s₁, hs, hI₁⟩ := hstep s i hI hG.1
      obtain ⟨os, s₂, hr, hI₂⟩ := ih hI₁ (hG.2 o s₁ hs)
      exact ⟨o :: os, s₂, (M.run_cons_eq_ok).2 ⟨o, s₁, os, hs, hr, rfl⟩, hI₂⟩

/-- Every state of the run on `is` satisfies `I`, and every step of it gives a result. -/
def Stays (I : σ → Prop) : σ → List ι → Prop
  | s, [] => I s
  | s, i :: is => I s ∧ ∃ o s₁, M.step s i = .ok (o, s₁) ∧ Stays I s₁ is

/-- **Exact guard.**  If a step from a state satisfying `I` gives a result that satisfies `I`
exactly if it meets the guard, then `I` holds all along a run exactly if all its steps meet the
guard. -/
theorem stays_iff_along {I : σ → Prop} {G : σ → ι → Prop}
    (hstep : ∀ s i, I s → ((∃ o s₁, M.step s i = .ok (o, s₁) ∧ I s₁) ↔ G s i))
    {s : σ} (hI : I s) (is : List ι) : M.Stays I s is ↔ M.Along G s is := by
  induction is generalizing s with
  | nil => exact ⟨fun _ => trivial, fun _ => hI⟩
  | cons i is ih =>
      constructor
      · rintro ⟨-, o, s₁, hs, hstays⟩
        have hI₁ : I s₁ := by
          cases is with
          | nil => exact hstays
          | cons => exact hstays.1
        refine ⟨(hstep s i hI).mp ⟨o, s₁, hs, hI₁⟩, fun o' s' hs' => ?_⟩
        -- the step is deterministic
        rw [hs, Except.ok.injEq, Prod.mk.injEq] at hs'
        obtain ⟨-, rfl⟩ := hs'
        exact (ih hI₁).mp hstays
      · rintro ⟨hG, halong⟩
        obtain ⟨o, s₁, hs, hI₁⟩ := (hstep s i hI).mpr hG
        exact ⟨hI, o, s₁, hs, (ih hI₁).mpr (halong o s₁ hs)⟩

lemma along_cons_of_step {G : σ → ι → Prop} {s s₁ : σ} {i : ι} {o : ο} {is : List ι}
    (h : M.step s i = .ok (o, s₁)) : M.Along G s (i :: is) ↔ G s i ∧ M.Along G s₁ is := by
  simp [Along, h]

/-- The same beside an invariant `J` that every step keeps: whether a step keeps `I` only has to be
known where `J` holds. -/
theorem stays_iff_along_of_invariant {I J : σ → Prop} {G : σ → ι → Prop}
    (hJ : ∀ s i, J s → ∃ o s₁, M.step s i = .ok (o, s₁) ∧ J s₁)
    (hstep : ∀ s i o s₁, J s → I s → M.step s i = .ok (o, s₁) → (I s₁ ↔ G s i))
    {s : σ} (hJs : J s) (hI : I s) (is : List ι) : M.Stays I s is ↔ M.Along G s is := by
  induction is generalizing s with
  | nil => exact ⟨fun _ => trivial, fun _ => hI⟩
  | cons i is ih =>
      obtain ⟨o, s₁, hs, hJ₁⟩ := hJ s i hJs
      have hiff := hstep s i o s₁ hJs hI hs
      constructor
      · rintro ⟨-, o', s', hs', hstays⟩
        -- the step is deterministic
        rw [hs, Except.ok.injEq, Prod.mk.injEq] at hs'
        obtain ⟨-, rfl⟩ := hs'
        have hI₁ : I s₁ := by
          cases is with
          | nil => exact hstays
          | cons => exact hstays.1
        exact (M.along_cons_of_step hs).mpr ⟨hiff.mp hI₁, (ih hJ₁ hI₁).mp hstays⟩
      · intro halong
        obtain ⟨hG, halong⟩ := (M.along_cons_of_step hs).mp halong
        have hI₁ := hiff.mpr hG
        exact ⟨hI, o, s₁, hs, (ih hJ₁ hI₁).mpr halong⟩

lemma along_true (s : σ) (is : List ι) : M.Along (fun _ _ => True) s is := by
  induction is generalizing s with
  | nil => trivial
  | cons i is ih => exact ⟨trivial, fun _ s₁ _ => ih s₁⟩

/-- **Simulation rule.**  A relation between states and abstract states that every step
keeps, whatever its output in `P`, is kept by every run with outputs in `P`. -/
theorem run_simulation {α : Type y} {R : σ → α → Prop} {P : ο → Prop} {G : α → ι → Prop}
    {f : α → ι → α}
    (hstep : ∀ s a i o s₁, R s a → G a i → M.step s i = .ok (o, s₁) → P o → R s₁ (f a i))
    {s s₁ : σ} {a : α} {is : List ι} {os : List ο} (hR : R s a)
    (hG : ∀ pre i post, is = pre ++ i :: post → G (pre.foldl f a) i)
    (hrun : M.run s is = .ok (os, s₁)) (hP : ∀ o ∈ os, P o) : R s₁ (is.foldl f a) := by
  induction is generalizing s a os with
  | nil =>
      simp only [run_nil, Except.ok.injEq, Prod.mk.injEq] at hrun
      obtain ⟨-, rfl⟩ := hrun
      exact hR
  | cons i is ih =>
      obtain ⟨o, s₂, os₁, hs, hr, rfl⟩ := (M.run_cons_eq_ok).1 hrun
      have hR₂ : R s₂ (f a i) :=
        hstep s a i o s₂ hR (hG [] i is rfl) hs (hP o (by simp))
      refine ih hR₂ ?_ hr (fun o ho => hP o (by simp [ho]))
      intro pre j post hsplit
      exact hG (i :: pre) j post (by simp [hsplit])

/-- **Refinement rule.**  If every admitted step from a state satisfying `I` gives a result,
keeps `I` and does on the abstraction of the state what `f` does, then so does every run. -/
theorem run_refines {α : Type y} {I : σ → Prop} {P : ι → Prop} {abs : σ → α} {f : α → ι → α}
    (hstep : ∀ s i, I s → P i → ∃ o s₁, M.step s i = .ok (o, s₁) ∧ I s₁ ∧ abs s₁ = f (abs s) i)
    {s : σ} {is : List ι} (hI : I s) (hP : ∀ i ∈ is, P i) :
    ∃ os s₁, M.run s is = .ok (os, s₁) ∧ I s₁ ∧ abs s₁ = is.foldl f (abs s) := by
  induction is generalizing s with
  | nil => exact ⟨[], s, rfl, hI, rfl⟩
  | cons i is ih =>
      obtain ⟨o, s₁, hs, hI₁, habs₁⟩ := hstep s i hI (hP i (by simp))
      obtain ⟨os, s₂, hr, hI₂, habs₂⟩ := ih hI₁ fun j hj => hP j (by simp [hj])
      refine ⟨o :: os, s₂, (M.run_cons_eq_ok).2 ⟨o, s₁, os, hs, hr, rfl⟩, hI₂, ?_⟩
      rw [habs₂, habs₁, List.foldl_cons]

/-- A run that goes on. -/
lemma run_append {s s₁ : σ} {is : List ι} {os : List ο} (h : M.run s is = .ok (os, s₁))
    (js : List ι) : M.run s (is ++ js) = (M.run s₁ js).map fun r => (os ++ r.1, r.2) := by
  induction is generalizing s os with
  | nil =>
      simp only [run_nil, Except.ok.injEq, Prod.mk.injEq] at h
      obtain ⟨rfl, rfl⟩ := h
      rcases hr : M.run s js with e | ⟨os₁, s₂⟩ <;> simp [hr, Except.map]
  | cons i is ih =>
      obtain ⟨o, s₂, os₁, hs, hr, rfl⟩ := (M.run_cons_eq_ok).1 h
      rw [List.cons_append, M.run_cons_of_step hs, ih hr]
      rcases M.run s₁ js with e | ⟨os₂, s₃⟩ <;> simp [Except.map]

/-- **History rule.**  A property of the outputs so far and the state that every step keeps
holds at the end of every run. -/
theorem run_history {J : List ο → σ → Prop}
    (hstep : ∀ os s i o s₁, J os s → M.step s i = .ok (o, s₁) → J (os ++ [o]) s₁)
    {s s₁ : σ} {is : List ι} {os : List ο} (hJ : J [] s) (hrun : M.run s is = .ok (os, s₁)) :
    J os s₁ := by
  suffices h : ∀ past, J past s → J (past ++ os) s₁ from h [] hJ
  clear hJ
  intro past hpast
  induction is generalizing s os past with
  | nil =>
      simp only [run_nil, Except.ok.injEq, Prod.mk.injEq] at hrun
      obtain ⟨rfl, rfl⟩ := hrun
      simpa using hpast
  | cons i is ih =>
      obtain ⟨o, s₂, os₁, hs, hr, rfl⟩ := (M.run_cons_eq_ok).1 hrun
      have hnext := ih hr (past ++ [o]) (hstep past s i o s₂ hpast hs)
      rwa [List.append_assoc, List.singleton_append] at hnext

/-- A property of the outputs so far and the state, if every step from a state with the property
gives a result and keeps it. -/
theorem run_history_total {J : List ο → σ → Prop}
    (hstep : ∀ os s i, J os s → ∃ o s₁, M.step s i = .ok (o, s₁) ∧ J (os ++ [o]) s₁)
    {s : σ} (hJ : J [] s) (is : List ι) : ∃ os s₁, M.run s is = .ok (os, s₁) ∧ J os s₁ := by
  obtain ⟨os, s₁, hrun, -⟩ := M.run_invariant (I := fun s => ∃ os, J os s) (G := fun _ _ => True)
    (fun s i ⟨os, h⟩ _ =>
      have ⟨o, s₁, hs, h₁⟩ := hstep os s i h
      ⟨o, s₁, hs, os ++ [o], h₁⟩)
    ⟨[], hJ⟩ (M.along_true s is)
  refine ⟨os, s₁, hrun, M.run_history (fun os s i o s₂ h hs => ?_) hJ hrun⟩
  obtain ⟨o', s₂', hs', h'⟩ := hstep os s i h
  rw [hs] at hs'
  obtain ⟨rfl, rfl⟩ := Prod.mk.inj (Except.ok.inj hs')
  exact h'

/-- **Preservation rule.**  A property that every guarded step keeps, if it gives a result, holds
at the end of every run whose steps meet the guard, if that gives a result. -/
theorem run_keeps {I : σ → Prop} {G : σ → ι → Prop}
    (hstep : ∀ s i o s₁, I s → G s i → M.step s i = .ok (o, s₁) → I s₁)
    {s s₁ : σ} {is : List ι} {os : List ο} (hI : I s) (hG : M.Along G s is)
    (hrun : M.run s is = .ok (os, s₁)) : I s₁ := by
  induction is generalizing s os with
  | nil =>
      simp only [run_nil, Except.ok.injEq, Prod.mk.injEq] at hrun
      obtain ⟨-, rfl⟩ := hrun
      exact hI
  | cons i is ih =>
      obtain ⟨o, s₂, os₁, hs, hr, rfl⟩ := (M.run_cons_eq_ok).1 hrun
      exact ih (hstep s i o s₂ hI hG.1 hs) (hG.2 o s₂ hs) hr

/-- **Safety rule.**  If no guarded step from a state satisfying `I` ends in the error `e`, and
those that give a result keep `I`, then no run whose steps meet the guard ends in `e`. -/
theorem run_ne_error {I : σ → Prop} {G : σ → ι → Prop} {e : ε}
    (hsafe : ∀ s i, I s → G s i → M.step s i ≠ .error e)
    (hkeep : ∀ s i o s₁, I s → G s i → M.step s i = .ok (o, s₁) → I s₁)
    {s : σ} {is : List ι} (hI : I s) (hG : M.Along G s is) : M.run s is ≠ .error e := by
  induction is generalizing s with
  | nil => simp
  | cons i is ih =>
      rcases hs : M.step s i with e' | ⟨o, s₁⟩
      · have hne := hsafe s i hI hG.1
        rw [hs] at hne
        simpa [run, hs] using hne
      · have hrest := ih (hkeep s i o s₁ hI hG.1 hs) (hG.2 o s₁ hs)
        rw [M.run_cons_of_step hs]
        rcases hr : M.run s₁ is with e' | ⟨os, s₂⟩
        · rw [hr] at hrest
          exact hrest
        · simp

/-- The number of the steps of the run on `is` that are of the kind `P`. -/
def count (P : σ → ι → Bool) : σ → List ι → ℕ
  | _, [] => 0
  | s, i :: is =>
      (P s i).toNat +
        match M.step s i with
        | .error _ => 0
        | .ok (_, s₁) => count P s₁ is

/-- **Counting rule.**  If a step adds at most one to `μ`, and nothing unless it is of the kind `P`,
then a guard that holds as long as `μ` leaves room for a step of that kind is met by all steps of a
run with no more of them than there is room for. -/
theorem along_of_count {I : σ → Prop} {G : σ → ι → Prop} {P : σ → ι → Bool} {μ : σ → ℕ} {bound : ℕ}
    (hstep : ∀ s i o s₁, I s → M.step s i = .ok (o, s₁) → I s₁ ∧ μ s₁ ≤ μ s + (P s i).toNat)
    (hguard : ∀ s i, I s → (P s i = true → μ s < bound) → G s i)
    {s : σ} {is : List ι} (hI : I s) (hcount : μ s + M.count P s is ≤ bound) : M.Along G s is := by
  induction is generalizing s with
  | nil => trivial
  | cons i is ih =>
      rw [count] at hcount
      refine ⟨hguard s i hI fun hP => ?_, fun o s₁ hs => ?_⟩
      · rw [hP, Bool.toNat_true] at hcount
        omega
      · obtain ⟨hI₁, hμ⟩ := hstep s i o s₁ hI hs
        simp only [hs] at hcount
        exact ih hI₁ (by omega)

/-- The inputs that the run on `is` takes: all of them, or those up to a fault. -/
def taken : σ → List ι → List ι
  | _, [] => []
  | s, i :: is =>
      i :: match M.step s i with
        | .error _ => []
        | .ok (_, s₁) => taken s₁ is

lemma taken_cons_of_step {s s₁ : σ} {i : ι} {o : ο} (h : M.step s i = .ok (o, s₁)) (is : List ι) :
    M.taken s (i :: is) = i :: M.taken s₁ is := by
  rw [taken, h]

lemma taken_cons_of_error {s : σ} {i : ι} {e : ε} (h : M.step s i = .error e) (is : List ι) :
    M.taken s (i :: is) = [i] := by
  rw [taken, h]

/-- **Forward rule.**  If every step of a second machine is matched, from each related state, by a
step with the same output, then so is every run. -/
theorem run_forward {α : Type y} {ε' : Type z} (N : Machine α ι ο ε') {R : σ → α → Prop}
    (hstep : ∀ s a i o a₁, R s a → N.step a i = .ok (o, a₁) →
      ∃ s₁, M.step s i = .ok (o, s₁) ∧ R s₁ a₁)
    {s : σ} {a a₁ : α} {is : List ι} {os : List ο} (hR : R s a)
    (hrun : N.run a is = .ok (os, a₁)) : ∃ s₁, M.run s is = .ok (os, s₁) ∧ R s₁ a₁ := by
  induction is generalizing s a os with
  | nil =>
      simp only [run_nil, Except.ok.injEq, Prod.mk.injEq] at hrun
      obtain ⟨rfl, rfl⟩ := hrun
      exact ⟨s, rfl, hR⟩
  | cons i is ih =>
      obtain ⟨o, a₂, os₁, ha, hr, rfl⟩ := (N.run_cons_eq_ok).1 hrun
      obtain ⟨s₂, hs, hR₂⟩ := hstep s a i o a₂ hR ha
      obtain ⟨s₁, hrun₁, hR₁⟩ := ih hR₂ hr
      exact ⟨s₁, (M.run_cons_eq_ok).2 ⟨o, s₂, os₁, hs, hrun₁, rfl⟩, hR₁⟩

end Machine

/-! ### Machines whose faults are states -/

namespace Machine

variable {σ : Type u} {τ : Type v} {ι : Type w} {ο : Type x} (M : Machine σ ι ο σ)
  (N : Machine τ ι ο τ)

/-- The state at the end of a step or of a run. -/
def last {α : Type y} : Except σ (α × σ) → σ
  | .ok (_, s) => s
  | .error s => s

/-- Two ends with the same output, or both without one, in related states. -/
inductive Coupled {α : Type y} (R : σ → τ → Prop) : Except σ (α × σ) → Except τ (α × τ) → Prop
  | ok {a : α} {s : σ} {t : τ} (h : R s t) : Coupled R (.ok (a, s)) (.ok (a, t))
  | error {s : σ} {t : τ} (h : R s t) : Coupled R (.error s) (.error t)

lemma Coupled.of_ok {α : Type y} {R : σ → τ → Prop} {a : α} {s : σ} {r : Except τ (α × τ)}
    (h : Coupled R (.ok (a, s)) r) : ∃ t, r = .ok (a, t) ∧ R s t := by
  cases h with
  | ok h => exact ⟨_, rfl, h⟩

lemma Coupled.of_error {α : Type y} {R : σ → τ → Prop} {s : σ} {r : Except τ (α × τ)}
    (h : Coupled R (.error s) r) : ∃ t, r = .error t ∧ R s t := by
  cases h with
  | error h => exact ⟨_, rfl, h⟩

lemma Coupled.last {α : Type y} {R : σ → τ → Prop} {r : Except σ (α × σ)} {r' : Except τ (α × τ)}
    (h : Coupled R r r') : R (Machine.last r) (Machine.last r') := by
  cases h with
  | ok h => exact h
  | error h => exact h

lemma Coupled.map_fst {α : Type y} {R : σ → τ → Prop} {r : Except σ (α × σ)}
    {r' : Except τ (α × τ)} (h : Coupled R r r') :
    r'.toOption.map Prod.fst = r.toOption.map Prod.fst := by
  cases h with
  | ok _ => rfl
  | error _ => rfl

variable {M N} {R : σ → τ → Prop} {G : σ → Prop}

lemma run_cons_of_error {s s₁ : σ} {i : ι} (h : M.step s i = .error s₁) (is : List ι) :
    M.run s (i :: is) = .error s₁ := by
  rw [run, h]

lemma last_run_cons {s s₁ : σ} {i : ι} {o : ο} (h : M.step s i = .ok (o, s₁)) (is : List ι) :
    last (M.run s (i :: is)) = last (M.run s₁ is) := by
  rw [M.run_cons_of_step h]
  rcases M.run s₁ is with s₂ | ⟨os, s₂⟩ <;> rfl

lemma Coupled.run_cons {s s₁ : σ} {t t₁ : τ} {i : ι} {o : ο} {is : List ι}
    (hs : M.step s i = .ok (o, s₁)) (ht : N.step t i = .ok (o, t₁))
    (h : Coupled R (M.run s₁ is) (N.run t₁ is)) :
    Coupled R (M.run s (i :: is)) (N.run t (i :: is)) := by
  rw [M.run_cons_of_step hs, N.run_cons_of_step ht]
  generalize M.run s₁ is = r at h
  generalize N.run t₁ is = r' at h
  cases h with
  | ok h => exact .ok h
  | error h => exact .error h

/-- What every step keeps, also one that ends in a fault, holds at the end of every run. -/
lemma last_run_keeps (hstep : ∀ s i, G s → G (last (M.step s i))) {s : σ} (hs : G s)
    (is : List ι) : G (last (M.run s is)) := by
  induction is generalizing s with
  | nil => exact hs
  | cons i is ih =>
      have hmid := hstep s i hs
      rcases h : M.step s i with s₁ | ⟨o, s₁⟩ <;> rw [h] at hmid
      · rwa [run_cons_of_error h]
      · rw [last_run_cons h]
        exact ih hmid

/-- **Coupled runs.**  If the steps of two machines from related states end alike, unless the first
one gets to a state in `G` and stays in such states, then so do their runs. -/
theorem run_coupled (hgone : ∀ s i, G s → G (last (M.step s i)))
    (hstep : ∀ s t i, R s t → G (last (M.step s i)) ∨ Coupled R (M.step s i) (N.step t i))
    {s : σ} {t : τ} (hR : R s t) (is : List ι) :
    G (last (M.run s is)) ∨ Coupled R (M.run s is) (N.run t is) := by
  induction is generalizing s t with
  | nil => exact Or.inr (.ok hR)
  | cons i is ih =>
      rcases hstep s t i hR with hG | hmid
      · rcases hs : M.step s i with s₁ | ⟨o, s₁⟩ <;> rw [hs] at hG
        · rw [run_cons_of_error hs]
          exact Or.inl hG
        · rw [last_run_cons hs]
          exact Or.inl (last_run_keeps hgone hG is)
      · generalize hs : M.step s i = r at hmid
        generalize ht : N.step t i = r' at hmid
        cases hmid with
        | ok h =>
            rw [last_run_cons hs]
            exact (ih h).imp id fun hend => hend.run_cons hs ht
        | error h =>
            rw [run_cons_of_error hs, run_cons_of_error ht]
            exact Or.inr (.error h)

end Machine

/-! ### Transducers -/

section Transducers

variable {α : Type u} {ι : Type v} {ο : Type w} (f : α → ι → Option ο × α)

/-- What a transducer that gives at most one output for an input makes of a list of inputs, and
the state it is left in. -/
def transduce : α → List ι → List ο × α
  | a, [] => ([], a)
  | a, i :: is => ((f a i).1.toList ++ (transduce (f a i).2 is).1, (transduce (f a i).2 is).2)

@[simp] lemma transduce_nil (a : α) : transduce f a [] = ([], a) := rfl

lemma transduce_singleton (a : α) (i : ι) : transduce f a [i] = ((f a i).1.toList, (f a i).2) := by
  simp [transduce]

lemma transduce_append (a : α) (is js : List ι) :
    transduce f a (is ++ js) =
      ((transduce f a is).1 ++ (transduce f (transduce f a is).2 js).1,
        (transduce f (transduce f a is).2 js).2) := by
  induction is generalizing a with
  | nil => rfl
  | cons i is ih => simp [transduce, ih]

lemma exists_of_mem_transduce {a : α} {is : List ι} {o : ο} (h : o ∈ (transduce f a is).1) :
    ∃ a' i, (f a' i).1 = some o := by
  induction is generalizing a with
  | nil => exact absurd h (List.not_mem_nil)
  | cons i is ih =>
      rcases List.mem_append.mp h with hhead | htail
      · exact ⟨a, i, Option.mem_toList.mp hhead⟩
      · exact ih htail

end Transducers

end Lib
