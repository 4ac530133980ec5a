/-
# Computations with a state and errors

Programs in the monad `ExceptT ε (StateM σ)`: each run ends in a state, and with a value or an
error.  `Comp.Ensures I m Q` says that `m` keeps the invariant `I`, whether it ends with a value or
an error, and that a value it returns satisfies `Q`; there is one rule for each way of building a
program, so that a proof about a program follows its text.
-/
import Mathlib

namespace Lib

universe u

/-- Programs with states `σ` and errors `ε`. -/
abbrev Comp (σ ε : Type u) (α : Type u) : Type u := ExceptT ε (StateM σ) α

namespace Comp

variable {σ ε α β : Type u}

/-- The run of a program from a state. -/
def exec (m : Comp σ ε α) (s : σ) : Except ε α × σ := StateT.run (ExceptT.run m) s

/-- The program with the given runs. -/
def ofRuns (f : σ → Except ε α × σ) : Comp σ ε α := ExceptT.mk f

@[simp] lemma exec_ofRuns (f : σ → Except ε α × σ) (s : σ) : (ofRuns f).exec s = f s := rfl

@[simp] lemma exec_pure (a : α) (s : σ) : (pure a : Comp σ ε α).exec s = (.ok a, s) := rfl

@[simp] lemma exec_throw (e : ε) (s : σ) : (throw e : Comp σ ε α).exec s = (.error e, s) := rfl

@[simp] lemma exec_modify (f : σ → σ) (s : σ) :
    (modify f : Comp σ ε PUnit).exec s = (.ok .unit, f s) := rfl

lemma exec_bind (m : Comp σ ε α) (f : α → Comp σ ε β) (s : σ) :
    (m >>= f).exec s =
      match m.exec s with
      | (.ok a, s') => (f a).exec s'
      | (.error e, s') => (.error e, s') := by
  rcases h : m.exec s with ⟨e | a, s'⟩
  · have h' : StateT.run (ExceptT.run m) s = (.error e, s') := h
    simp only [exec, ExceptT.run_bind, StateT.run_bind, h']
    rfl
  · have h' : StateT.run (ExceptT.run m) s = (.ok a, s') := h
    simp only [exec, ExceptT.run_bind, StateT.run_bind, h']
    rfl

/-- Every run of `m` from a state in `I` ends in a state in `I`, and with a value in `Q` if it
ends with a value. -/
def Ensures (I : σ → Prop) (m : Comp σ ε α) (Q : α → Prop) : Prop :=
  ∀ s, I s → I (m.exec s).2 ∧ ∀ a, (m.exec s).1 = .ok a → Q a

variable {I : σ → Prop} {m : Comp σ ε α} {f : α → Comp σ ε β} {P : α → Prop} {Q : β → Prop}

lemma ensures_pure {a : α} (h : P a) : Ensures I (pure a : Comp σ ε α) P := by
  intro s hs
  refine ⟨hs, fun a' ha => ?_⟩
  obtain rfl : a = a' := Except.ok.inj ha
  exact h

lemma ensures_throw {e : ε} : Ensures I (throw e : Comp σ ε α) P :=
  fun _ hs => ⟨hs, fun _ ha => absurd ha (by simp)⟩

lemma ensures_get : Ensures I (get : Comp σ ε σ) I :=
  fun _ hs => ⟨hs, fun _ ha => Except.ok.inj ha ▸ hs⟩

lemma ensures_modify {g : σ → σ} (h : ∀ s, I s → I (g s)) :
    Ensures I (modify g : Comp σ ε PUnit) fun _ => True :=
  fun s hs => ⟨h s hs, fun _ _ => trivial⟩

lemma Ensures.bind (hm : Ensures I m P) (hf : ∀ a, P a → Ensures I (f a) Q) :
    Ensures I (m >>= f) Q := by
  intro s hs
  obtain ⟨hI, hP⟩ := hm s hs
  rw [exec_bind]
  rcases h : m.exec s with ⟨e | a, s'⟩
  · rw [h] at hI
    exact ⟨hI, fun b hb => absurd hb (by simp)⟩
  · rw [h] at hI hP
    exact hf a (hP a rfl) s' hI

lemma Ensures.mono {P' : α → Prop} (hm : Ensures I m P) (h : ∀ a, P a → P' a) :
    Ensures I m P' :=
  fun s hs => ⟨(hm s hs).1, fun a ha => h a ((hm s hs).2 a ha)⟩

end Comp

end Lib
