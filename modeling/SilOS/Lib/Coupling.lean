/-
# Two runs side by side

Two programs that run from related states.  `Coupling.Agree` says that their runs end in related
states, and both with related values or both with the same error.  A coupling also has states of
the first system that it says nothing more about; a run that gets to one of them stays there.
There is one rule for each way of building a program, so that a proof about two programs follows
their common text.
-/
import SilOS.Lib.Comp

namespace Lib

universe u

open Lib.Comp

/-- Two ends of runs: related values, or the same error. -/
def SameEnd {ε α β : Type u} (V : α → β → Prop) : Except ε α → Except ε β → Prop
  | .ok a, .ok b => V a b
  | .error e, .error e' => e = e'
  | _, _ => False

lemma SameEnd.of_eq {ε α : Type u} {V : α → α → Prop} {r r' : Except ε α} (hV : ∀ a, V a a)
    (h : r = r') : SameEnd V r r' := by
  subst h
  cases r with
  | error e => exact rfl
  | ok a => exact hV a

lemma SameEnd.eq {ε α : Type u} {r r' : Except ε α} (h : SameEnd (· = ·) r r') : r = r' := by
  cases r <;> cases r'
  · exact congrArg Except.error h
  · exact h.elim
  · exact h.elim
  · exact congrArg Except.ok h

/-- Related states of two systems, and the states of the first that are out of consideration. -/
structure Coupling (σ τ : Type u) where
  rel : σ → τ → Prop
  gone : σ → Prop

namespace Coupling

variable {σ τ ε α β γ δ : Type u} {C : Coupling σ τ}

/-- A run does not come back from a state that is out of consideration. -/
def Keeps (C : Coupling σ τ) (m : Comp σ ε α) : Prop := ∀ s, C.gone s → C.gone (m.exec s).2

/-- From related states the two programs end in related states, and with related values or the
same error, unless the first one ends out of consideration. -/
structure Agree (C : Coupling σ τ) (V : α → β → Prop) (m : Comp σ ε α) (m' : Comp τ ε β) :
    Prop where
  keeps : C.Keeps m
  rel : ∀ s s', C.rel s s' → C.gone (m.exec s).2 ∨
    C.rel (m.exec s).2 (m'.exec s').2 ∧ SameEnd V (m.exec s).1 (m'.exec s').1

section Rules

variable {V : α → β → Prop} {U : γ → δ → Prop} {m : Comp σ ε α} {m' : Comp τ ε β}
  {f : α → Comp σ ε γ} {f' : β → Comp τ ε δ}

lemma keeps_pure {a : α} : C.Keeps (pure a : Comp σ ε α) := fun _ hs => hs

lemma keeps_throw {e : ε} : C.Keeps (throw e : Comp σ ε α) := fun _ hs => hs

lemma Keeps.bind (hm : C.Keeps m) (hf : ∀ a, C.Keeps (f a)) : C.Keeps (m >>= f) := by
  intro s hs
  have hmid := hm s hs
  rw [exec_bind]
  rcases h : m.exec s with ⟨e | a, t⟩ <;> rw [h] at hmid
  · exact hmid
  · exact hf a t hmid

lemma agree_pure {a : α} {b : β} (h : V a b) :
    C.Agree V (pure a : Comp σ ε α) (pure b : Comp τ ε β) :=
  ⟨keeps_pure, fun _ _ hs => Or.inr ⟨hs, h⟩⟩

lemma agree_throw {e : ε} : C.Agree V (throw e : Comp σ ε α) (throw e : Comp τ ε β) :=
  ⟨keeps_throw, fun _ _ hs => Or.inr ⟨hs, rfl⟩⟩

lemma agree_modify {g : σ → σ} {g' : τ → τ} (hgone : ∀ s, C.gone s → C.gone (g s))
    (hrel : ∀ s s', C.rel s s' → C.rel (g s) (g' s')) :
    C.Agree (fun _ _ => True) (modify g : Comp σ ε PUnit) (modify g' : Comp τ ε PUnit) :=
  ⟨hgone, fun s s' hs => Or.inr ⟨hrel s s' hs, trivial⟩⟩

/-- A program that always ends out of consideration. -/
lemma agree_of_gone (h : ∀ s, C.gone (m.exec s).2) : C.Agree V m m' :=
  ⟨fun s _ => h s, fun s _ _ => Or.inl (h s)⟩

/-- One program after the other.  The second one is also run with values that are related to
none, from states that are out of consideration. -/
lemma Agree.bindKeeping (hm : C.Agree V m m') (hkeeps : ∀ a, C.Keeps (f a))
    (hf : ∀ a b, V a b → C.Agree U (f a) (f' b)) : C.Agree U (m >>= f) (m' >>= f') := by
  refine ⟨hm.keeps.bind hkeeps, fun s s' hs => ?_⟩
  have hmid := hm.rel s s' hs
  rw [exec_bind, exec_bind]
  rcases h : m.exec s with ⟨e | a, t⟩ <;> rcases h' : m'.exec s' with ⟨e' | b, t'⟩ <;>
    rw [h, h'] at hmid
  · exact hmid
  · rcases hmid with hgone | ⟨-, hend⟩
    · exact Or.inl hgone
    · exact hend.elim
  · rcases hmid with hgone | ⟨-, hend⟩
    · exact Or.inl (hkeeps a t hgone)
    · exact hend.elim
  · rcases hmid with hgone | ⟨ht, hend⟩
    · exact Or.inl (hkeeps a t hgone)
    · exact (hf a b hend).rel t t' ht

/-- One program after the other, if each value is related to some value. -/
lemma Agree.bind (hm : C.Agree V m m') (hV : ∀ a, ∃ b, V a b)
    (hf : ∀ a b, V a b → C.Agree U (f a) (f' b)) : C.Agree U (m >>= f) (m' >>= f') := by
  refine hm.bindKeeping (fun a => ?_) hf
  obtain ⟨b, hb⟩ := hV a
  exact (hf a b hb).keeps

/-- Programs that go on as their states say. -/
lemma agree_get_bind {f : σ → Comp σ ε γ} {f' : τ → Comp τ ε δ} (hkeeps : ∀ s, C.Keeps (f s))
    (hf : ∀ s s', C.rel s s' → C.Agree U (f s) (f' s')) :
    C.Agree U ((get : Comp σ ε σ) >>= f) ((get : Comp τ ε τ) >>= f') :=
  ⟨fun s hs => hkeeps s s hs, fun s s' hs => (hf s s' hs).rel s s' hs⟩

/-- Programs that only change how two others end. -/
lemma Agree.mapEnd (h : C.Agree V m m') {n : Comp σ ε γ} {n' : Comp τ ε δ}
    {g : Except ε α → Except ε γ} {g' : Except ε β → Except ε δ}
    (hn : ∀ s, n.exec s = (g (m.exec s).1, (m.exec s).2))
    (hn' : ∀ s, n'.exec s = (g' (m'.exec s).1, (m'.exec s).2))
    (hg : ∀ r r', SameEnd V r r' → SameEnd U (g r) (g' r')) : C.Agree U n n' := by
  refine ⟨fun s hs => ?_, fun s s' hs => ?_⟩
  · rw [hn]
    exact h.keeps s hs
  · rw [hn, hn']
    exact (h.rel s s' hs).imp id fun ⟨hend, hresult⟩ => ⟨hend, hg _ _ hresult⟩

end Rules

end Coupling

end Lib
