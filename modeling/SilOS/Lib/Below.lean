/-
# Computations that get stuck

Where a program is cut off, for instance when a bound is used up, it ends with an error that means
only that.  `Comp.Below stuck m m'` says that `m` is such a cut-off version of `m'`: every run of
`m` ends as that of `m'` does, unless it gets stuck.  There is one rule for each way of building a
program.
-/
import SilOS.Lib.Comp

namespace Lib.Comp

universe u

variable {σ ε α β : Type u} {stuck : ε → Prop} {m m' : Comp σ ε α} {f f' : α → Comp σ ε β}

/-- The end of a run that got stuck. -/
def Stuck (stuck : ε → Prop) (r : Except ε α × σ) : Prop := ∃ e, stuck e ∧ r.1 = .error e

/-- The runs of `m` end as those of `m'`, unless they get stuck. -/
def Below (stuck : ε → Prop) (m m' : Comp σ ε α) : Prop :=
  ∀ s, Stuck stuck (m.exec s) ∨ m.exec s = m'.exec s

lemma below_refl (m : Comp σ ε α) : Below stuck m m := fun _ => Or.inr rfl

lemma below_throw {e : ε} (h : stuck e) (m : Comp σ ε α) : Below stuck (throw e) m :=
  fun _ => Or.inl ⟨e, h, rfl⟩

lemma Below.bind (hm : Below stuck m m') (hf : ∀ a, Below stuck (f a) (f' a)) :
    Below stuck (m >>= f) (m' >>= f') := by
  intro s
  rw [exec_bind, exec_bind]
  rcases hm s with ⟨e, he, hend⟩ | hsame
  · rcases h : m.exec s with ⟨e' | a, s'⟩ <;> rw [h] at hend
    · obtain rfl : e' = e := Except.error.inj hend
      exact Or.inl ⟨e', he, rfl⟩
    · exact absurd hend (by simp)
  · rw [hsame]
    rcases m'.exec s with ⟨e | a, s'⟩
    · exact Or.inr rfl
    · exact hf a s'

lemma below_get_bind {f f' : σ → Comp σ ε β} (hf : ∀ s, Below stuck (f s) (f' s)) :
    Below stuck ((get : Comp σ ε σ) >>= f) (get >>= f') :=
  fun s => hf s s

/-- Programs that run two others from changed states and change their ends, but not that they got
stuck. -/
lemma Below.wrap (h : Below stuck m m') {n n' : Comp σ ε β} (pre : σ → σ)
    (post : σ → Except ε α × σ → Except ε β × σ) (hn : ∀ s, n.exec s = post s (m.exec (pre s)))
    (hn' : ∀ s, n'.exec s = post s (m'.exec (pre s)))
    (hstuck : ∀ s r, Stuck stuck r → Stuck stuck (post s r)) : Below stuck n n' := by
  intro s
  rw [hn, hn']
  rcases h (pre s) with hend | hsame
  · exact Or.inl (hstuck s _ hend)
  · exact Or.inr (by rw [hsame])

end Lib.Comp
