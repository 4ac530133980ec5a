/-
# The bound of the shell

The recursion between commands and programs is given a bound in the model.  A command that returns
within a bound returns with the same result and in the same state within every larger one, so
`Returns` has no bound in it, and it says how a command ends.
-/
import SilOS.Risp.Bound
import SilOS.Shell.System

namespace SilOS

open Lib Comp Risp

variable {F M : Type} {floats : FloatOps F} {ops : FileOps M}
  {p q : List Str → World M → Option CommandOutcome × World M} {w w' : World M}

/-- Where the first one returns, the second one does the same. -/
def Covers (f g : World M → Option CommandOutcome × World M) : Prop :=
  ∀ w, (f w).1 = none ∨ f w = g w

lemma covers_refl (f : World M → Option CommandOutcome × World M) : Covers f f :=
  fun _ => Or.inr rfl

lemma covers_fileCommand (h : ∀ expr, Covers (p expr) (q expr)) (cmd : Command) :
    Covers (fileCommand ops p cmd) (fileCommand ops q cmd) := by
  intro w
  rw [fileCommand, fileCommand]
  split
  · exact Or.inr rfl
  · exact Or.inr rfl
  · exact h _ _

/-- Only the commands that run programs differ. -/
lemma covers_run (h : ∀ expr, Covers (p expr) (q expr)) (args : List Str) (f : Handler) :
    Covers (fun w => f.run ops p args w) fun w => f.run ops q args w := by
  intro w
  have hfile (cmd : Command) : Covers (fileCommand ops p cmd) (fileCommand ops q cmd) :=
    covers_fileCommand h cmd
  cases f with
  | parseCmd =>
      simp only [Handler.run]
      split_ifs
      · exact Or.inr rfl
      · exact h _ w
  | formatDisk => exact hfile _ _
  | makeFile => exact hfile _ _
  | catFile =>
      simp only [Handler.run]
      split
      · exact Or.inr rfl
      · exact hfile _ _
  | runFile => exact hfile _ _
  | edit => exact hfile _ _
  | runEdit =>
      simp only [Handler.run]
      split
      · exact Or.inr rfl
      · exact hfile _ _
  | _ => exact Or.inr rfl

lemma covers_programIn (h : ∀ cmd, Covers (p cmd) (q cmd)) {fuel fuel' : ℕ} (hle : fuel ≤ fuel')
    (expr : List Str) : Covers (programIn floats p fuel expr) (programIn floats q fuel' expr) := by
  intro w
  have hhost : Outlasts
      (⟨floats, p, fun s w => w.println s, Commands.getCommandList w.commands⟩ : Host F (World M))
      ⟨floats, q, fun s w => w.println s, Commands.getCommandList w.commands⟩ :=
    ⟨rfl, rfl, rfl, h⟩
  rcases below_interpret hhost hle expr ⟨[], w, [], []⟩ with ⟨e, -, hstuck⟩ | hsame
  · exact Or.inl (by simp only [programIn, hstuck]; rfl)
  · exact Or.inr (by simp only [programIn, hsame])

/-- **Commands.**  A command that returns within a bound does the same within a larger one. -/
theorem covers_runCmd {fuel fuel' : ℕ} (hle : fuel ≤ fuel') (cmd : List Str) :
    Covers (runCmd floats ops fuel cmd) (runCmd floats ops fuel' cmd) := by
  induction fuel generalizing fuel' cmd with
  | zero => exact fun _ => Or.inl rfl
  | succ fuel ih =>
      obtain ⟨fuel', rfl⟩ := Nat.exists_eq_add_of_le' hle
      have hcmd := fun cmd => ih (show fuel ≤ fuel' + fuel by omega) cmd
      have hprogram (expr : List Str) : Covers (programIn floats (runCmd floats ops fuel) fuel expr)
          (programIn floats (runCmd floats ops (fuel' + fuel)) (fuel' + fuel) expr) :=
        covers_programIn hcmd (by omega) expr
      cases cmd with
      | nil => exact covers_refl _
      | cons name args =>
          intro w
          rw [← Nat.add_assoc, runCmd, runCmd]
          split
          · exact Or.inr rfl
          · exact covers_run hprogram _ _ w
          · exact hprogram _ w

/-- The command returns. -/
def Returns (floats : FloatOps F) (ops : FileOps M) (cmd : List Str) (w : World M)
    (outcome : CommandOutcome) (w' : World M) : Prop :=
  ∃ fuel, runCmd floats ops fuel cmd w = (some outcome, w')

lemma runCmd_of_le {fuel fuel' : ℕ} (hle : fuel ≤ fuel') {cmd : List Str}
    {outcome : CommandOutcome} (h : runCmd floats ops fuel cmd w = (some outcome, w')) :
    runCmd floats ops fuel' cmd w = (some outcome, w') := by
  rcases covers_runCmd hle cmd w with hnone | hsame
  · rw [h] at hnone
    exact absurd hnone (by simp)
  · rw [← hsame, h]

/-- A command returns in one way. -/
theorem Returns.unique {cmd : List Str} {o o' : CommandOutcome} {w₁ w₂ : World M}
    (h : Returns floats ops cmd w o w₁) (h' : Returns floats ops cmd w o' w₂) :
    o = o' ∧ w₁ = w₂ := by
  obtain ⟨fuel, h⟩ := h
  obtain ⟨fuel', h'⟩ := h'
  have hmax := (runCmd_of_le (le_max_left fuel fuel') h).symm.trans
    (runCmd_of_le (le_max_right fuel fuel') h')
  obtain ⟨ho, rfl⟩ := Prod.mk.inj hmax
  exact ⟨Option.some.inj ho, rfl⟩

/-- **The bound does not matter.**  A session that goes through within a bound goes through within
every larger one, with the same results and in the same state. -/
theorem session_of_le {fuel fuel' : ℕ} (hle : fuel ≤ fuel') {batches : List (List DecodedKey)}
    {outs : List (Option CommandOutcome)}
    (hrun : (shellTask floats ops fuel).run w batches = .ok (outs, w')) :
    (shellTask floats ops fuel').run w batches = .ok (outs, w') := by
  have hsame : ∀ (w v : World M) batch o v₁, w = v →
      (shellTask floats ops fuel).step v batch = .ok (o, v₁) →
      ∃ w₁, (shellTask floats ops fuel').step w batch = .ok (o, w₁) ∧ w₁ = v₁ := by
    rintro w _ batch o w₁ rfl hstep
    refine ⟨w₁, ?_, rfl⟩
    have hline : (w.drain batch).runLine floats ops fuel = .ok (o, w₁) := hstep
    change (w.drain batch).runLine floats ops fuel' = .ok (o, w₁)
    rw [World.runLine] at hline ⊢
    split_ifs at hline ⊢ with hpending
    · dsimp only at hline ⊢
      split at hline
      · exact hline
      · split at hline
        · exact absurd hline (by simp)
        · rename_i hcmd
          rw [runCmd_of_le hle hcmd]
          exact hline
    · exact hline
  obtain ⟨w₁, hrun', rfl⟩ :=
    (shellTask floats ops fuel').run_forward (shellTask floats ops fuel) hsame rfl hrun
  exact hrun'

end SilOS
