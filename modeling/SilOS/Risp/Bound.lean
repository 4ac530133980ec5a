/-
# The bound of the interpreter

`eval` and the loops of the model are given a bound.  It does not matter: a program that comes to
its end within a bound comes to the same end, in the same state, within every larger one, also if
the commands that it runs come to their ends more often.
-/
import SilOS.Lib.Below
import SilOS.Risp.Relations

namespace SilOS.Risp

open Lib Comp

variable {F W α : Type} {host host' : Host F W}

/-- The fault of a run whose bound is used up, or whose command did not return. -/
def OutOfFuel (e : Stop) : Prop := e = .fault .fuel

lemma outOfFuel : OutOfFuel (.fault .fuel) := rfl

/-- The commands of the second system do what those of the first do, where these return. -/
structure Outlasts (host host' : Host F W) : Prop where
  ops : host'.ops = host.ops
  commandList : host'.commandList = host.commandList
  println : host'.println = host.println
  runCmd : ∀ cmd w, (host.runCmd cmd w).1 = none ∨ host.runCmd cmd w = host'.runCmd cmd w

lemma below_inEnv (env : Env F) {m m' : Eval F W α} (h : Below OutOfFuel m m') :
    Below OutOfFuel (inEnv env m) (inEnv env m') :=
  h.wrap (fun s => { s with env := env }) (fun s r => (r.1, { r.2 with env := s.env }))
    (fun _ => rfl) (fun _ => rfl) fun _ _ hr => hr

lemma below_dropResult {m m' : Eval F W α} (h : Below OutOfFuel m m') :
    Below OutOfFuel (dropResult m) (dropResult m') := by
  refine h.wrap id (fun _ r => (dropped r.1, r.2)) (exec_dropResult m) (exec_dropResult m') ?_
  rintro s r ⟨e, rfl, hr⟩
  exact ⟨_, rfl, by rw [hr, dropped]⟩

lemma below_attempt {m m' : Eval F W α} (h : Below OutOfFuel m m') :
    Below OutOfFuel (attempt m) (attempt m') := by
  refine h.wrap id (fun _ r => (attempted r.1, r.2)) (exec_attempt m) (exec_attempt m') ?_
  rintro s r ⟨e, rfl, hr⟩
  exact ⟨_, rfl, by rw [hr, attempted]⟩

/-- A command that does not return stops the program that runs it. -/
lemma below_runCommand (h : Outlasts host host') (cmd : List Str) :
    Below OutOfFuel (runCommand host cmd) (runCommand host' cmd) := by
  intro s
  rw [runCommand, runCommand, exec_ofRuns, exec_ofRuns]
  rcases h.runCmd cmd s.world with hnone | hsame
  · rcases hend : host.runCmd cmd s.world with ⟨o, w⟩
    rw [hend] at hnone
    obtain rfl : o = none := hnone
    exact Or.inl ⟨_, rfl, rfl⟩
  · exact Or.inr (by rw [hsame])

/-- The ways of building a program keep the order. -/
def boundCongruence (h : Outlasts host host') : Congruence host host' where
  rel := Below OutOfFuel
  ops := h.ops
  commandList := h.commandList
  pure _ := below_refl _
  throw _ := below_refl _
  bind := Below.bind
  getEnv hf := below_get_bind fun s => hf s.env
  setEnv _ := below_refl _
  logCall _ := below_refl _
  logText _ := below_refl _
  inEnv env _ _ hm := below_inEnv env hm
  dropResult := below_dropResult
  attempt := below_attempt
  runCommand := below_runCommand h
  print successCode printCode := by
    rw [h.println]
    exact below_refl _

/-- A loop that ends within its bound ends within a larger one. -/
lemma below_evalLoop {ev ev' : RispExp F → Eval F W (RispExp F)}
    (hev : ∀ e, Below OutOfFuel (ev e) (ev' e)) (condition body : RispExp F) {rounds rounds' : ℕ}
    (hle : rounds ≤ rounds') :
    Below OutOfFuel (evalLoop ev condition body rounds) (evalLoop ev' condition body rounds') := by
  induction rounds generalizing rounds' with
  | zero => exact below_throw outOfFuel _
  | succ rounds ih =>
      obtain ⟨rounds', rfl⟩ := Nat.exists_eq_add_of_le' hle
      rw [← Nat.add_assoc, evalLoop, evalLoop]
      refine (hev condition).bind fun v => ?_
      split
      · exact (hev body).bind fun _ => ih (by omega)
      · exact below_refl _
      · exact below_refl _

lemma below_eval (h : Outlasts host host') {fuel fuel' : ℕ} (hle : fuel ≤ fuel') (e : RispExp F) :
    Below OutOfFuel (eval host fuel e) (eval host' fuel' e) := by
  induction fuel generalizing fuel' e with
  | zero =>
      rw [eval, eval.eq_def]
      exact (below_refl _).bind fun _ => below_throw outOfFuel _
  | succ fuel ih =>
      obtain ⟨fuel', rfl⟩ := Nat.exists_eq_add_of_le' hle
      rw [← Nat.add_assoc, eval, eval]
      refine (below_refl _).bind fun _ => ?_
      have hev := fun e => ih (show fuel ≤ fuel' + fuel by omega) e
      exact (boundCongruence h).rel_evalStep hev
        (fun condition body => below_evalLoop hev condition body (by omega)) e

/-- **Programs.**  A program that ends within a bound ends in the same way within a larger one. -/
theorem below_interpret (h : Outlasts host host') {fuel fuel' : ℕ} (hle : fuel ≤ fuel')
    (expr : List Str) : Below OutOfFuel (interpret host fuel expr) (interpret host' fuel' expr) :=
  (boundCongruence h).rel_interpret (below_eval h hle) expr

end SilOS.Risp
