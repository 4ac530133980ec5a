/-
# What an evaluation can change in the environment

The special forms that bind or change a variable name it in their text, so an evaluation leaves
every other variable of the environment alone.  This includes the calls of lambdas, whose bodies
run in an environment of their own, and it holds whether the evaluation succeeds or not.
-/
import SilOS.Risp.Discipline
import SilOS.Risp.Parse

namespace SilOS.Risp

open Lib Comp

/-- The variable `k` is the symbol operand of a `def`, `append`, `pop`, `mset` or `mdel` form in
an expression. -/
inductive Binds {F : Type} (k : Str) : RispExp F → Prop
  | here {first : RispExp F} {form : Form} {args : List (RispExp F)}
      (hform : Form.ofFirst first = some form) (hbinds : form.binds = true) :
      Binds k (.list (first :: .symbol k :: args))
  | elem {l : List (RispExp F)} {e : RispExp F} (he : e ∈ l) (h : Binds k e) : Binds k (.list l)

section Frame

variable {F W : Type} (host : Host F W)

/-- Expressions that do not bind `k` leave its value alone. -/
def frameDiscipline (k : Str) (value : Option (RispExp F)) : Discipline host where
  code e := ¬ Binds k e
  val _ := True
  inv s := s.env.lookup k = value
  bodyEnv _ := True
  code_elem hl he hbinds := hl (.elem he hbinds)
  val_of_code _ := trivial
  val_bool _ := trivial
  val_number _ := trivial
  val_string _ := trivial
  val_syscall _ := trivial
  val_list := unconstrained_list
  val_map := unconstrained_map
  val_lookup _ _ := trivial
  val_fn _ _ := trivial
  inv_call hs _ := hs
  inv_world _ hs := hs
  inv_insert {s _ _ name _ _} hs hform hbinds hcode _ := by
    have hne : k ≠ name := by
      rintro rfl
      exact hcode (.here hform hbinds)
    rw [Assoc.lookup_insert_of_ne hne]
    exact hs
  bodyEnv_of_call _ _ _ _ := trivial
  inv_body _ _ _ := fun _ hs => ⟨hs, fun _ _ => trivial⟩

lemma ensures_inEnv_env {α : Type} (env env' : Env F) (m : Eval F W α) :
    Ensures (fun s => s.env = env) (inEnv env' m) fun _ => True :=
  fun _ hs => ⟨hs, fun _ _ => trivial⟩

variable {host}

lemma ensures_bodyEnv_env (env : Env F) (paramsExp : RispExp F) (capturedEnv : Env F)
    (args : List (RispExp F)) :
    Ensures (fun s => s.env = env) (bodyEnv paramsExp capturedEnv args : Eval F W _)
      fun _ => True :=
  ensures_get.bind fun _ _ => ensures_pure trivial

/-- The caller's environment is the same after the call of a lambda, whatever its body does. -/
lemma ensures_callLambda_env (env : Env F) (ev : RispExp F → Eval F W (RispExp F))
    (paramsExp bodyExp : RispExp F) (capturedEnv : Env F) (args : List (RispExp F)) :
    Ensures (fun s => s.env = env) (callLambda ev paramsExp bodyExp capturedEnv args)
      fun _ => True := by
  refine (ensures_bodyEnv_env env paramsExp capturedEnv args).bind fun r _ => ?_
  refine (ensures_liftResult (P := fun _ => True) fun _ _ => trivial).bind fun env' _ => ?_
  exact ensures_inEnv_env env env' _

/-- The same for the `error` handler. -/
lemma ensures_runHandler_env (env : Env F) (ev : RispExp F → Eval F W (RispExp F))
    (msg : RispExp F) :
    Ensures (fun s => s.env = env) (runHandler ev msg) fun _ => True := by
  have hget : Ensures (fun s => s.env = env) (envGet ['e', 'r', 'r', 'o', 'r'] : Eval F W _)
      fun _ => True := ensures_get.bind fun _ _ => ensures_pure trivial
  refine hget.bind fun r _ => ?_
  split
  · rename_i paramsExp bodyExp capturedEnv
    refine (ensures_bodyEnv_env env paramsExp capturedEnv [msg]).bind fun e _ => ?_
    split
    · exact ensures_dropResult (ensures_inEnv_env env _ _)
    · exact ensures_pure trivial
  · exact ensures_pure trivial

/-- An evaluation, however it ends, binds every variable as before that does not occur in the
expression as the operand of a binding form; and the call of a lambda or of the `error` handler
leaves the whole environment of the caller as it was. -/
theorem eval_env_frame (fuel : ℕ) (e : RispExp F) (s : Session F W) :
    (∀ k, ¬ Binds k e → ((eval host fuel e).exec s).2.env.lookup k = s.env.lookup k) ∧
    (∀ paramsExp bodyExp capturedEnv args,
      ((callLambda (eval host fuel) paramsExp bodyExp capturedEnv args).exec s).2.env = s.env) ∧
    ∀ msg, ((runHandler (eval host fuel) msg).exec s).2.env = s.env := by
  refine ⟨fun k hk => ?_, fun paramsExp bodyExp capturedEnv args => ?_, fun msg => ?_⟩
  · exact ((frameDiscipline host k (s.env.lookup k)).ensures_eval fuel hk s rfl).1
  · exact (ensures_callLambda_env s.env _ paramsExp bodyExp capturedEnv args s rfl).1
  · exact (ensures_runHandler_env s.env _ msg s rfl).1

end Frame

/-! ### A small host -/

/-- Arithmetic on one decimal digit. -/
def digitOps : FloatOps (Fin 10) where
  toFloatText := digitText
  zero := 0
  one := 1
  add := (· + ·)
  sub := (· - ·)
  mul := (· * ·)
  div := (· / ·)
  eq a b := a = b
  lt a b := a < b
  le a b := a ≤ b
  toI64 n := n.val
  ofInt n := Fin.ofNat 10 n.toNat

/-- A system whose one command `echo` always succeeds, and whose state is the list of the commands
that were run, the last one first. -/
def recorder : Host (Fin 10) (List (List Str)) where
  ops := digitOps
  runCmd cmd w := (some (.success "" false), cmd :: w)
  println _ w := w
  commandList := [['e', 'c', 'h', 'o']]

/-- `(def x 1)` leaves `y` alone. -/
theorem eval_env_frame_def :
    ((eval recorder 2 (.list [.symbol ['d', 'e', 'f'], .symbol ['x'], .number 1])).exec
      ⟨[(['x'], .bool true), (['y'], .bool false)], [], [], []⟩).2.env.lookup ['y'] =
      some (.bool false) := by
  have hy : ¬ Binds ['y']
      (.list [.symbol ['d', 'e', 'f'], .symbol ['x'], .number (1 : Fin 10)]) := by
    intro h
    cases h with
    | elem he h =>
        simp only [List.mem_cons, List.not_mem_nil, or_false] at he
        rcases he with rfl | rfl | rfl <;> cases h
  exact (eval_env_frame 2 _ ⟨[(['x'], .bool true), (['y'], .bool false)], [], [], []⟩).1 _ hy

end SilOS.Risp
