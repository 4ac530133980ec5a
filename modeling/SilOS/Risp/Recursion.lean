/-
# Recursion

`(def f (fn params body))` binds `f` to a lambda that has captured the environment before the
definition, in which the new `f` is not bound yet.  A call writes the captured environment over that
of the caller.  So the body sees the new `f` through the caller's environment, and it sees an older
`f`, if there was one, instead.
-/
import SilOS.Risp.Interpret

namespace SilOS.Risp

open Lib Comp

section Recursion

variable {F W : Type} {host : Host F W} {s t : Session F W} {f : Str} {ks : List Str}
  {body : RispExp F} {args vals : List (RispExp F)}

/-- The expression `(def f (fn params body))`. -/
def defineForm (f : Str) (ks : List Str) (body : RispExp F) : RispExp F :=
  .list [.symbol ['d', 'e', 'f'], .symbol f,
    .list [.symbol ['f', 'n'], .list (ks.map .symbol), body]]

/-- The lambda that the definition binds `f` to. -/
def definedLambda (ks : List Str) (body : RispExp F) (env : Env F) : RispExp F :=
  .lambda (.list (ks.map .symbol)) body env

/-- A value in an environment is smaller than a lambda that has captured the environment. -/
lemma ne_lambda_of_mem {env : Env F} {v paramsExp : RispExp F} (h : (f, v) ∈ env) :
    v ≠ .lambda paramsExp body env := by
  intro heq
  have hmem := List.sizeOf_lt_of_mem h
  have hsize := congrArg sizeOf heq
  simp only [Prod.mk.sizeOf_spec, RispExp.lambda.sizeOf_spec] at hmem hsize
  omega

/-- The definition in an environment: it binds `f` to the lambda. -/
lemma exec_defineForm (host : Host F W) (fuel : ℕ) (s : Session F W) (f : Str) (ks : List Str)
    (body : RispExp F) :
    ∃ calls, (eval host (fuel + 2) (defineForm f ks body)).exec s =
      (.ok (.symbol f),
        { s with env := Assoc.insert f (definedLambda ks body s.env) s.env, calls := calls }) :=
  ⟨_, rfl⟩

lemma mapM_parameterName (ks : List Str) :
    (ks.map RispExp.symbol : List (RispExp F)).mapM parameterName = .ok ks := by
  induction ks with
  | nil => rfl
  | cons k ks ih =>
      rw [List.map_cons, List.mapM_cons, ih]
      rfl

/-- The environment of the body: the caller's, under the captured one, under the parameters. -/
lemma envForLambda_eq (h : vals.length = ks.length) (outer : Env F) :
    envForLambda (.list (ks.map .symbol)) vals outer =
      .ok (Assoc.insertAll outer (ks.zip vals)) := by
  simp only [envForLambda, parseListOfSymbolStrings, mapM_parameterName]
  rw [if_neg (not_not.mpr h.symm)]

/-- The environment in which a call runs the body. -/
def callEnv (ks : List Str) (captured caller : Env F) (vals : List (RispExp F)) : Env F :=
  Assoc.insertAll (Assoc.insertAll caller captured) (ks.zip vals)

/-- The state in which the arguments of a call `(f args)` are evaluated. -/
def atArgs (f : Str) (args : List (RispExp F)) (s : Session F W) : Session F W :=
  { s with calls := .symbol f :: .list (.symbol f :: args) :: s.calls }

lemma exec_envGet (k : Str) (s : Session F W) : (envGet k).exec s = (.ok (s.env.lookup k), s) := rfl

/-- A symbol that is bound is evaluated to its value. -/
lemma exec_eval_symbol {k : Str} {v : RispExp F} (fuel : ℕ) (h : s.env.lookup k = some v) :
    (eval host (fuel + 1) (.symbol k)).exec s =
      (.ok v, { s with calls := .symbol k :: s.calls }) := by
  rw [eval, exec_bind]
  simp only [exec_modify, evalStep]
  rw [exec_bind, exec_envGet]
  simp only [h, exec_pure]

lemma exec_callLambda {captured : Env F} (ev : RispExp F → Eval F W (RispExp F))
    (hlen : vals.length = ks.length) :
    (callLambda ev (.list (ks.map .symbol)) body captured vals).exec s =
      (inEnv (callEnv ks captured s.env vals) (ev body)).exec s := by
  have hbody : (bodyEnv (.list (ks.map .symbol)) captured vals).exec s =
      (.ok (.ok (callEnv ks captured s.env vals)), s) := by
    rw [callEnv, ← envForLambda_eq hlen]
    rfl
  rw [callLambda, exec_bind, hbody]
  simp only [liftResult, pure_bind]

/-- A call of a function that is bound to a lambda. -/
lemma exec_call {captured : Env F} (fuel : ℕ) (hform : Form.ofName f = none)
    (hf : s.env.lookup f = some (definedLambda ks body captured))
    (hargs : (evalArgs (eval host (fuel + 1)) args).exec (atArgs f args s) = (.ok vals, t))
    (hlen : vals.length = ks.length) :
    (eval host (fuel + 2) (.list (.symbol f :: args))).exec s =
      (inEnv (callEnv ks captured t.env vals) (eval host (fuel + 1) body)).exec t := by
  have hfirst : (eval host (fuel + 1) (.symbol f)).exec
      { s with calls := .list (.symbol f :: args) :: s.calls } =
      (.ok (definedLambda ks body captured), atArgs f args s) := exec_eval_symbol fuel hf
  rw [eval, exec_bind]
  simp only [exec_modify, evalStep, evalList, Form.ofFirst, hform, evalCall]
  rw [exec_bind, hfirst]
  simp only [definedLambda]
  rw [exec_bind, hargs]
  exact exec_callLambda _ hlen

/-- What the body sees under the name of the function. -/
lemma lookup_callEnv {captured caller : Env F} (hparams : f ∉ ks) :
    (callEnv ks captured caller vals).lookup f = (Assoc.insertAll caller captured).lookup f := by
  refine Assoc.lookup_insertAll_of_notMem fun hmem => hparams ?_
  obtain ⟨p, hp, rfl⟩ := List.mem_map.mp hmem
  exact (List.of_mem_zip hp).1

lemma lookup_eq_none_iff {env : Env F} : env.lookup f = none ↔ f ∉ env.map Prod.fst := by
  rw [List.lookup_eq_none_iff, List.mem_map]
  constructor
  · rintro h ⟨p, hp, rfl⟩
    exact absurd (h p hp) (by simp)
  · intro h p hp
    rw [bne_iff_ne]
    rintro rfl
    exact h ⟨p, hp, rfl⟩

/-- The body sees the function itself exactly if the captured environment does not bind its name and
the caller's environment binds it to the function. -/
lemma lookup_callEnv_iff {captured caller : Env F} (hparams : f ∉ ks) :
    (callEnv ks captured caller vals).lookup f = some (definedLambda ks body captured) ↔
      captured.lookup f = none ∧ caller.lookup f = some (definedLambda ks body captured) := by
  rw [lookup_callEnv hparams, lookup_eq_none_iff]
  by_cases hmem : f ∈ captured.map Prod.fst
  · obtain ⟨v, hv, hlookup⟩ := Assoc.exists_lookup_insertAll (m := caller) hmem
    rw [hlookup, Option.some.injEq]
    exact iff_of_false (ne_lambda_of_mem hv) fun h => h.1 hmem
  · rw [Assoc.lookup_insertAll_of_notMem hmem]
    exact ⟨fun h => ⟨hmem, h⟩, And.right⟩

/-- Arguments that do not name `f` as the operand of a binding form leave it alone. -/
lemma lookup_of_evalArgs {fuel : ℕ} (hargs : ∀ arg ∈ args, ¬ Binds f arg)
    (h : (evalArgs (eval host fuel) args).exec s = (.ok vals, t)) :
    t.env.lookup f = s.env.lookup f := by
  have hframe : Ensures _ (evalArgs (eval host fuel) args) _ :=
    Discipline.ensures_evalArgs (D := frameDiscipline host f (s.env.lookup f))
      (fun _ he => (frameDiscipline host f (s.env.lookup f)).ensures_eval fuel he) hargs
  have hinv := (hframe s rfl).1
  rw [h] at hinv
  exact hinv

end Recursion

/-- **Recursion.**  After `(def f (fn params body))`, a call `(f args)` with the right number of
arguments evaluates the body in the environment `callEnv`: the one that the arguments leave, under
the one that was captured, under the parameters.  There `f` is that function exactly if `f` was not
bound before the definition and evaluating the arguments has not bound it to anything else; for
arguments that do not bind it, exactly if `f` was not bound before. -/
theorem recursion_sees_itself_iff {F W : Type} (host : Host F W) (fuel : ℕ) (s : Session F W)
    {f : Str} {ks : List Str} (body : RispExp F) (args : List (RispExp F))
    (hform : Form.ofName f = none) (hparams : f ∉ ks) :
    ∃ s₁, (eval host (fuel + 2) (defineForm f ks body)).exec s = (.ok (.symbol f), s₁) ∧
      ∀ vals s₂, (evalArgs (eval host (fuel + 1)) args).exec (atArgs f args s₁) = (.ok vals, s₂) →
        vals.length = ks.length →
        (eval host (fuel + 2) (.list (.symbol f :: args))).exec s₁ =
            (inEnv (callEnv ks s.env s₂.env vals) (eval host (fuel + 1) body)).exec s₂ ∧
          ((callEnv ks s.env s₂.env vals).lookup f = some (definedLambda ks body s.env) ↔
            s.env.lookup f = none ∧ s₂.env.lookup f = some (definedLambda ks body s.env)) ∧
          ((∀ arg ∈ args, ¬ Binds f arg) →
            ((callEnv ks s.env s₂.env vals).lookup f = some (definedLambda ks body s.env) ↔
              s.env.lookup f = none)) := by
  obtain ⟨calls, hdef⟩ := exec_defineForm host fuel s f ks body
  refine ⟨_, hdef, fun vals s₂ hargs hlen => ?_⟩
  have hf := Assoc.lookup_insert_self f (definedLambda ks body s.env) s.env
  refine ⟨exec_call fuel hform hf hargs hlen, lookup_callEnv_iff hparams, fun hbinds => ?_⟩
  rw [lookup_callEnv_iff hparams, lookup_of_evalArgs hbinds hargs]
  exact ⟨And.left, fun h => ⟨h, hf⟩⟩

/-- A definition in a fresh environment. -/
theorem recursion_sees_itself_iff_fresh :
    Form.ofName ['g'] = none ∧ ['g'] ∉ [['b']] ∧
      ∃ s₁, (eval recorder 3 (defineForm ['g'] [['b']] (.symbol ['g']))).exec ⟨[], [], [], []⟩ =
          (.ok (.symbol ['g']), s₁) ∧
        ∃ s₂, (evalArgs (eval recorder 2) [.bool true]).exec (atArgs ['g'] [.bool true] s₁) =
            (.ok [.bool true], s₂) ∧
          (eval recorder 3 (.list [.symbol ['g'], .bool true])).exec s₁ =
            (inEnv (callEnv [['b']] [] s₂.env [.bool true]) (eval recorder 2 (.symbol ['g']))).exec
              s₂ ∧
          (callEnv [['b']] [] s₂.env [.bool true]).lookup ['g'] =
            some (definedLambda [['b']] (.symbol ['g']) []) := by
  have hform : Form.ofName ['g'] = none := rfl
  have hparams : ['g'] ∉ [['b']] := by decide
  obtain ⟨s₁, hdef, hcall⟩ := recursion_sees_itself_iff recorder 1 ⟨[], [], [], []⟩
    (.symbol ['g']) [.bool true] hform hparams
  obtain ⟨hrun, -, hiff⟩ := hcall [.bool true] _ rfl rfl
  refine ⟨hform, hparams, s₁, hdef, _, rfl, hrun, (hiff fun arg harg => ?_).mpr rfl⟩
  obtain rfl := List.mem_singleton.mp harg
  rintro ⟨⟩

/-- The same recursive function under a fresh name and under the name of a command: the second one
calls the symbol that `interpret` has bound to the name. -/
theorem recursion_finds_command :
    ((interpret recorder 20 [[],
    ['(', 'd', 'e', 'f', ' ', 'g', ' ', '(', 'f', 'n', ' ', '(', 'b', ')', ' ', '(', 'i', 'f',
     ' ', 'b', ' ', 't', 'r', 'u', 'e', ' ', '(', 'g', ' ', 't', 'r', 'u', 'e', ')', ')', ')',
     ')', ';', '(', 'g', ' ', 'f', 'a', 'l', 's', 'e', ')', ';']]).exec ⟨[], [], [], []⟩).1 =
      .ok (.ok ⟨"worked", false⟩) ∧
    ((interpret recorder 20 [[],
    ['(', 'd', 'e', 'f', ' ', 'e', 'c', 'h', 'o', ' ', '(', 'f', 'n', ' ', '(', 'b', ')', ' ',
     '(', 'i', 'f', ' ', 'b', ' ', 't', 'r', 'u', 'e', ' ', '(', 'e', 'c', 'h', 'o', ' ', 't',
     'r', 'u', 'e', ')', ')', ')', ')', ';', '(', 'e', 'c', 'h', 'o', ' ', 'f', 'a', 'l', 's',
     'e', ')', ';']]).exec
      ⟨[], [], [], []⟩).1 = .ok (.error ⟨"first form must be a function"⟩) := by
  exact ⟨rfl, rfl⟩

end SilOS.Risp
