/-
# Relations between two runs of a program

`Congruence` is a relation between the computations of two systems that every way of building a
program keeps.  Then the evaluator, and with it `interpret`, is related to itself: the proof follows
the text of `eval` once, for all such relations.
-/
import SilOS.Risp.Seeding

namespace SilOS.Risp

open Lib Comp

/-- A relation between computations that is kept by all ways of building a program. -/
structure Congruence {F W W' : Type} (host : Host F W) (host' : Host F W') where
  rel : ∀ {α : Type}, Eval F W α → Eval F W' α → Prop
  ops : host'.ops = host.ops
  commandList : host'.commandList = host.commandList
  pure : ∀ {α : Type} (a : α), rel (Pure.pure a) (Pure.pure a)
  throw : ∀ {α : Type} (e : Stop), rel (throwThe Stop e : Eval F W α) (throwThe Stop e)
  bind : ∀ {α β : Type} {m : Eval F W α} {m' : Eval F W' α} {f : α → Eval F W β}
    {f' : α → Eval F W' β}, rel m m' → (∀ a, rel (f a) (f' a)) → rel (m >>= f) (m' >>= f')
  /-- The environment is all that a program looks at in its state. -/
  getEnv : ∀ {α : Type} {f : Env F → Eval F W α} {f' : Env F → Eval F W' α},
    (∀ env, rel (f env) (f' env)) →
      rel (get >>= fun s => f s.env) (get >>= fun s => f' s.env)
  setEnv : ∀ f : Env F → Env F, rel (modify fun s => { s with env := f s.env })
    (modify fun s => { s with env := f s.env })
  logCall : ∀ e : RispExp F, rel (modify fun s => { s with calls := e :: s.calls })
    (modify fun s => { s with calls := e :: s.calls })
  logText : ∀ text : Str, rel (modify fun s => { s with texts := text :: s.texts })
    (modify fun s => { s with texts := text :: s.texts })
  inEnv : ∀ {α : Type} (env : Env F) {m : Eval F W α} {m' : Eval F W' α},
    rel m m' → rel (Risp.inEnv env m) (Risp.inEnv env m')
  dropResult : ∀ {α : Type} {m : Eval F W α} {m' : Eval F W' α},
    rel m m' → rel (Risp.dropResult m) (Risp.dropResult m')
  attempt : ∀ {α : Type} {m : Eval F W α} {m' : Eval F W' α},
    rel m m' → rel (Risp.attempt m) (Risp.attempt m')
  runCommand : ∀ cmd, rel (Risp.runCommand host cmd) (Risp.runCommand host' cmd)
  print : ∀ (successCode : String) (printCode : Bool),
    rel
      (modify fun s => { s with
        world := if printCode then host.println successCode s.world else s.world })
      (modify fun s => { s with
        world := if printCode then host'.println successCode s.world else s.world })

namespace Congruence

variable {F W W' α : Type} {host : Host F W} {host' : Host F W'} (C : Congruence host host')

/-! ### Primitive steps -/

lemma rel_reason (msg : String) : C.rel (reason msg : Eval F W α) (reason msg) := C.throw _

lemma rel_liftResult (r : Except RispErr α) : C.rel (liftResult r) (liftResult r) := by
  cases r with
  | error e => exact C.throw _
  | ok a => exact C.pure a

lemma rel_envGet (k : Str) : C.rel (envGet k) (envGet k) :=
  C.getEnv fun env => C.pure (env.lookup k)

lemma rel_envInsert (k : Str) (v : RispExp F) : C.rel (envInsert k v) (envInsert k v) :=
  C.setEnv (Assoc.insert k v)

lemma rel_argForm (args : List (RispExp F)) (i : ℕ) (msg : String) :
    C.rel (argForm args i msg) (argForm args i msg) := by
  rw [argForm, argForm]
  split
  · exact C.pure _
  · exact C.rel_reason msg

lemma rel_symbolName (form : RispExp F) (msg : String) :
    C.rel (symbolName form msg) (symbolName form msg) := by
  cases form with
  | symbol s => exact C.pure s
  | _ => exact C.rel_reason msg

lemma rel_currentList (name : Str) : C.rel (currentList name) (currentList name) := by
  refine C.bind (C.rel_envGet name) fun o => ?_
  split
  · exact C.pure _
  · exact C.rel_reason _
  · exact C.rel_reason _

lemma rel_currentMap (name : Str) : C.rel (currentMap name) (currentMap name) := by
  refine C.bind (C.rel_envGet name) fun o => ?_
  split
  · exact C.pure _
  · exact C.rel_reason _
  · exact C.rel_reason _

lemma rel_bodyEnv (paramsExp : RispExp F) (capturedEnv : Env F) (args : List (RispExp F)) :
    C.rel (bodyEnv paramsExp capturedEnv args) (bodyEnv paramsExp capturedEnv args) :=
  C.getEnv fun env =>
    C.pure (envForLambda paramsExp args (Assoc.insertAll env capturedEnv))

/-! ### The forms -/

section Forms

variable {ev : RispExp F → Eval F W (RispExp F)} {ev' : RispExp F → Eval F W' (RispExp F)}
  (hev : ∀ e, C.rel (ev e) (ev' e))

include hev

lemma rel_evalArgs (args : List (RispExp F)) : C.rel (evalArgs ev args) (evalArgs ev' args) := by
  induction args with
  | nil => exact C.pure []
  | cons arg args ih =>
      refine C.bind (hev arg) fun v => ?_
      exact C.bind ih fun vs => C.pure (v :: vs)

lemma rel_evalIf (args : List (RispExp F)) :
    C.rel (evalIf host ev args) (evalIf host' ev' args) := by
  refine C.bind (C.rel_argForm args 0 _) fun testForm => ?_
  refine C.bind (hev testForm) fun test => ?_
  rw [C.ops]
  split
  · exact C.bind (C.rel_argForm args _ _) hev
  · exact C.rel_reason _

lemma rel_evalDef (args : List (RispExp F)) : C.rel (evalDef ev args) (evalDef ev' args) := by
  refine C.bind (C.rel_argForm args 0 _) fun firstForm => ?_
  refine C.bind (C.rel_symbolName firstForm _) fun name => ?_
  refine C.bind (C.rel_argForm args 1 _) fun secondForm => ?_
  split_ifs
  · exact C.rel_reason _
  · refine C.bind (hev secondForm) fun v => ?_
    exact C.bind (C.rel_envInsert name v) fun _ => C.pure firstForm

omit hev in
lemma rel_evalFn (args : List (RispExp F)) : C.rel (evalFn args) (evalFn args) :=
  C.getEnv fun env => C.rel_liftResult (evalLambdaArgs args env)

lemma rel_evalSys (args : List (RispExp F)) :
    C.rel (evalSys host ev args) (evalSys host' ev' args) := by
  have hpart : commandPart host' = commandPart host := by
    funext arg
    cases arg <;> simp only [commandPart, C.ops]
  rw [evalSys, evalSys]
  split_ifs
  · exact C.rel_reason _
  · refine C.bind (C.rel_evalArgs hev args) fun vs => ?_
    rw [hpart]
    refine C.bind (C.rel_liftResult _) fun cmd => ?_
    refine C.bind (C.runCommand cmd) fun outcome => ?_
    cases outcome with
    | success successCode printCode =>
        exact C.bind (C.print successCode printCode) fun _ => C.pure _
    | failed errorCode => exact C.rel_reason _
    | notFound errorCode => exact C.rel_reason _

lemma rel_evalUntil (stop : Bool) (msg : String) (args : List (RispExp F)) :
    C.rel (evalUntil ev stop msg args) (evalUntil ev' stop msg args) := by
  induction args with
  | nil => exact C.pure _
  | cons arg args ih =>
      refine C.bind (hev arg) fun v => ?_
      split
      · split_ifs
        · exact C.pure _
        · exact ih
      · exact C.rel_reason msg

lemma rel_evalLoop (condition body : RispExp F) (rounds : ℕ) :
    C.rel (evalLoop ev condition body rounds) (evalLoop ev' condition body rounds) := by
  induction rounds with
  | zero => exact C.throw _
  | succ rounds ih =>
      refine C.bind (hev condition) fun v => ?_
      split
      · exact C.bind (hev body) fun _ => ih
      · exact C.pure _
      · exact C.rel_reason _

omit hev in
/-- A loop may have another bound on the other side. -/
lemma rel_evalFor {rounds rounds' : ℕ}
    (hloop : ∀ condition body,
      C.rel (evalLoop ev condition body rounds) (evalLoop ev' condition body rounds'))
    (args : List (RispExp F)) : C.rel (evalFor ev rounds args) (evalFor ev' rounds' args) := by
  refine C.bind (C.rel_argForm args 0 _) fun condition => ?_
  exact C.bind (C.rel_argForm args 1 _) fun body => hloop condition body

lemma rel_evalAppend (args : List (RispExp F)) :
    C.rel (evalAppend ev args) (evalAppend ev' args) := by
  refine C.bind (C.rel_argForm args 0 _) fun symForm => ?_
  refine C.bind (C.rel_argForm args 1 _) fun valForm => ?_
  refine C.bind (C.rel_symbolName symForm _) fun name => ?_
  refine C.bind (hev valForm) fun v => ?_
  refine C.bind (C.rel_currentList name) fun l => ?_
  exact C.bind (C.rel_envInsert name _) fun _ => C.pure _

omit hev in
lemma rel_evalPop (args : List (RispExp F)) : C.rel (evalPop args) (evalPop args) := by
  refine C.bind (C.rel_argForm args 0 _) fun symForm => ?_
  refine C.bind (C.rel_symbolName symForm _) fun name => ?_
  refine C.bind (C.rel_currentList name) fun l => ?_
  split
  · exact C.rel_reason _
  · exact C.bind (C.rel_envInsert name _) fun _ => C.pure _

lemma rel_evalMset (args : List (RispExp F)) :
    C.rel (evalMset host ev args) (evalMset host' ev' args) := by
  refine C.bind (C.rel_argForm args 0 _) fun symForm => ?_
  refine C.bind (C.rel_argForm args 1 _) fun keyForm => ?_
  refine C.bind (C.rel_argForm args 2 _) fun valForm => ?_
  refine C.bind (C.rel_symbolName symForm _) fun name => ?_
  refine C.bind (hev keyForm) fun k => ?_
  rw [C.ops]
  refine C.bind (C.rel_liftResult _) fun key => ?_
  refine C.bind (hev valForm) fun v => ?_
  refine C.bind (C.rel_currentMap name) fun m => ?_
  exact C.bind (C.rel_envInsert name _) fun _ => C.pure v

lemma rel_evalMdel (args : List (RispExp F)) :
    C.rel (evalMdel host ev args) (evalMdel host' ev' args) := by
  refine C.bind (C.rel_argForm args 0 _) fun symForm => ?_
  refine C.bind (C.rel_argForm args 1 _) fun keyForm => ?_
  refine C.bind (C.rel_symbolName symForm _) fun name => ?_
  refine C.bind (hev keyForm) fun k => ?_
  rw [C.ops]
  refine C.bind (C.rel_liftResult _) fun key => ?_
  refine C.bind (C.rel_currentMap name) fun m => ?_
  exact C.bind (C.rel_envInsert name _) fun _ => C.pure _

lemma rel_evalDo (lastResult : RispExp F) (args : List (RispExp F)) :
    C.rel (evalDo ev lastResult args) (evalDo ev' lastResult args) := by
  induction args generalizing lastResult with
  | nil => exact C.pure lastResult
  | cons form forms ih => exact C.bind (hev form) ih

lemma rel_runHandler (msg : RispExp F) : C.rel (runHandler ev msg) (runHandler ev' msg) := by
  refine C.bind (C.rel_envGet _) fun o => ?_
  split
  · refine C.bind (C.rel_bodyEnv _ _ _) fun r => ?_
    split
    · exact C.dropResult (C.inEnv _ (hev _))
    · exact C.pure _
  · exact C.pure _

lemma rel_evalError (args : List (RispExp F)) :
    C.rel (evalError host ev args) (evalError host' ev' args) := by
  refine C.bind (C.rel_argForm args 0 _) fun msgForm => ?_
  refine C.bind (hev msgForm) fun msg => ?_
  refine C.bind (C.rel_runHandler hev msg) fun _ => ?_
  have htext : errorText host' msg = errorText host msg := by
    cases msg <;> simp only [errorText, C.ops]
  rw [htext]
  exact C.rel_reason _

lemma rel_evalCall (first : RispExp F) (args : List (RispExp F)) :
    C.rel (evalCall host ev first args) (evalCall host' ev' first args) := by
  refine C.bind (hev first) fun f => ?_
  split
  · refine C.bind (C.rel_evalArgs hev args) fun vs => ?_
    rw [C.ops]
    exact C.rel_liftResult _
  · refine C.bind (C.rel_evalArgs hev args) fun vs => ?_
    refine C.bind (C.rel_bodyEnv _ _ _) fun r => ?_
    exact C.bind (C.rel_liftResult r) fun env => C.inEnv env (hev _)
  · exact C.rel_reason _

lemma rel_evalForm {rounds rounds' : ℕ}
    (hloop : ∀ condition body,
      C.rel (evalLoop ev condition body rounds) (evalLoop ev' condition body rounds'))
    (form : Form) (args : List (RispExp F)) :
    C.rel (evalForm host ev rounds form args) (evalForm host' ev' rounds' form args) := by
  cases form with
  | ifForm => exact C.rel_evalIf hev args
  | defForm => exact C.rel_evalDef hev args
  | fnForm => exact C.rel_evalFn args
  | sysForm => exact C.rel_evalSys hev args
  | quoteForm => exact C.rel_argForm args 0 _
  | andForm => exact C.rel_evalUntil hev false _ args
  | orForm => exact C.rel_evalUntil hev true _ args
  | forForm => exact C.rel_evalFor hloop args
  | appendForm => exact C.rel_evalAppend hev args
  | popForm => exact C.rel_evalPop args
  | msetForm => exact C.rel_evalMset hev args
  | mdelForm => exact C.rel_evalMdel hev args
  | doForm => exact C.rel_evalDo hev _ args
  | errorForm => exact C.rel_evalError hev args

lemma rel_evalStep {rounds rounds' : ℕ}
    (hloop : ∀ condition body,
      C.rel (evalLoop ev condition body rounds) (evalLoop ev' condition body rounds'))
    (e : RispExp F) : C.rel (evalStep host ev rounds e) (evalStep host' ev' rounds' e) := by
  cases e with
  | bool b | number n | string s | map m => exact C.pure _
  | func name | lambda p b c | syscall cmd => exact C.rel_reason _
  | symbol k =>
      refine C.bind (C.rel_envGet k) fun o => ?_
      split
      · exact C.pure _
      · exact C.rel_reason _
  | list l =>
      rw [evalStep, evalStep, evalList.eq_def, evalList.eq_def]
      cases l with
      | nil => exact C.rel_reason _
      | cons first args =>
          simp only
          split
          · exact C.rel_evalForm hev hloop _ args
          · exact C.rel_evalCall hev first args

end Forms

/-! ### Programs -/

variable {fuel fuel' : ℕ}

/-- The same bound on both sides. -/
theorem rel_eval (fuel : ℕ) (e : RispExp F) : C.rel (eval host fuel e) (eval host' fuel e) := by
  induction fuel generalizing e with
  | zero =>
      rw [eval, eval]
      exact C.bind (C.logCall e) fun _ => C.throw _
  | succ fuel ih =>
      rw [eval, eval]
      exact C.bind (C.logCall e) fun _ =>
        C.rel_evalStep ih (fun condition body => C.rel_evalLoop ih condition body fuel) e

section Programs

variable (heval : ∀ e, C.rel (eval host fuel e) (eval host' fuel' e))

include heval

lemma rel_parseEval (expr : Str) :
    C.rel (parseEval host fuel expr) (parseEval host' fuel' expr) := by
  refine C.bind (C.logText expr) fun _ => ?_
  rw [C.ops]
  split
  · exact C.throw _
  · exact heval _

lemma rel_runStatements (ss : List Str) (worked : Bool) (errorMsg : String) :
    C.rel (runStatements host fuel ss worked errorMsg)
      (runStatements host' fuel' ss worked errorMsg) := by
  induction ss generalizing worked errorMsg with
  | nil => exact C.pure _
  | cons code rest ih =>
      refine C.bind (C.attempt (C.rel_parseEval heval code)) fun r => ?_
      split
      · exact ih worked errorMsg
      · exact ih false _

/-- **Programs.**  A program is related to itself if its expressions are. -/
theorem rel_interpret (expr : List Str) :
    C.rel (interpret host fuel expr) (interpret host' fuel' expr) := by
  rcases expr with _ | ⟨name, _ | ⟨code, args⟩⟩
  · exact C.pure _
  · exact C.pure _
  · have henv : initialEnv host' args = initialEnv host args := by
      rw [initialEnv_eq, initialEnv_eq, C.ops, C.commandList]
    have hstart : C.rel (modify fun s => { s with env := initialEnv host args })
        (modify fun s => { s with env := initialEnv host' args }) := by
      rw [henv]
      exact C.setEnv fun _ => initialEnv host args
    refine C.bind (C.bind hstart fun _ => C.dropResult (C.rel_parseEval heval _)) fun _ => ?_
    rw [runProgram, runProgram]
    split_ifs
    · exact C.pure _
    · exact C.bind (C.rel_runStatements heval _ true "") fun r => C.pure _

end Programs

end Congruence

end SilOS.Risp
