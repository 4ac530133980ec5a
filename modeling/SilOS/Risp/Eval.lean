/-
# Evaluation

`eval` of `src/parser.rs`: the special forms, the calls of built-in functions and lambdas, and
the `error` form with its handler.  A lambda body runs in a copy of the caller's environment over
which the captured environment and the parameters are written; the other forms run in the
caller's own environment.

What a command does is left open: `run_cmd` is any function on the rest of the system.  The
recursion and the `for` loop are given a bound on their depth; a run that uses it up, and one in
which a command does not return, ends with the fault `fuel`.  Besides the environment and the
rest of the system the state records the texts that `parse_eval` was called on and the
expressions that `eval` was called on.
-/
import SilOS.Lib.Comp
import SilOS.Risp.Builtins

namespace SilOS.Risp

open Lib

/-- How a command ended: it was not found, it failed, or it succeeded with a text that is printed
or not. -/
inductive CommandOutcome where
  | notFound (errorCode : String)
  | failed (errorCode : String)
  | success (successCode : String) (printCode : Bool)
deriving DecidableEq

/-- What the interpreter uses of the rest of the kernel, whose state is `W`. -/
structure Host (F W : Type) where
  ops : FloatOps F
  /-- `run_cmd` and the command it returns; `none` if that does not return. -/
  runCmd : List Str → W → Option CommandOutcome × W
  println : String → W → W
  /-- `get_command_list`. -/
  commandList : List Str

/-- The state of a run. -/
structure Session (F W : Type) where
  env : Env F
  world : W
  /-- The texts that `parse_eval` was called on, the last one first. -/
  texts : List Str
  /-- The expressions that `eval` was called on, the last one first. -/
  calls : List (RispExp F)

/-- The computations of the interpreter. -/
abbrev Eval (F W : Type) (α : Type) := Comp (Session F W) Stop α

section Primitives

variable {F W α : Type}

/-- `Err(RispErr::Reason(..))`. -/
def reason (msg : String) : Eval F W α := throw (.err (.reason msg))

/-- `?` on the result of a pure function. -/
def liftResult : Except RispErr α → Eval F W α
  | .ok a => pure a
  | .error e => throw (.err e)

/-- `env_get`. -/
def envGet (k : Str) : Eval F W (Option (RispExp F)) := do
  let s ← get
  pure (s.env.lookup k)

/-- `env.data.insert`. -/
def envInsert (k : Str) (v : RispExp F) : Eval F W PUnit :=
  modify fun s => { s with env := Assoc.insert k v s.env }

/-- Run a computation in another environment, and come back to the present one. -/
def inEnv (env : Env F) (m : Eval F W α) : Eval F W α :=
  Comp.ofRuns fun s =>
    let r := m.exec { s with env := env }
    (r.1, { r.2 with env := s.env })

/-- `let _ = m.await`: errors of the interpreter are dropped, a fault is not. -/
def dropResult (m : Eval F W α) : Eval F W PUnit :=
  Comp.ofRuns fun s =>
    match m.exec s with
    | (.ok _, s') => (.ok .unit, s')
    | (.error (.err _), s') => (.ok .unit, s')
    | (.error (.fault f), s') => (.error (.fault f), s')

/-- `arg_forms.get(i).ok_or(..)?`. -/
def argForm (args : List (RispExp F)) (i : ℕ) (msg : String) : Eval F W (RispExp F) :=
  match args[i]? with
  | some form => pure form
  | none => reason msg

/-- The name of a symbol. -/
def symbolName (form : RispExp F) (msg : String) : Eval F W Str :=
  match form with
  | .symbol s => pure s
  | _ => reason msg

/-- The list bound to a variable. -/
def currentList (name : Str) : Eval F W (List (RispExp F)) := do
  match ← envGet name with
  | some (.list l) => pure l
  | some _ => reason ("'" ++ String.ofList name ++ "' is not a list")
  | none => reason ("undefined variable '" ++ String.ofList name ++ "'")

/-- The map bound to a variable. -/
def currentMap (name : Str) : Eval F W (Entries F) := do
  match ← envGet name with
  | some (.map m) => pure m
  | some _ => reason ("'" ++ String.ofList name ++ "' is not a map")
  | none => reason ("undefined variable '" ++ String.ofList name ++ "'")

end Primitives

/-! ### Lambdas -/

section Lambdas

variable {F : Type}

/-- The name of a parameter. -/
def parameterName : RispExp F → Except RispErr Str
  | .symbol s => .ok s
  | _ => fail "expected symbols in the argument list"

/-- `parse_list_of_symbol_strings`. -/
def parseListOfSymbolStrings : RispExp F → Except RispErr (List Str)
  | .list l => l.mapM parameterName
  | _ => fail "expected args form to be a list"

/-- `env_for_lambda`. -/
def envForLambda (params : RispExp F) (args : List (RispExp F)) (outerEnv : Env F) :
    Except RispErr (Env F) :=
  match parseListOfSymbolStrings params with
  | .error e => .error e
  | .ok ks =>
      if ks.length ≠ args.length then
        fail ("expected " ++ toString ks.length ++ " arguments, got " ++ toString args.length)
      else .ok (Assoc.insertAll outerEnv (ks.zip args))

/-- `eval_lambda_args`. -/
def evalLambdaArgs (argForms : List (RispExp F)) (capturedEnv : Env F) :
    Except RispErr (RispExp F) :=
  match argForms with
  | [] => fail "expected args form"
  | [_] => fail "expected second form"
  | [paramsExp, bodyExp] => .ok (.lambda paramsExp bodyExp capturedEnv)
  | _ => fail "fn definition can only have two forms "

end Lambdas

/-! ### The special forms -/

/-- The names that `eval` treats as special forms. -/
inductive Form where
  | ifForm | defForm | fnForm | sysForm | quoteForm | andForm | orForm | forForm | appendForm
  | popForm | msetForm | mdelForm | doForm | errorForm
deriving DecidableEq

namespace Form

/-- The special form of a name. -/
def ofName : Str → Option Form
  | ['i', 'f'] => some .ifForm
  | ['d', 'e', 'f'] => some .defForm
  | ['f', 'n'] => some .fnForm
  | ['s', 'y', 's'] => some .sysForm
  | ['q', 'u', 'o', 't', 'e'] => some .quoteForm
  | ['a', 'n', 'd'] => some .andForm
  | ['o', 'r'] => some .orForm
  | ['f', 'o', 'r'] => some .forForm
  | ['a', 'p', 'p', 'e', 'n', 'd'] => some .appendForm
  | ['p', 'o', 'p'] => some .popForm
  | ['m', 's', 'e', 't'] => some .msetForm
  | ['m', 'd', 'e', 'l'] => some .mdelForm
  | ['d', 'o'] => some .doForm
  | ['e', 'r', 'r', 'o', 'r'] => some .errorForm
  | _ => none

/-- The special form that a list with the first element `first` is. -/
def ofFirst {F : Type} : RispExp F → Option Form
  | .symbol s => ofName s
  | _ => none

end Form

section Forms

-- In a form, `ev` evaluates the expressions in it.
variable {F W : Type} (host : Host F W) (ev : RispExp F → Eval F W (RispExp F))

/-- The loops that evaluate the arguments of a call. -/
def evalArgs : List (RispExp F) → Eval F W (List (RispExp F))
  | [] => pure []
  | arg :: args => do
      let v ← ev arg
      let vs ← evalArgs args
      pure (v :: vs)

def evalIf (args : List (RispExp F)) : Eval F W (RispExp F) := do
  let testForm ← argForm args 0 "expected test form"
  match ← ev testForm with
  | .bool b => do
      let formIdx := if b then 1 else 2
      let resForm ← argForm args formIdx ("expected form idx=" ++ toString formIdx)
      ev resForm
  | _ =>
      let shown := String.ofList (testForm.display host.ops.toFloatText)
      reason ("unexpected test form='" ++ shown ++ "'")

def evalDef (args : List (RispExp F)) : Eval F W (RispExp F) := do
  let firstForm ← argForm args 0 "expected first form"
  let firstStr ← symbolName firstForm "expected first form to be a symbol"
  let secondForm ← argForm args 1 "expected second form"
  if 2 < args.length then reason "def can only have two forms "
  else do
    let secondEval ← ev secondForm
    envInsert firstStr secondEval
    pure firstForm

def evalFn (args : List (RispExp F)) : Eval F W (RispExp F) := do
  let s ← get
  liftResult (evalLambdaArgs args s.env)

/-- An evaluated argument of `sys` as a word of the command. -/
def commandPart (arg : RispExp F) : Except RispErr Str :=
  match arg with
  | .symbol s => .ok s
  | .number n => .ok (host.ops.display n)
  | .bool b => .ok (boolText b)
  | .string s => .ok s
  | .list _ | .map _ => .ok (arg.display host.ops.toFloatText)
  | _ => fail "sys args must evaluate to symbols, numbers, bools, strings, lists, or maps"

/-- Run a command, and wait for it. -/
def runCommand (cmd : List Str) : Eval F W CommandOutcome :=
  Comp.ofRuns fun s =>
    match host.runCmd cmd s.world with
    | (some outcome, w) => (.ok outcome, { s with world := w })
    | (none, w) => (.error (.fault .fuel), { s with world := w })

def evalSys (args : List (RispExp F)) : Eval F W (RispExp F) :=
  if args = [] then reason "sys expects at least one argument"
  else do
    let evaluatedArgs ← evalArgs ev args
    let cmdVec ← liftResult (evaluatedArgs.mapM (commandPart host))
    match ← runCommand host cmdVec with
    | .success successCode printCode => do
        modify fun s => { s with
          world := if printCode then host.println successCode s.world else s.world }
        pure (.syscall cmdVec)
    | .failed errorCode => reason ("Syscall failed: " ++ errorCode)
    | .notFound errorCode => reason ("Command lookup failed: " ++ errorCode)

def evalQuote (args : List (RispExp F)) : Eval F W (RispExp F) :=
  argForm args 0 "expected form to quote"

/-- The loops of `and` and `or`: stop at the first argument that is `stop`. -/
def evalUntil (stop : Bool) (msg : String) : List (RispExp F) → Eval F W (RispExp F)
  | [] => pure (.bool !stop)
  | arg :: args => do
      match ← ev arg with
      | .bool b => if b = stop then pure (.bool stop) else evalUntil stop msg args
      | _ => reason msg

def evalAnd (args : List (RispExp F)) : Eval F W (RispExp F) :=
  evalUntil ev false "and expects booleans" args

def evalOr (args : List (RispExp F)) : Eval F W (RispExp F) :=
  evalUntil ev true "or expects booleans" args

/-- The loop of `for`, with a bound on its rounds. -/
def evalLoop (condition body : RispExp F) : ℕ → Eval F W (RispExp F)
  | 0 => throw (.fault .fuel)
  | rounds + 1 => do
      match ← ev condition with
      | .bool true => do
          let _ ← ev body
          evalLoop condition body rounds
      | .bool false => pure (.bool false)
      | _ => reason "loop condition must be boolean"

def evalFor (rounds : ℕ) (args : List (RispExp F)) : Eval F W (RispExp F) := do
  let condition ← argForm args 0 "expected loop condition"
  let body ← argForm args 1 "expected loop body"
  evalLoop ev condition body rounds

def evalAppend (args : List (RispExp F)) : Eval F W (RispExp F) := do
  let symForm ← argForm args 0 "expected symbol for append"
  let valForm ← argForm args 1 "expected value to append"
  let symName ← symbolName symForm "append requires a variable name (symbol)"
  let evaledVal ← ev valForm
  let l ← currentList symName
  envInsert symName (.list (l ++ [evaledVal]))
  pure (.list (l ++ [evaledVal]))

def evalPop (args : List (RispExp F)) : Eval F W (RispExp F) := do
  let symForm ← argForm args 0 "expected symbol for pop"
  let symName ← symbolName symForm "pop requires a variable name (symbol)"
  let l ← currentList symName
  match l.getLast? with
  | none => reason "cannot pop from an empty list"
  | some poppedVal => do
      envInsert symName (.list l.dropLast)
      pure poppedVal

def evalMset (args : List (RispExp F)) : Eval F W (RispExp F) := do
  let symForm ← argForm args 0 "expected symbol for mset"
  let keyForm ← argForm args 1 "expected key for mset"
  let valForm ← argForm args 2 "expected value for mset"
  let symName ← symbolName symForm "mset requires a variable name (symbol)"
  let evaledKey ← ev keyForm
  let key ← liftResult (expToKey host.ops evaledKey)
  let evaledVal ← ev valForm
  let m ← currentMap symName
  envInsert symName (.map (Assoc.insert key evaledVal m))
  pure evaledVal

def evalMdel (args : List (RispExp F)) : Eval F W (RispExp F) := do
  let symForm ← argForm args 0 "expected symbol for mdel"
  let keyForm ← argForm args 1 "expected key for mdel"
  let symName ← symbolName symForm "mdel requires a variable name (symbol)"
  let evaledKey ← ev keyForm
  let key ← liftResult (expToKey host.ops evaledKey)
  let m ← currentMap symName
  envInsert symName (.map (Assoc.remove key m))
  pure (.bool true)

/-- The loop of `do`. -/
def evalDo (lastResult : RispExp F) : List (RispExp F) → Eval F W (RispExp F)
  | [] => pure lastResult
  | form :: forms => do
      let result ← ev form
      evalDo result forms

/-- The environment of the body of a lambda that is called with `args`. -/
def bodyEnv (paramsExp : RispExp F) (capturedEnv : Env F) (args : List (RispExp F)) :
    Eval F W (Except RispErr (Env F)) := do
  let s ← get
  pure (envForLambda paramsExp args (Assoc.insertAll s.env capturedEnv))

/-- The `error` handler, if it is a lambda that takes one argument.  A built-in function as the
handler has no effect, and its result is dropped. -/
def runHandler (msg : RispExp F) : Eval F W PUnit := do
  match ← envGet ['e', 'r', 'r', 'o', 'r'] with
  | some (.lambda paramsExp bodyExp capturedEnv) => do
      match ← bodyEnv paramsExp capturedEnv [msg] with
      | .ok newEnv => dropResult (inEnv newEnv (ev bodyExp))
      | .error _ => pure .unit
  | _ => pure .unit

/-- The text of an error. -/
def errorText (msg : RispExp F) : String :=
  match msg with
  | .string s => String.ofList s
  | _ => String.ofList (msg.display host.ops.toFloatText)

def evalError (args : List (RispExp F)) : Eval F W (RispExp F) := do
  let msgForm ← argForm args 0 "error requires a message"
  let evaledMsg ← ev msgForm
  runHandler ev evaledMsg
  reason (errorText host evaledMsg)

/-- The call of a lambda. -/
def callLambda (paramsExp bodyExp : RispExp F) (capturedEnv : Env F) (args : List (RispExp F)) :
    Eval F W (RispExp F) := do
  let newEnv ← bodyEnv paramsExp capturedEnv args
  let env ← liftResult newEnv
  inEnv env (ev bodyExp)

/-- A list that is no special form. -/
def evalCall (first : RispExp F) (args : List (RispExp F)) : Eval F W (RispExp F) := do
  match ← ev first with
  | .func name => do
      let evaluatedArgs ← evalArgs ev args
      liftResult (callFunc host.ops name evaluatedArgs)
  | .lambda paramsExp bodyExp capturedEnv => do
      let evaluatedArgs ← evalArgs ev args
      callLambda ev paramsExp bodyExp capturedEnv evaluatedArgs
  | _ => reason "first form must be a function"

/-- The arms of `eval` for the special forms. -/
def evalForm (rounds : ℕ) : Form → List (RispExp F) → Eval F W (RispExp F)
  | .ifForm => evalIf host ev
  | .defForm => evalDef ev
  | .fnForm => evalFn
  | .sysForm => evalSys host ev
  | .quoteForm => evalQuote
  | .andForm => evalAnd ev
  | .orForm => evalOr ev
  | .forForm => evalFor ev rounds
  | .appendForm => evalAppend ev
  | .popForm => evalPop
  | .msetForm => evalMset host ev
  | .mdelForm => evalMdel host ev
  | .doForm => evalDo ev (.list [])
  | .errorForm => evalError host ev

/-- `eval` of a list. -/
def evalList (rounds : ℕ) : List (RispExp F) → Eval F W (RispExp F)
  | [] => reason "expected a non-empty list"
  | first :: args =>
      match Form.ofFirst first with
      | some form => evalForm host ev rounds form args
      | none => evalCall host ev first args

end Forms

section Eval

variable {F W : Type} (host : Host F W)

/-- The body of `eval`. -/
def evalStep (ev : RispExp F → Eval F W (RispExp F)) (rounds : ℕ) :
    RispExp F → Eval F W (RispExp F)
  | .bool b => pure (.bool b)
  | .number n => pure (.number n)
  | .symbol k => do
      match ← envGet k with
      | some v => pure v
      | none => reason ("unexpected symbol k='" ++ String.ofList k ++ "'")
  | .list l => evalList host ev rounds l
  | .func _ => reason "unexpected form"
  | .lambda _ _ _ => reason "unexpected form"
  | .syscall _ => reason "unexpected form"
  | .string s => pure (.string s)
  | .map m => pure (.map m)

/-- `eval`, with a bound on its depth. -/
def eval : ℕ → RispExp F → Eval F W (RispExp F)
  | fuel, exp => do
      modify fun s => { s with calls := exp :: s.calls }
      match fuel with
      | 0 => throw (.fault .fuel)
      | fuel + 1 => evalStep host (eval fuel) fuel exp

end Eval

end SilOS.Risp
