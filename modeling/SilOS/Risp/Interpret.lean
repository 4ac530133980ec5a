/-
# Running a program

`interpret` of `src/parser.rs`: it makes an environment from the built-in functions, the commands
and the arguments, cuts the source at every semicolon, and evaluates the pieces one after the
other.
-/
import SilOS.Risp.Frame

namespace SilOS.Risp

open Lib Comp

/-- `ProcessError`. -/
structure ProcessError where
  errorCode : String
deriving DecidableEq

/-- `Success`. -/
structure Success where
  successCode : String
  printCode : Bool
deriving DecidableEq

section Interpret

variable {F W α : Type} (host : Host F W) (fuel : ℕ)

/-- Match on the result of a computation: an error of the interpreter becomes a value. -/
def attempt (m : Eval F W α) : Eval F W (Except RispErr α) :=
  Comp.ofRuns fun s =>
    match m.exec s with
    | (.ok a, s') => (.ok (.ok a), s')
    | (.error (.err e), s') => (.ok (.error e), s')
    | (.error (.fault f), s') => (.error (.fault f), s')

/-- `parse_eval`. -/
def parseEval (expr : Str) : Eval F W (RispExp F) := do
  modify fun s => { s with texts := expr :: s.texts }
  match parse host.ops.toFloatText (tokenize expr) with
  | .error e => throw e
  | .ok (parsedExp, _) => eval host fuel parsedExp

/-- The name of the argument number `i` of a kind. -/
def argName (kind : Char) (i : ℕ) : Str := kind :: (toString i).toList

/-- The loop that binds the arguments of the program. -/
def bindArgs (bCount nCount : ℕ) (env : Env F) : List Str → Env F
  | [] => env
  | arg :: args =>
      if arg = boolText true ∨ arg = boolText false then
        bindArgs (bCount + 1) nCount
          (Assoc.insert (argName 'b' bCount) (.bool (arg = boolText true)) env) args
      else
        match host.ops.parse arg with
        | some val =>
            bindArgs bCount (nCount + 1) (Assoc.insert (argName 'n' nCount) (.number val) env) args
        | none => bindArgs bCount nCount env args

/-- The environment of a program that is run with the arguments `args`. -/
def initialEnv (args : List Str) : Env F :=
  let commands := Assoc.insertAll (defaultEnv host.ops)
    (host.commandList.map fun call => (call, .symbol call))
  let numbered := Assoc.insertAll commands
    [(argName 'n' 0, .number host.ops.zero), (argName 'b' 0, .bool false),
     (argName 'n' 1, .number host.ops.zero), (argName 'b' 1, .bool false)]
  bindArgs host 0 0 numbered args

/-- `(def error (fn (s) (sys echo s)))` -/
def preludeText : Str :=
  ['(', 'd', 'e', 'f', ' ', 'e', 'r', 'r', 'o', 'r', ' ', '(', 'f', 'n', ' ', '(', 's', ')', ' ',
   '(', 's', 'y', 's', ' ', 'e', 'c', 'h', 'o', ' ', 's', ')', ')', ')']

/-- The statements of a source: its pieces between semicolons, without the last one. -/
def statements (code : Str) : List Str := (code.splitOn ';').dropLast

/-- What `interpret` does before the first statement. -/
def runPrelude (args : List Str) : Eval F W PUnit := do
  modify fun s => { s with env := initialEnv host args }
  dropResult (parseEval host fuel preludeText)

/-- The loop over the statements: `worked` and `error_msg` at its end. -/
def runStatements : List Str → Bool → String → Eval F W (Bool × String)
  | [], worked, errorMsg => pure (worked, errorMsg)
  | code :: rest, worked, errorMsg => do
      match ← attempt (parseEval host fuel code) with
      | .ok _ => runStatements rest worked errorMsg
      | .error (.reason msg) => runStatements rest false msg

/-- What `interpret` does with the statements. -/
def runProgram (code : Str) : Eval F W (Except ProcessError Success) :=
  if statements code = [] then pure (.error ⟨"statements must end with a semicolon"⟩)
  else do
    let (worked, errorMsg) ← runStatements host fuel (statements code) true ""
    pure (if worked then .ok ⟨"worked", false⟩ else .error ⟨errorMsg⟩)

/-- `interpret`. -/
def interpret (expr : List Str) : Eval F W (Except ProcessError Success) :=
  match expr with
  | _ :: code :: args => do
      runPrelude host fuel args
      runProgram host fuel code
  | _ => pure (.error ⟨"expected at least two params"⟩)

/-! ### The texts that are evaluated -/

/-- No evaluation calls `parse_eval`. -/
def textsDiscipline (texts : List Str) : Discipline host where
  code _ := True
  val _ := True
  inv s := s.texts = texts
  bodyEnv _ := True
  code_elem _ _ := trivial
  val_of_code _ := trivial
  val_bool _ := trivial
  val_number _ := trivial
  val_string _ := trivial
  val_syscall _ := trivial
  val_list := unconstrained_list
  val_map := unconstrained_map
  val_lookup _ _ := trivial
  val_fn _ _ := trivial
  inv_call hs _ := hs
  inv_world _ hs := hs
  inv_insert hs _ _ _ _ := hs
  bodyEnv_of_call _ _ _ _ := trivial
  inv_body {env _ bodyExp _ _} _ _ hev := fun s hs =>
    ⟨(hev bodyExp trivial { s with env := env } hs).1, fun _ _ => trivial⟩

/-- `parse_eval` adds its text, however it ends. -/
lemma texts_parseEval (expr : Str) (s : Session F W) :
    ((parseEval host fuel expr).exec s).2.texts = expr :: s.texts := by
  rw [parseEval, exec_bind]
  simp only [exec_modify]
  split
  · rfl
  · rename_i parsedExp _ _
    have heval : Ensures _ (eval host fuel parsedExp) _ :=
      (textsDiscipline host (expr :: s.texts)).ensures_eval fuel trivial
    exact (heval { s with texts := expr :: s.texts } rfl).1

lemma attempt_of_ok {m : Eval F W α} {s s' : Session F W} {a : α} (h : m.exec s = (.ok a, s')) :
    (attempt m).exec s = (.ok (.ok a), s') := by
  simp [attempt, h]

lemma attempt_of_err {m : Eval F W α} {s s' : Session F W} {e : RispErr}
    (h : m.exec s = (.error (.err e), s')) : (attempt m).exec s = (.ok (.error e), s') := by
  simp [attempt, h]

lemma attempt_of_fault {m : Eval F W α} {s s' : Session F W} {f : Fault}
    (h : m.exec s = (.error (.fault f), s')) :
    (attempt m).exec s = (.error (.fault f), s') := by
  simp [attempt, h]

/-- A step of the loop over the statements. -/
lemma exec_runStatements_cons (code : Str) (rest : List Str) (worked : Bool) (errorMsg : String)
    (s : Session F W) :
    (runStatements host fuel (code :: rest) worked errorMsg).exec s =
      match (parseEval host fuel code).exec s with
      | (.ok _, s') => (runStatements host fuel rest worked errorMsg).exec s'
      | (.error (.err (.reason msg)), s') => (runStatements host fuel rest false msg).exec s'
      | (.error (.fault f), s') => (.error (.fault f), s') := by
  rw [runStatements, exec_bind]
  rcases h : (parseEval host fuel code).exec s with ⟨(⟨⟨msg⟩⟩ | f) | v, s'⟩
  · rw [attempt_of_err h]
  · rw [attempt_of_fault h]
  · rw [attempt_of_ok h]

/-- The loop only adds texts, and at least that of the first statement. -/
lemma texts_runStatements (ss : List Str) (worked : Bool) (errorMsg : String)
    (s : Session F W) : ∃ more, ((runStatements host fuel ss worked errorMsg).exec s).2.texts =
      more ++ s.texts ∧ (ss ≠ [] → more ≠ []) := by
  induction ss generalizing worked errorMsg s with
  | nil => exact ⟨[], rfl, by simp⟩
  | cons code rest ih =>
      have htexts := texts_parseEval host fuel code s
      rw [exec_runStatements_cons]
      rcases h : (parseEval host fuel code).exec s with ⟨(⟨⟨msg⟩⟩ | f) | v, s'⟩ <;>
        replace htexts : s'.texts = code :: s.texts := by simpa [h] using htexts
      · obtain ⟨more, hmore, -⟩ := ih false msg s'
        exact ⟨more ++ [code], by simp [hmore, htexts], by simp⟩
      · exact ⟨[code], htexts, by simp⟩
      · obtain ⟨more, hmore, -⟩ := ih worked errorMsg s'
        exact ⟨more ++ [code], by simp [hmore, htexts], by simp⟩

/-- A loop that comes to its end has evaluated all statements. -/
lemma texts_of_runStatements {ss : List Str} {worked : Bool} {errorMsg : String}
    {s s' : Session F W} {r : Bool × String}
    (h : (runStatements host fuel ss worked errorMsg).exec s = (.ok r, s')) :
    s'.texts = ss.reverse ++ s.texts := by
  induction ss generalizing worked errorMsg s with
  | nil =>
      obtain ⟨-, rfl⟩ := Prod.mk.inj h
      rfl
  | cons code rest ih =>
      have htexts := texts_parseEval host fuel code s
      rw [exec_runStatements_cons] at h
      rcases heval : (parseEval host fuel code).exec s with ⟨(⟨⟨msg⟩⟩ | f) | v, s₁⟩ <;>
        replace htexts : s₁.texts = code :: s.texts := by simpa [heval] using htexts
      · rw [heval] at h
        rw [ih h, htexts]
        simp
      · rw [heval] at h
        exact absurd h (by simp)
      · rw [heval] at h
        rw [ih h, htexts]
        simp

/-! ### Errors -/

/-- Evaluate statements one after the other up to the first that returns an error: how many they
are, the message of the error, and the state right after it. -/
def firstError : List Str → Session F W → Option (ℕ × String × Session F W)
  | [], _ => none
  | code :: rest, s =>
      match (parseEval host fuel code).exec s with
      | (.ok _, s') => (firstError rest s').map fun r => (r.1 + 1, r.2)
      | (.error (.err (.reason msg)), s') => some (1, msg, s')
      | (.error (.fault _), _) => none

/-- The first error of a program. -/
def firstFailure (code : Str) (args : List Str) (s : Session F W) :
    Option (ℕ × String × Session F W) :=
  match (runPrelude host fuel args).exec s with
  | (.ok _, s') => firstError host fuel (statements code) s'
  | (.error _, _) => none

/-- The loop goes on after an error, with its message. -/
lemma runStatements_of_firstError {ss : List Str} {s s₁ : Session F W} {i : ℕ} {msg : String}
    (h : firstError host fuel ss s = some (i, msg, s₁)) (worked : Bool) (errorMsg : String) :
    (runStatements host fuel ss worked errorMsg).exec s =
      (runStatements host fuel (ss.drop i) false msg).exec s₁ := by
  induction ss generalizing s i with
  | nil => exact absurd h (by simp [firstError])
  | cons code rest ih =>
      rw [firstError] at h
      rw [exec_runStatements_cons]
      split at h
      · rename_i v s' heval
        obtain ⟨⟨j, r⟩, hrest, hr⟩ := Option.map_eq_some_iff.mp h
        obtain ⟨rfl, rfl⟩ := Prod.mk.inj hr
        exact ih hrest
      · rename_i msg' s' heval
        obtain ⟨rfl, rfl, rfl⟩ : 1 = i ∧ msg' = msg ∧ s' = s₁ := by simpa using h
        rfl
      · exact absurd h (by simp)

lemma le_length_of_firstError {ss : List Str} {s s₁ : Session F W} {i : ℕ} {msg : String}
    (h : firstError host fuel ss s = some (i, msg, s₁)) : i ≤ ss.length := by
  induction ss generalizing s i with
  | nil => exact absurd h (by simp [firstError])
  | cons code rest ih =>
      rw [firstError] at h
      split at h
      · obtain ⟨⟨j, r⟩, hrest, hr⟩ := Option.map_eq_some_iff.mp h
        obtain ⟨rfl, rfl⟩ := Prod.mk.inj hr
        exact Nat.succ_le_succ (ih hrest)
      · obtain ⟨rfl, -⟩ : 1 = i ∧ _ := by simpa using h
        simp
      · exact absurd h (by simp)

/-- The program stops at its first error: the state is that right after it, so that no later
statement was evaluated, and the result carries its message. -/
def AbortsAtError (name code : Str) (args : List Str) (s : Session F W) : Prop :=
  ∀ i msg s₁, firstFailure host fuel code args s = some (i, msg, s₁) →
    (interpret host fuel (name :: code :: args)).exec s = (.ok (.error ⟨msg⟩), s₁)

/-- A program with an error goes on with the statements after it. -/
lemma interpret_of_firstFailure {name code : Str} {args : List Str} {s s₁ : Session F W} {i : ℕ}
    {msg : String} (h : firstFailure host fuel code args s = some (i, msg, s₁)) :
    i ≤ (statements code).length ∧
    (interpret host fuel (name :: code :: args)).exec s =
      match (runStatements host fuel ((statements code).drop i) false msg).exec s₁ with
      | (.ok r, s') => (.ok (if r.1 then .ok ⟨"worked", false⟩ else .error ⟨r.2⟩), s')
      | (.error e, s') => (.error e, s') := by
  rw [firstFailure] at h
  split at h
  · rename_i u s' hprelude
    have hne : statements code ≠ [] := by
      intro hnil
      rw [hnil] at h
      exact absurd h (by simp [firstError])
    refine ⟨le_length_of_firstError host fuel h, ?_⟩
    rw [interpret, exec_bind, hprelude]
    simp only [runProgram, if_neg hne]
    rw [exec_bind, runStatements_of_firstError host fuel h]
    rcases (runStatements host fuel ((statements code).drop i) false msg).exec s₁
      with ⟨_ | _, _⟩ <;> rfl
  · exact absurd h (by simp)

/-- A program stops at its first error exactly if its first error, should there be one, is in its
last statement. -/
theorem abortsAtError_iff (name code : Str) (args : List Str) (s : Session F W) :
    AbortsAtError host fuel name code args s ↔
      ∀ i msg s₁, firstFailure host fuel code args s = some (i, msg, s₁) →
        i = (statements code).length := by
  constructor
  · intro h i msg s₁ hfail
    obtain ⟨hle, hrun⟩ := interpret_of_firstFailure host fuel hfail
    rw [h i msg s₁ hfail] at hrun
    -- the texts evaluated after the error would show in the state
    obtain ⟨more, hmore, hne⟩ :=
      texts_runStatements host fuel ((statements code).drop i) false msg s₁
    have hstate : ((runStatements host fuel ((statements code).drop i) false msg).exec s₁).2 =
        s₁ := by
      split at hrun
      · rename_i hloop
        rw [hloop]
        exact (Prod.mk.inj hrun).2.symm
      · exact absurd hrun (by simp)
    rw [hstate] at hmore
    have hnil : more = [] := by
      have := congrArg List.length hmore
      simpa using this
    by_contra hlt
    exact hne (by simp; omega) hnil
  · intro h i msg s₁ hfail
    obtain ⟨-, hrun⟩ := interpret_of_firstFailure host fuel hfail
    rw [hrun, h i msg s₁ hfail, List.drop_length]
    rfl

end Interpret

/-- `x;(sys echo 1);` runs its second statement although the first one fails. -/
theorem interpret_goes_on_after_error :
    ¬ AbortsAtError recorder 20 []
      ['x', ';', '(', 's', 'y', 's', ' ', 'e', 'c', 'h', 'o', ' ', '1', ')', ';']
      [] ⟨[], [], [], []⟩ := by
  intro h
  have hrun := h 1 "unexpected symbol k='x'" _ rfl
  have hworld := congrArg (fun r => r.2.world) hrun
  exact absurd hworld (by decide)

end SilOS.Risp
