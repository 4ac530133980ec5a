/-
# Values are never evaluated as code

Functions, lambdas, system calls and maps are values that only arise in a run.  What `eval` is
called on is always text that the reader returned: the statements, their parts, and the bodies of
lambdas, which were parts of a statement when the lambda was made.  The invariant is about every
value that is stored anywhere, in lists and maps and in the captured environments of lambdas.
-/
import SilOS.Risp.Interpret

namespace SilOS.Risp

open Lib Comp

section Code

variable {F W : Type}

/-- An expression without a function, a lambda, a system call or a map in it. -/
inductive IsCode : RispExp F → Prop
  | bool (b : Bool) : IsCode (.bool b)
  | symbol (s : Str) : IsCode (.symbol s)
  | number (n : F) : IsCode (.number n)
  | string (s : Str) : IsCode (.string s)
  | list {l : List (RispExp F)} (h : ∀ e ∈ l, IsCode e) : IsCode (.list l)

/-- The parameters and the body of every lambda in a value are code. -/
inductive Stored : RispExp F → Prop
  | bool (b : Bool) : Stored (.bool b)
  | symbol (s : Str) : Stored (.symbol s)
  | number (n : F) : Stored (.number n)
  | string (s : Str) : Stored (.string s)
  | func (name : Str) : Stored (.func name)
  | syscall (cmd : List Str) : Stored (.syscall cmd)
  | list {l : List (RispExp F)} (h : ∀ e ∈ l, Stored e) : Stored (.list l)
  | map {m : Entries F} (h : ∀ p ∈ m, Stored p.2) : Stored (.map m)
  | lambda {paramsExp bodyExp : RispExp F} {capturedEnv : Env F} (hparams : IsCode paramsExp)
      (hbody : IsCode bodyExp) (henv : ∀ p ∈ capturedEnv, Stored p.2) :
      Stored (.lambda paramsExp bodyExp capturedEnv)

/-- Every value of an environment is stored properly. -/
def StoredEnv (env : Env F) : Prop := ∀ p ∈ env, Stored p.2

lemma IsCode.stored {e : RispExp F} (h : IsCode e) : Stored e := by
  induction h with
  | bool b => exact .bool b
  | symbol s => exact .symbol s
  | number n => exact .number n
  | string s => exact .string s
  | list h ih => exact .list ih

lemma isCode_list {l : List (RispExp F)} : IsCode (.list l) ↔ ∀ e ∈ l, IsCode e :=
  ⟨fun h => by cases h with | list h => exact h, .list⟩

lemma stored_list {l : List (RispExp F)} : Stored (.list l) ↔ ∀ e ∈ l, Stored e :=
  ⟨fun h => by cases h with | list h => exact h, .list⟩

lemma stored_map {m : Entries F} : Stored (.map m) ↔ ∀ p ∈ m, Stored p.2 :=
  ⟨fun h => by cases h with | map h => exact h, .map⟩

/-! Properties of the values of an environment. -/

lemma forall_mem_insert {P : RispExp F → Prop} {env : Env F} (h : ∀ p ∈ env, P p.2) (k : Str)
    {v : RispExp F} (hv : P v) : ∀ p ∈ Assoc.insert k v env, P p.2 := by
  intro p hp
  rcases Assoc.mem_of_mem_insert hp with rfl | hp
  · exact hv
  · exact h p hp

lemma forall_mem_insertAll {P : RispExp F → Prop} {env entries : Env F} (h : ∀ p ∈ env, P p.2)
    (hentries : ∀ p ∈ entries, P p.2) : ∀ p ∈ Assoc.insertAll env entries, P p.2 := by
  intro p hp
  rcases Assoc.mem_of_mem_insertAll hp with hp | hp
  · exact hentries p hp
  · exact h p hp

lemma forall_mem_envForLambda {P : RispExp F → Prop} {outer env : Env F} {paramsExp : RispExp F}
    {args : List (RispExp F)} (houter : ∀ p ∈ outer, P p.2) (hargs : ∀ v ∈ args, P v)
    (h : envForLambda paramsExp args outer = .ok env) : ∀ p ∈ env, P p.2 := by
  rw [envForLambda] at h
  split at h
  · exact absurd h (by simp)
  · split_ifs at h
    · exact absurd h (by simp [fail])
    · obtain rfl := Except.ok.inj h
      exact forall_mem_insertAll houter fun p hp => hargs p.2 (List.of_mem_zip hp).2

/-! ### The reader -/

lemma isCode_atom {text : FloatText F} {token : Str} {e : RispExp F}
    (h : parseAtom text token = .ok e) : IsCode e := by
  rcases parseAtom_cases h with ⟨b, rfl⟩ | ⟨s, rfl⟩ | ⟨v, rfl⟩ | rfl
  · exact .bool b
  · exact .string s
  · exact .number v
  · exact .symbol token

/-- The expression that was read, if any, is code. -/
def ReadsCode (r : Reading F) : Prop := ∀ e rest, r = .ok (e, rest) → IsCode e

lemma readsCode_reading (text : FloatText F) (fuel : ℕ) :
    (∀ tokens, ReadsCode (parseFrom text fuel tokens)) ∧
      ∀ res tokens, (∀ e ∈ res, IsCode e) → ReadsCode (readSeqFrom text fuel res tokens) := by
  refine reading_induction text (P := fun _ _ r => ReadsCode r)
    (Q := fun _ res _ r => (∀ e ∈ res, IsCode e) → ReadsCode r)
    ?_ ?_ ?_ ?_ ?_ ?_ ?_ ?_ ?_ ?_ ?_ fuel
  · exact fun _ _ _ h => absurd h (by simp)
  · exact fun _ _ _ h => absurd h (by simp)
  · exact fun _ _ _ _ hQ => hQ (by simp)
  · exact fun _ _ _ _ h => absurd h (by simp)
  · intro fuel token rest atom _ _ hatom e rest' h
    obtain ⟨rfl, -⟩ := Prod.mk.inj (Except.ok.inj h)
    exact isCode_atom hatom
  · exact fun _ _ _ _ _ _ _ _ _ h => absurd h (by simp)
  · exact fun _ _ _ _ _ h => absurd h (by simp)
  · exact fun _ _ _ _ _ h => absurd h (by simp)
  · intro fuel res rest hres e rest' h
    obtain ⟨rfl, -⟩ := Prod.mk.inj (Except.ok.inj h)
    exact .list hres
  · exact fun _ _ _ _ _ _ _ _ _ _ _ h => absurd h (by simp)
  · intro fuel res token rest exp newXs r _ _ hP _ hQ hres
    refine hQ fun e he => ?_
    rcases List.mem_append.mp he with he | he
    · exact hres e he
    · exact List.mem_singleton.mp he ▸ hP exp newXs rfl

lemma isCode_of_parse {text : FloatText F} {tokens rest : List Str} {e : RispExp F}
    (h : parse text tokens = .ok (e, rest)) : IsCode e :=
  (readsCode_reading text _).1 tokens e rest h

/-! ### The invariant -/

/-- All that is stored is stored properly, and all that was evaluated was code. -/
structure CodeInv (s : Session F W) : Prop where
  env : StoredEnv s.env
  calls : ∀ e ∈ s.calls, IsCode e

lemma storedEnv_of_call {s : Session F W} {env : Env F} {paramsExp bodyExp : RispExp F}
    {capturedEnv : Env F} {args : List (RispExp F)} (hs : CodeInv s)
    (hlambda : Stored (.lambda paramsExp bodyExp capturedEnv)) (hargs : ∀ v ∈ args, Stored v)
    (h : envForLambda paramsExp args (Assoc.insertAll s.env capturedEnv) = .ok env) :
    StoredEnv env := by
  cases hlambda with
  | lambda hparams hbody henv =>
      exact forall_mem_envForLambda (forall_mem_insertAll hs.env henv) hargs h

/-- Code is evaluated to values that are stored properly. -/
def codeDiscipline (host : Host F W) : Discipline host where
  code := IsCode
  val := Stored
  inv := CodeInv
  bodyEnv := StoredEnv
  code_elem hl he := isCode_list.mp hl _ he
  val_of_code := IsCode.stored
  val_bool := .bool
  val_number := .number
  val_string := .string
  val_syscall := .syscall
  val_list := stored_list
  val_map := stored_map
  val_lookup hs hv := hs.env _ (Assoc.mem_of_lookup hv)
  val_fn hs hcode := by
    have hparts := isCode_list.mp hcode
    exact .lambda (hparts _ (by simp)) (hparts _ (by simp)) hs.env
  inv_call hs he := ⟨hs.env, List.forall_mem_cons.mpr ⟨he, hs.calls⟩⟩
  inv_world _ hs := ⟨hs.env, hs.calls⟩
  inv_insert hs _ _ _ hv := ⟨forall_mem_insert hs.env _ hv, hs.calls⟩
  bodyEnv_of_call := storedEnv_of_call
  inv_body {env _ bodyExp _ _} henv hlambda hev := by
    intro s hs
    cases hlambda with
    | lambda hparams hbody hcaptured =>
        obtain ⟨hinv, hval⟩ := hev bodyExp hbody { s with env := env } ⟨henv, hs.calls⟩
        exact ⟨⟨hs.env, hinv.calls⟩, hval⟩

/-! ### Whole programs -/

variable (host : Host F W) (fuel : ℕ)

lemma ensures_attempt {α : Type} {I : Session F W → Prop} {P : α → Prop} {m : Eval F W α}
    (h : Ensures I m P) : Ensures I (attempt m) fun _ => True := by
  intro s hs
  have hI := (h s hs).1
  simp only [attempt, exec_ofRuns]
  split <;> rename_i hm <;> rw [hm] at hI <;> exact ⟨hI, fun _ _ => trivial⟩

lemma ensures_parseEval (expr : Str) : Ensures CodeInv (parseEval host fuel expr) Stored := by
  refine (ensures_modify fun s hs => ⟨hs.env, hs.calls⟩).bind fun _ _ => ?_
  split
  · exact ensures_throw
  · rename_i hparse
    exact (codeDiscipline host).ensures_eval fuel (isCode_of_parse hparse)

/-- The loop keeps what each of its statements keeps. -/
lemma ensures_runStatements {I : Session F W → Prop} {P : RispExp F → Prop} {ss : List Str}
    (h : ∀ code ∈ ss, Ensures I (parseEval host fuel code) P) (worked : Bool) (errorMsg : String) :
    Ensures I (runStatements host fuel ss worked errorMsg) fun _ => True := by
  induction ss generalizing worked errorMsg with
  | nil => exact ensures_pure trivial
  | cons code rest ih =>
      obtain ⟨hcode, hrest⟩ := List.forall_mem_cons.mp h
      refine (ensures_attempt hcode).bind fun r _ => ?_
      split
      · exact ih hrest worked errorMsg
      · exact ih hrest false _

lemma ensures_runProgram {I : Session F W → Prop} {P : RispExp F → Prop} {code : Str}
    (h : ∀ piece ∈ statements code, Ensures I (parseEval host fuel piece) P) :
    Ensures I (runProgram host fuel code) fun _ => True := by
  rw [runProgram]
  split_ifs
  · exact ensures_pure trivial
  · exact (ensures_runStatements host fuel h _ _).bind fun _ _ => ensures_pure trivial

section InitialEnv

/-! A property of the values that a program starts with. -/

variable {host} {P : RispExp F → Prop} (hfunc : ∀ name, P (.func name))
  (hsymbol : ∀ s, P (.symbol s)) (hnumber : ∀ n, P (.number n)) (hbool : ∀ b, P (.bool b))
  (hnil : P (.list []))

include hfunc hnil in
lemma forall_defaultEnv (ops : FloatOps F) : ∀ p ∈ defaultEnv ops, P p.2 := by
  refine forall_mem_insert (forall_mem_insertAll (by simp) fun p hp => ?_) _ hnil
  obtain ⟨q, -, rfl⟩ := List.mem_map.mp hp
  exact hfunc _

include hnumber hbool in
lemma forall_bindArgs {env : Env F} (h : ∀ p ∈ env, P p.2) (bCount nCount : ℕ) (args : List Str) :
    ∀ p ∈ bindArgs host bCount nCount env args, P p.2 := by
  induction args generalizing bCount nCount env with
  | nil => exact h
  | cons arg args ih =>
      rw [bindArgs]
      split_ifs
      · exact ih (forall_mem_insert h _ (hbool _)) _ _
      · split
        · exact ih (forall_mem_insert h _ (hnumber _)) _ _
        · exact ih h _ _

include hfunc hsymbol hnumber hbool hnil in
lemma forall_initialEnv (args : List Str) : ∀ p ∈ initialEnv host args, P p.2 := by
  refine forall_bindArgs hnumber hbool (forall_mem_insertAll
    (forall_mem_insertAll (forall_defaultEnv hfunc hnil host.ops) fun p hp => ?_) ?_) 0 0 args
  · obtain ⟨call, -, rfl⟩ := List.mem_map.mp hp
    exact hsymbol _
  · intro p hp
    simp only [List.mem_cons, List.not_mem_nil, or_false] at hp
    rcases hp with rfl | rfl | rfl | rfl
    · exact hnumber _
    · exact hbool _
    · exact hnumber _
    · exact hbool _

end InitialEnv

/-- `interpret` starts with an environment of its own. -/
lemma exec_runPrelude_bind {α : Type} (args : List Str) (m : Eval F W α) (s : Session F W) :
    (runPrelude host fuel args >>= fun _ => m).exec s =
      (dropResult (parseEval host fuel preludeText) >>= fun _ => m).exec
        { s with env := initialEnv host args } := by
  rw [exec_bind, exec_bind, runPrelude, exec_bind]
  rfl

/-- In every run of a program, `eval` is called on code only: no function, lambda, system call or
map is in an expression it is called on, and so its last arm is not reached. -/
theorem values_never_evaluated (expr : List Str) (env : Env F) (world : W) (texts : List Str) :
    ∀ e ∈ ((interpret host fuel expr).exec ⟨env, world, texts, []⟩).2.calls, IsCode e ∧
      (∀ name, e ≠ .func name) ∧ (∀ cmd, e ≠ .syscall cmd) ∧
      ∀ paramsExp bodyExp capturedEnv, e ≠ .lambda paramsExp bodyExp capturedEnv := by
  have hcalls : ∀ e ∈ ((interpret host fuel expr).exec ⟨env, world, texts, []⟩).2.calls,
      IsCode e := by
    rw [interpret.eq_def]
    split
    · rename_i name code args
      have hcode : Ensures CodeInv (runProgram host fuel code) fun _ => True :=
        ensures_runProgram host fuel fun piece _ => ensures_parseEval host fuel piece
      have hprogram := (ensures_dropResult (ensures_parseEval host fuel preludeText)).bind
        fun _ _ => hcode
      rw [exec_runPrelude_bind]
      exact (hprogram ⟨initialEnv host args, world, texts, []⟩
        ⟨forall_initialEnv .func .symbol .number .bool (.list (by simp)) args, by simp⟩).1.calls
    · simp
  intro e he
  have hcode := hcalls e he
  refine ⟨hcode, fun name h => ?_, fun cmd h => ?_, fun paramsExp bodyExp capturedEnv h => ?_⟩ <;>
    subst h <;> cases hcode

end Code

/-- The last call of `eval` in `((fn (x) x) 1);` is on the body of the lambda. -/
theorem values_never_evaluated_body :
    ((interpret recorder 9 [[], ['(', '(', 'f', 'n', ' ', '(', 'x', ')', ' ', 'x', ')', ' ', '1',
      ')', ';']]).exec ⟨[], [], [], []⟩).2.calls.head? = some (.symbol ['x']) ∧
    IsCode (.symbol ['x'] : RispExp (Fin 10)) := by
  refine ⟨rfl, ?_⟩
  exact (values_never_evaluated recorder 9 [[], ['(', '(', 'f', 'n', ' ', '(', 'x', ')', ' ', 'x',
    ')', ' ', '1', ')', ';']] [] [] [] (.symbol ['x']) (List.mem_of_head? rfl)).1

end SilOS.Risp
