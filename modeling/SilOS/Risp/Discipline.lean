/-
# Invariants of evaluation

What has to be checked to know that evaluation keeps an invariant.  A `Discipline` says which
expressions are evaluated, which values arise and what holds of the state, and has the laws that
each primitive step of `eval` has to respect.  By induction on the depth of the evaluation, and
form by form, every evaluation of an admitted expression then keeps the invariant and returns an
admitted value (`Discipline.ensures_eval`), whether it ends with a value or with an error.
-/
import SilOS.Risp.Eval

namespace SilOS.Risp

open Lib Comp

/-- The forms that bind a variable or change the value of one: their first operand names it. -/
def Form.binds : Form → Bool
  | .defForm | .appendForm | .popForm | .msetForm | .mdelForm => true
  | _ => false

/-- An invariant of evaluation, with what it needs of the steps of `eval`. -/
structure Discipline {F W : Type} (host : Host F W) where
  /-- The expressions that may be evaluated. -/
  code : RispExp F → Prop
  /-- The values that may arise. -/
  val : RispExp F → Prop
  /-- The invariant. -/
  inv : Session F W → Prop
  /-- The environments in which the bodies of lambdas are run. -/
  bodyEnv : Env F → Prop
  code_elem : ∀ {l e}, code (.list l) → e ∈ l → code e
  val_of_code : ∀ {e}, code e → val e
  val_bool : ∀ b, val (.bool b)
  val_number : ∀ n, val (.number n)
  val_string : ∀ s, val (.string s)
  val_syscall : ∀ cmd, val (.syscall cmd)
  val_list : ∀ {l}, val (.list l) ↔ ∀ v ∈ l, val v
  val_map : ∀ {m}, val (.map m) ↔ ∀ p ∈ m, val p.2
  val_lookup : ∀ {s k v}, inv s → s.env.lookup k = some v → val v
  val_fn : ∀ {s first paramsExp bodyExp}, inv s → code (.list [first, paramsExp, bodyExp]) →
    val (.lambda paramsExp bodyExp s.env)
  inv_call : ∀ {s e}, inv s → code e → inv { s with calls := e :: s.calls }
  inv_world : ∀ {s} w, inv s → inv { s with world := w }
  inv_insert : ∀ {s first form name args v}, inv s → Form.ofFirst first = some form →
    form.binds = true → code (.list (first :: .symbol name :: args)) → val v →
    inv { s with env := Assoc.insert name v s.env }
  bodyEnv_of_call : ∀ {s env paramsExp bodyExp capturedEnv args}, inv s →
    val (.lambda paramsExp bodyExp capturedEnv) → (∀ v ∈ args, val v) →
    envForLambda paramsExp args (Assoc.insertAll s.env capturedEnv) = .ok env → bodyEnv env
  /-- The body of a lambda, run by an evaluator that keeps the invariant. -/
  inv_body : ∀ {env paramsExp bodyExp capturedEnv} {ev : RispExp F → Eval F W (RispExp F)},
    bodyEnv env → val (.lambda paramsExp bodyExp capturedEnv) →
    (∀ e, code e → Ensures inv (ev e) val) → Ensures inv (inEnv env (ev bodyExp)) val

/-- A discipline that asks nothing of the values asks nothing of their elements. -/
lemma unconstrained_list {F : Type} {l : List (RispExp F)} : True ↔ ∀ v ∈ l, True := by simp

lemma unconstrained_map {F : Type} {m : Entries F} : True ↔ ∀ p ∈ m, True := by simp

section Leaves

variable {F W α : Type} {I : Session F W → Prop} {P : α → Prop}

lemma ensures_reason {msg : String} : Ensures I (reason msg : Eval F W α) P := ensures_throw

lemma ensures_liftResult {r : Except RispErr α} (h : ∀ a, r = .ok a → P a) :
    Ensures I (liftResult r : Eval F W α) P := by
  cases r with
  | error e => exact ensures_throw
  | ok a => exact ensures_pure (h a rfl)

lemma ensures_dropResult {m : Eval F W α} (h : Ensures I m P) :
    Ensures I (dropResult m) fun _ => True := by
  intro s hs
  have hI := (h s hs).1
  simp only [dropResult, exec_ofRuns]
  split <;> rename_i hm <;> rw [hm] at hI <;> exact ⟨hI, fun _ _ => trivial⟩

lemma ensures_argForm (args : List (RispExp F)) (i : ℕ) (msg : String) :
    Ensures I (argForm args i msg : Eval F W (RispExp F)) fun form => args[i]? = some form := by
  rw [argForm]
  split
  · rename_i form hform
    exact ensures_pure hform
  · exact ensures_reason

lemma ensures_symbolName (form : RispExp F) (msg : String) :
    Ensures I (symbolName form msg : Eval F W Str) fun name => form = .symbol name := by
  cases form with
  | symbol s => exact ensures_pure rfl
  | _ => exact ensures_reason

end Leaves

namespace Discipline

variable {F W : Type} {host : Host F W} (D : Discipline host)

/-! ### Built-in functions -/

lemma val_foldNumbers {f : F → F → F} {unit : F} {args : List (RispExp F)} {v : RispExp F}
    (h : foldNumbers f unit args = .ok v) : D.val v := by
  rw [foldNumbers] at h
  split at h
  · exact absurd h (by simp)
  · exact Except.ok.inj h ▸ D.val_number _

lemma val_onNumbers {f : F → List F → RispExp F} (hf : ∀ first rest, D.val (f first rest))
    {args : List (RispExp F)} {v : RispExp F} (h : onNumbers f args = .ok v) : D.val v := by
  rw [onNumbers] at h
  split at h
  · exact absurd h (by simp)
  · exact absurd h (by simp [fail])
  · exact Except.ok.inj h ▸ hf _ _

lemma val_lenOf {args : List (RispExp F)} {v : RispExp F} (h : lenOf host.ops args = .ok v) :
    D.val v := by
  rw [lenOf.eq_def] at h
  split at h
  · exact absurd h (by simp [fail])
  · exact Except.ok.inj h ▸ D.val_number _
  · exact Except.ok.inj h ▸ D.val_number _
  · exact absurd h (by simp [fail])

lemma val_listIndex {l : List (RispExp F)} {index : ℤ} {v : RispExp F}
    (hl : ∀ e ∈ l, D.val e) (h : listIndex l index = .ok v) : D.val v := by
  simp only [listIndex] at h
  split at h
  · rename_i w hw
    obtain rfl := Except.ok.inj h
    split_ifs at hw
    · exact hl _ (List.mem_of_getElem? hw)
    · exact hl _ (List.mem_of_getElem? hw)
  · exact absurd h (by simp [fail])

lemma val_indexOf {args : List (RispExp F)} {v : RispExp F} (hargs : ∀ e ∈ args, D.val e)
    (h : indexOf host.ops args = .ok v) : D.val v := by
  rw [indexOf.eq_def] at h
  split at h
  · rename_i l index
    split at h
    · exact absurd h (by simp)
    · exact D.val_listIndex (D.val_list.mp (hargs _ List.mem_cons_self)) h
  · rename_i m index
    split at h
    · exact absurd h (by simp)
    · rename_i key hkey
      obtain rfl := Except.ok.inj h
      cases hm : m.lookup key with
      | none => exact D.val_string _
      | some w =>
          have hmap := D.val_map.mp (hargs _ List.mem_cons_self)
          exact hmap _ (Assoc.mem_of_lookup hm)
  · exact absurd h (by simp [fail])
  · exact absurd h (by simp [fail])

lemma val_insert {key : RispKey} {v : RispExp F} {m : Entries F} (hv : D.val v)
    (hm : D.val (.map m)) : D.val (.map (Assoc.insert key v m)) := by
  refine D.val_map.mpr fun p hp => ?_
  rcases Assoc.mem_of_mem_insert hp with rfl | hp
  · exact hv
  · exact D.val_map.mp hm p hp

lemma val_mapEntries {args : List (RispExp F)} {m m' : Entries F}
    (hargs : ∀ e ∈ args, D.val e) (hm : D.val (.map m))
    (h : mapEntries host.ops args m = .ok m') : D.val (.map m') := by
  fun_induction mapEntries host.ops args m with
  | case1 k v rest m e hkey => exact absurd h (by simp)
  | case2 k v rest m key hkey ih =>
      exact ih (fun e he => hargs e (by simp [he])) (D.val_insert (hargs v (by simp)) hm) h
  | case3 args m hshort => exact Except.ok.inj h ▸ hm

lemma val_mapOf {args : List (RispExp F)} {v : RispExp F} (hargs : ∀ e ∈ args, D.val e)
    (h : mapOf host.ops args = .ok v) : D.val v := by
  rw [mapOf] at h
  split_ifs at h
  · exact absurd h (by simp [fail])
  · split at h
    · exact absurd h (by simp)
    · rename_i m hm
      obtain rfl := Except.ok.inj h
      exact D.val_mapEntries hargs (D.val_map.mpr (by simp)) hm

lemma val_mapKeys {args : List (RispExp F)} {v : RispExp F}
    (h : mapKeys host.ops args = .ok v) : D.val v := by
  rw [mapKeys.eq_def] at h
  split at h
  · exact absurd h (by simp [fail])
  · obtain rfl := Except.ok.inj h
    refine D.val_list.mpr fun e he => ?_
    obtain ⟨p, -, rfl⟩ := List.mem_map.mp he
    cases p.1 with
    | string s => exact D.val_string _
    | number n => exact D.val_number _
    | bool b => exact D.val_bool _
  · exact absurd h (by simp [fail])

/-- Built-in functions make values out of values. -/
lemma val_callFunc {name : Str} {args : List (RispExp F)} {v : RispExp F}
    (hargs : ∀ e ∈ args, D.val e) (h : callFunc host.ops name args = .ok v) : D.val v := by
  revert args v
  refine callFunc_induction host.ops
    (P := fun f => ∀ {args v}, (∀ e ∈ args, D.val e) → f args = .ok v → D.val v)
    ?_ ?_ ?_ ?_ ?_ ?_ ?_ ?_ ?_ name
  · exact fun f unit args v _ h => D.val_foldNumbers h
  · exact fun f args v _ h => D.val_onNumbers (fun _ _ => D.val_number _) h
  · exact fun check args v _ h => D.val_onNumbers (fun _ _ => D.val_bool _) h
  · exact fun hargs h => Except.ok.inj h ▸ D.val_list.mpr hargs
  · exact fun _ h => D.val_lenOf h
  · exact fun hargs h => D.val_indexOf hargs h
  · exact fun hargs h => D.val_mapOf hargs h
  · exact fun _ h => D.val_mapKeys h
  · exact fun _ h => absurd h (by simp [fail])

/-! ### The forms -/

section Forms

variable {D} {ev : RispExp F → Eval F W (RispExp F)} {args : List (RispExp F)}
variable (hev : ∀ e, D.code e → Ensures D.inv (ev e) D.val) (hargs : ∀ e ∈ args, D.code e)

lemma ensures_envGet (k : Str) :
    Ensures D.inv (envGet k : Eval F W _) fun r => ∀ v, r = some v → D.val v :=
  ensures_get.bind fun _ hs => ensures_pure fun _ hv => D.val_lookup hs hv

lemma ensures_currentList (name : Str) :
    Ensures D.inv (currentList name : Eval F W _) fun l => ∀ v ∈ l, D.val v := by
  refine (ensures_envGet name).bind fun r hr => ?_
  split
  · exact ensures_pure (D.val_list.mp (hr _ rfl))
  · exact ensures_reason
  · exact ensures_reason

lemma ensures_currentMap (name : Str) :
    Ensures D.inv (currentMap name : Eval F W _) fun m => D.val (.map m) := by
  refine (ensures_envGet name).bind fun r hr => ?_
  split
  · exact ensures_pure (hr _ rfl)
  · exact ensures_reason
  · exact ensures_reason

include hargs in
lemma code_arg {i : ℕ} {form : RispExp F} (h : args[i]? = some form) : D.code form :=
  hargs form (List.mem_of_getElem? h)

include hev hargs in
lemma ensures_evalArgs : Ensures D.inv (evalArgs ev args) fun vs => ∀ v ∈ vs, D.val v := by
  induction args with
  | nil => exact ensures_pure (by simp)
  | cons arg args ih =>
      refine (hev arg (hargs arg (by simp))).bind fun v hv => ?_
      refine (ih fun e he => hargs e (by simp [he])).bind fun vs hvs => ?_
      exact ensures_pure (List.forall_mem_cons.mpr ⟨hv, hvs⟩)

include hev hargs in
lemma ensures_evalIf : Ensures D.inv (evalIf host ev args) D.val := by
  refine (ensures_argForm args 0 _).bind fun testForm htest => ?_
  refine (hev testForm (code_arg hargs htest)).bind fun test _ => ?_
  split
  · refine (ensures_argForm args _ _).bind fun resForm hres => ?_
    exact hev resForm (code_arg hargs hres)
  · exact ensures_reason

lemma ensures_runCommand (cmd : List Str) :
    Ensures D.inv (runCommand host cmd) fun _ => True := by
  intro s hs
  simp only [runCommand, exec_ofRuns]
  split
  · exact ⟨D.inv_world _ hs, fun _ _ => trivial⟩
  · exact ⟨D.inv_world _ hs, fun _ _ => trivial⟩

include hev hargs in
lemma ensures_evalSys : Ensures D.inv (evalSys host ev args) D.val := by
  rw [evalSys]
  split_ifs
  · exact ensures_reason
  · refine (ensures_evalArgs hev hargs).bind fun vs _ => ?_
    refine (ensures_liftResult (P := fun _ => True) fun _ _ => trivial).bind fun cmd _ => ?_
    refine (ensures_runCommand cmd).bind fun outcome _ => ?_
    split
    · refine (ensures_modify fun s hs => D.inv_world _ hs).bind fun _ _ => ?_
      exact ensures_pure (D.val_syscall cmd)
    · exact ensures_reason
    · exact ensures_reason

include hargs in
lemma ensures_evalQuote : Ensures D.inv (evalQuote args : Eval F W _) D.val :=
  (ensures_argForm args 0 _).mono fun _ hform => D.val_of_code (code_arg hargs hform)

include hev hargs in
lemma ensures_evalUntil (stop : Bool) (msg : String) :
    Ensures D.inv (evalUntil ev stop msg args) D.val := by
  induction args with
  | nil => exact ensures_pure (D.val_bool _)
  | cons arg args ih =>
      refine (hev arg (hargs arg (by simp))).bind fun v _ => ?_
      split
      · split_ifs
        · exact ensures_pure (D.val_bool _)
        · exact ih fun e he => hargs e (by simp [he])
      · exact ensures_reason

include hev in
lemma ensures_evalLoop {condition body : RispExp F} (hcondition : D.code condition)
    (hbody : D.code body) (rounds : ℕ) :
    Ensures D.inv (evalLoop ev condition body rounds) D.val := by
  induction rounds with
  | zero => exact ensures_throw
  | succ rounds ih =>
      refine (hev condition hcondition).bind fun v _ => ?_
      split
      · exact (hev body hbody).bind fun _ _ => ih
      · exact ensures_pure (D.val_bool _)
      · exact ensures_reason

include hev hargs in
lemma ensures_evalFor (rounds : ℕ) : Ensures D.inv (evalFor ev rounds args) D.val := by
  refine (ensures_argForm args 0 _).bind fun condition hcondition => ?_
  refine (ensures_argForm args 1 _).bind fun body hbody => ?_
  exact ensures_evalLoop hev (code_arg hargs hcondition) (code_arg hargs hbody) rounds

include hev hargs in
lemma ensures_evalDo {lastResult : RispExp F} (hlast : D.val lastResult) :
    Ensures D.inv (evalDo ev lastResult args) D.val := by
  induction args generalizing lastResult with
  | nil => exact ensures_pure hlast
  | cons form forms ih =>
      refine (hev form (hargs form (by simp))).bind fun result hresult => ?_
      exact ih (fun e he => hargs e (by simp [he])) hresult

/-! The forms that bind a variable, for one that they may bind. -/

section Binding

variable (hbind : ∀ {name : Str} {v : RispExp F}, args[0]? = some (RispExp.symbol name) →
  D.val v → Ensures D.inv (envInsert name v) fun _ => True)

include hev hargs hbind

lemma ensures_evalDef : Ensures D.inv (evalDef ev args) D.val := by
  refine (ensures_argForm args 0 _).bind fun firstForm hfirst => ?_
  refine (ensures_symbolName firstForm _).bind fun name hname => ?_
  refine (ensures_argForm args 1 _).bind fun secondForm hsecond => ?_
  split_ifs
  · exact ensures_reason
  · refine (hev secondForm (code_arg hargs hsecond)).bind fun v hv => ?_
    refine (hbind (hname ▸ hfirst) hv).bind fun _ _ => ?_
    exact ensures_pure (D.val_of_code (code_arg hargs hfirst))

lemma ensures_evalAppend : Ensures D.inv (evalAppend ev args) D.val := by
  refine (ensures_argForm args 0 _).bind fun symForm hsym => ?_
  refine (ensures_argForm args 1 _).bind fun valForm hval => ?_
  refine (ensures_symbolName symForm _).bind fun name hname => ?_
  refine (hev valForm (code_arg hargs hval)).bind fun v hv => ?_
  refine (ensures_currentList name).bind fun l hl => ?_
  have hnew : D.val (.list (l ++ [v])) := by
    refine D.val_list.mpr fun w hw => ?_
    rcases List.mem_append.mp hw with hw | hw
    · exact hl w hw
    · exact List.mem_singleton.mp hw ▸ hv
  refine (hbind (hname ▸ hsym) hnew).bind fun _ _ => ?_
  exact ensures_pure hnew

omit hev hargs in
lemma ensures_evalPop : Ensures D.inv (evalPop args) D.val := by
  refine (ensures_argForm args 0 _).bind fun symForm hsym => ?_
  refine (ensures_symbolName symForm _).bind fun name hname => ?_
  refine (ensures_currentList name).bind fun l hl => ?_
  split
  · exact ensures_reason
  · rename_i v hv
    have hrest : D.val (.list l.dropLast) :=
      D.val_list.mpr fun w hw => hl w (List.mem_of_mem_dropLast hw)
    refine (hbind (hname ▸ hsym) hrest).bind fun _ _ => ?_
    exact ensures_pure (hl v (List.mem_of_getLast? hv))

lemma ensures_evalMset : Ensures D.inv (evalMset host ev args) D.val := by
  refine (ensures_argForm args 0 _).bind fun symForm hsym => ?_
  refine (ensures_argForm args 1 _).bind fun keyForm hkey => ?_
  refine (ensures_argForm args 2 _).bind fun valForm hval => ?_
  refine (ensures_symbolName symForm _).bind fun name hname => ?_
  refine (hev keyForm (code_arg hargs hkey)).bind fun k _ => ?_
  refine (ensures_liftResult (P := fun _ => True) fun _ _ => trivial).bind fun key _ => ?_
  refine (hev valForm (code_arg hargs hval)).bind fun v hv => ?_
  refine (ensures_currentMap name).bind fun m hm => ?_
  refine (hbind (hname ▸ hsym) (D.val_insert hv hm)).bind fun _ _ => ?_
  exact ensures_pure hv

lemma ensures_evalMdel : Ensures D.inv (evalMdel host ev args) D.val := by
  refine (ensures_argForm args 0 _).bind fun symForm hsym => ?_
  refine (ensures_argForm args 1 _).bind fun keyForm hkey => ?_
  refine (ensures_symbolName symForm _).bind fun name hname => ?_
  refine (hev keyForm (code_arg hargs hkey)).bind fun k _ => ?_
  refine (ensures_liftResult (P := fun _ => True) fun _ _ => trivial).bind fun key _ => ?_
  refine (ensures_currentMap name).bind fun m hm => ?_
  have hnew : D.val (.map (Assoc.remove key m)) :=
    D.val_map.mpr fun p hp => D.val_map.mp hm p (Assoc.mem_of_mem_remove hp)
  refine (hbind (hname ▸ hsym) hnew).bind fun _ _ => ?_
  exact ensures_pure (D.val_bool _)

end Binding

/-! Calls of lambdas, the `error` handler among them. -/

lemma ensures_bodyEnv {paramsExp bodyExp : RispExp F} {capturedEnv : Env F}
    (hlambda : D.val (.lambda paramsExp bodyExp capturedEnv)) (hvals : ∀ v ∈ args, D.val v) :
    Ensures D.inv (Risp.bodyEnv paramsExp capturedEnv args) fun r =>
      ∀ env, r = .ok env → D.bodyEnv env :=
  ensures_get.bind fun _ hs => ensures_pure fun _ henv =>
    D.bodyEnv_of_call hs hlambda hvals henv

include hev in
lemma ensures_callLambda {paramsExp bodyExp : RispExp F} {capturedEnv : Env F}
    (hlambda : D.val (.lambda paramsExp bodyExp capturedEnv)) (hvals : ∀ v ∈ args, D.val v) :
    Ensures D.inv (callLambda ev paramsExp bodyExp capturedEnv args) D.val := by
  refine (ensures_bodyEnv hlambda hvals).bind fun r hr => ?_
  refine (ensures_liftResult hr).bind fun env henv => ?_
  exact D.inv_body henv hlambda hev

include hev hargs in
lemma ensures_evalCall {first : RispExp F} (hfirst : D.code first) :
    Ensures D.inv (evalCall host ev first args) D.val := by
  refine (hev first hfirst).bind fun f hf => ?_
  split
  · refine (ensures_evalArgs hev hargs).bind fun vs hvs => ?_
    exact ensures_liftResult fun v hv => D.val_callFunc hvs hv
  · refine (ensures_evalArgs hev hargs).bind fun vs hvs => ?_
    exact ensures_callLambda hev hf hvs
  · exact ensures_reason

include hev in
lemma ensures_runHandler {msg : RispExp F} (hmsg : D.val msg) :
    Ensures D.inv (runHandler ev msg) fun _ => True := by
  refine (ensures_envGet _).bind fun r hr => ?_
  split
  · have hlambda := hr _ rfl
    have hvals : ∀ v ∈ [msg], D.val v := by simpa using hmsg
    refine (ensures_bodyEnv hlambda hvals).bind fun e he => ?_
    split
    · exact ensures_dropResult (D.inv_body (he _ rfl) hlambda hev)
    · exact ensures_pure trivial
  · exact ensures_pure trivial

include hev hargs in
lemma ensures_evalError : Ensures D.inv (evalError host ev args) D.val := by
  refine (ensures_argForm args 0 _).bind fun msgForm hmsg => ?_
  refine (hev msgForm (code_arg hargs hmsg)).bind fun msg hval => ?_
  refine (ensures_runHandler hev hval).bind fun _ _ => ?_
  exact ensures_reason

/-! ### Evaluation -/

include hev in
lemma ensures_evalForm {first : RispExp F} {form : Form} (rounds : ℕ)
    (hform : Form.ofFirst first = some form) (hcode : D.code (.list (first :: args))) :
    Ensures D.inv (evalForm host ev rounds form args) D.val := by
  have hargs : ∀ e ∈ args, D.code e := fun e he => D.code_elem hcode (List.mem_cons_of_mem _ he)
  have hbind : form.binds = true → ∀ {name v}, args[0]? = some (.symbol name) → D.val v →
      Ensures D.inv (envInsert name v : Eval F W _) fun _ => True := by
    intro hbinds name v hname hv
    cases args with
    | nil => exact absurd hname (by simp)
    | cons arg rest =>
        obtain rfl : arg = .symbol name := by simpa using hname
        exact ensures_modify fun s hs => D.inv_insert hs hform hbinds hcode hv
  cases form with
  | ifForm => exact ensures_evalIf hev hargs
  | defForm => exact ensures_evalDef hev hargs (hbind rfl)
  | fnForm =>
      refine ensures_get.bind fun s hs => ensures_liftResult fun v hv => ?_
      rw [evalLambdaArgs.eq_def] at hv
      split at hv
      · exact absurd hv (by simp [fail])
      · exact absurd hv (by simp [fail])
      · exact Except.ok.inj hv ▸ D.val_fn hs hcode
      · exact absurd hv (by simp [fail])
  | sysForm => exact ensures_evalSys hev hargs
  | quoteForm => exact ensures_evalQuote hargs
  | andForm => exact ensures_evalUntil hev hargs false _
  | orForm => exact ensures_evalUntil hev hargs true _
  | forForm => exact ensures_evalFor hev hargs rounds
  | appendForm => exact ensures_evalAppend hev hargs (hbind rfl)
  | popForm => exact ensures_evalPop (hbind rfl)
  | msetForm => exact ensures_evalMset hev hargs (hbind rfl)
  | mdelForm => exact ensures_evalMdel hev hargs (hbind rfl)
  | doForm => exact ensures_evalDo hev hargs (D.val_list.mpr (by simp))
  | errorForm => exact ensures_evalError hev hargs

include hev in
lemma ensures_evalStep {e : RispExp F} (rounds : ℕ) (he : D.code e) :
    Ensures D.inv (evalStep host ev rounds e) D.val := by
  cases e with
  | bool b | number n | string s | map m => exact ensures_pure (D.val_of_code he)
  | func name | lambda p b c | syscall cmd => exact ensures_reason
  | symbol k =>
      refine (ensures_envGet k).bind fun r hr => ?_
      split
      · exact ensures_pure (hr _ rfl)
      · exact ensures_reason
  | list l =>
      rw [evalStep, evalList.eq_def]
      split
      · exact ensures_reason
      · rename_i first args
        split
        · rename_i form hform
          exact ensures_evalForm hev rounds hform he
        · exact ensures_evalCall hev (fun e h => D.code_elem he (List.mem_cons_of_mem _ h))
            (D.code_elem he List.mem_cons_self)

end Forms

/-- Every evaluation of an admitted expression keeps the invariant, whether it returns a value or
an error, and a value it returns is an admitted one. -/
theorem ensures_eval (fuel : ℕ) {e : RispExp F} (he : D.code e) :
    Ensures D.inv (eval host fuel e) D.val := by
  induction fuel generalizing e with
  | zero =>
      rw [eval]
      exact (ensures_modify fun s hs => D.inv_call hs he).bind fun _ _ => ensures_throw
  | succ fuel ih =>
      rw [eval]
      refine (ensures_modify fun s hs => D.inv_call hs he).bind fun _ _ => ?_
      exact ensures_evalStep (fun e he => ih he) fuel he

end Discipline

end SilOS.Risp
