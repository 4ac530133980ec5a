/-
# Two runs of the interpreter

The same program in two environments that agree on the names that are shown, and with commands
that may differ.  As long as no `sys` form is evaluated and no hidden name is mentioned, the two
runs go side by side: they evaluate the same expressions, to values that are alike, and they end
with the same error if they end with one.  A run that evaluates anything else is out of
consideration from then on, because the log of the evaluations only grows.
-/
import SilOS.Risp.Alike
import SilOS.Risp.Symbols

namespace SilOS.Risp

open Lib Comp Coupling

section TwoRuns

variable {F W α : Type} {shown : Str → Bool}

/-- No `sys` form, and all names in it are shown. -/
def Clean (shown : Str → Bool) (e : RispExp F) : Prop :=
  e.isSys = false ∧ Within (fun k => shown k = true) e

/-- The states of the two runs: the environments agree, and the rest is the same. -/
structure Matched (shown : Str → Bool) (s s' : Session F W) : Prop where
  sorted : Assoc.Sorted s.env
  sorted' : Assoc.Sorted s'.env
  env : AlikeEnv shown s.env s'.env
  world : s'.world = s.world
  texts : s'.texts = s.texts
  calls : s'.calls = s.calls

/-- The coupling of the two runs. -/
def sideBySide (shown : Str → Bool) : Coupling (Session F W) (Session F W) where
  rel := Matched shown
  gone s := ∃ e ∈ s.calls, ¬ Clean shown e

/-! ### Primitive steps -/

lemma agree_reason {V : α → α → Prop} {msg : String} :
    (sideBySide shown).Agree V (reason msg : Eval F W α) (reason msg) := agree_throw

lemma agree_liftResult {V : α → α → Prop} {r r' : Except RispErr α} (h : SameEnd V r r') :
    (sideBySide shown).Agree V (liftResult r : Eval F W α) (liftResult r') := by
  cases r <;> cases r'
  · obtain rfl := h
    exact agree_throw
  · exact h.elim
  · exact h.elim
  · exact agree_pure h

lemma keeps_liftResult {r : Except RispErr α} :
    (sideBySide shown).Keeps (liftResult r : Eval F W α) := by
  cases r with
  | error e => exact keeps_throw
  | ok a => exact keeps_pure

lemma agree_envGet {k : Str} (hk : shown k = true) :
    (sideBySide shown).Agree (Option.Rel (Alike shown)) (envGet k : Eval F W _) (envGet k) := by
  refine ⟨fun _ hs => hs, fun s s' hs => Or.inr ⟨hs, ?_⟩⟩
  have hlookup := hs.env.lookup k
  rwa [Assoc.lookup_restrict, Assoc.lookup_restrict, if_pos hk, if_pos hk] at hlookup

lemma alikeEnv_insert {env env' : Env F} (hsorted : Assoc.Sorted env) (hsorted' : Assoc.Sorted env')
    (henv : AlikeEnv shown env env') (k : Str) {v v' : RispExp F} (hv : Alike shown v v') :
    AlikeEnv shown (Assoc.insert k v env) (Assoc.insert k v' env') := by
  rw [AlikeEnv]
  cases hk : shown k with
  | true =>
      rw [hsorted.restrict_insert hk, hsorted'.restrict_insert hk]
      exact henv.insert k hv
  | false =>
      rw [Assoc.restrict_insert_of_dropped hk, Assoc.restrict_insert_of_dropped hk]
      exact henv

lemma agree_envInsert (k : Str) {v v' : RispExp F} (hv : Alike shown v v') :
    (sideBySide shown).Agree (fun _ _ => True) (envInsert k v : Eval F W _) (envInsert k v') := by
  refine agree_modify (fun _ hs => hs) fun s s' hs => ?_
  exact ⟨hs.sorted.insert k v, hs.sorted'.insert k v',
    alikeEnv_insert hs.sorted hs.sorted' hs.env k hv, hs.world, hs.texts, hs.calls⟩

lemma keeps_inEnv (env : Env F) {m : Eval F W α} (h : (sideBySide shown).Keeps m) :
    (sideBySide shown).Keeps (inEnv env m) :=
  fun s hs => h { s with env := env } hs

lemma agree_inEnv {V : α → α → Prop} {env env' : Env F} {m m' : Eval F W α}
    (hsorted : Assoc.Sorted env) (hsorted' : Assoc.Sorted env') (henv : AlikeEnv shown env env')
    (h : (sideBySide shown).Agree V m m') :
    (sideBySide shown).Agree V (inEnv env m) (inEnv env' m') := by
  refine ⟨keeps_inEnv env h.keeps, fun s s' hs => ?_⟩
  have hstart : Matched shown { s with env := env } { s' with env := env' } :=
    ⟨hsorted, hsorted', henv, hs.world, hs.texts, hs.calls⟩
  refine (h.rel _ _ hstart).imp id fun ⟨hend, hresult⟩ => ⟨?_, hresult⟩
  exact ⟨hs.sorted, hs.sorted', hs.env, hend.world, hend.texts, hend.calls⟩

/-- How `dropResult` ends. -/
def dropped : Except Stop α → Except Stop PUnit
  | .ok _ => .ok .unit
  | .error (.err _) => .ok .unit
  | .error (.fault f) => .error (.fault f)

/-- How `attempt` ends. -/
def attempted : Except Stop α → Except Stop (Except RispErr α)
  | .ok a => .ok (.ok a)
  | .error (.err e) => .ok (.error e)
  | .error (.fault f) => .error (.fault f)

lemma exec_dropResult (m : Eval F W α) (s : Session F W) :
    (dropResult m).exec s = (dropped (m.exec s).1, (m.exec s).2) := by
  rw [dropResult, exec_ofRuns]
  rcases m.exec s with ⟨(e | f) | a, t⟩ <;> rfl

lemma exec_attempt (m : Eval F W α) (s : Session F W) :
    (attempt m).exec s = (attempted (m.exec s).1, (m.exec s).2) := by
  rw [attempt, exec_ofRuns]
  rcases m.exec s with ⟨(e | f) | a, t⟩ <;> rfl

variable {V : α → α → Prop} {m m' : Eval F W α}

lemma agree_dropResult (h : (sideBySide shown).Agree V m m') :
    (sideBySide shown).Agree (fun _ _ => True) (dropResult m) (dropResult m') := by
  refine h.mapEnd (exec_dropResult m) (exec_dropResult m') fun r r' hr => ?_
  rcases r with (e | f) | a <;> rcases r' with e' | a'
  · obtain rfl := hr
    exact trivial
  · exact hr.elim
  · obtain rfl := hr
    exact rfl
  · exact hr.elim
  · exact hr.elim
  · exact trivial

lemma agree_attempt (h : (sideBySide shown).Agree V m m') :
    (sideBySide shown).Agree (SameEnd V) (attempt m) (attempt m') := by
  refine h.mapEnd (exec_attempt m) (exec_attempt m') fun r r' hr => ?_
  rcases r with (e | f) | a <;> rcases r' with e' | a'
  · obtain rfl := hr
    exact rfl
  · exact hr.elim
  · obtain rfl := hr
    exact rfl
  · exact hr.elim
  · exact hr.elim
  · exact hr

/-- Go on with a value. -/
lemma agree_value_bind {n n' : Eval F W (RispExp F)} {f f' : RispExp F → Eval F W α}
    (h : (sideBySide shown).Agree (Alike shown) n n')
    (hf : ∀ v v', Alike shown v v' → (sideBySide shown).Agree V (f v) (f' v')) :
    (sideBySide shown).Agree V (n >>= f) (n' >>= f') :=
  h.bind (fun v => ⟨v, .refl v⟩) hf

/-- Look a name up and go on. -/
lemma agree_envGet_bind {k : Str} (hk : shown k = true)
    {f f' : Option (RispExp F) → Eval F W α}
    (hf : ∀ o o', Option.Rel (Alike shown) o o' → (sideBySide shown).Agree V (f o) (f' o')) :
    (sideBySide shown).Agree V (envGet k >>= f) (envGet k >>= f') := by
  refine (agree_envGet hk).bind (fun o => ⟨o, ?_⟩) hf
  cases o with
  | none => exact .none
  | some v => exact .some (.refl v)

/-- Bind a variable and go on. -/
lemma agree_envInsert_bind (k : Str) {v v' : RispExp F} {f f' : PUnit → Eval F W α}
    (hv : Alike shown v v') (hf : (sideBySide shown).Agree V (f .unit) (f' .unit)) :
    (sideBySide shown).Agree V (envInsert k v >>= f) (envInsert k v' >>= f') :=
  (agree_envInsert k hv).bind (fun u => ⟨u, trivial⟩) fun _ _ _ => hf

/-! The operands of a form are the same in both runs. -/

lemma agree_argForm_bind {args : List (RispExp F)} {i : ℕ} {msg : String}
    {f f' : RispExp F → Eval F W α}
    (h : ∀ form, args[i]? = some form → (sideBySide shown).Agree V (f form) (f' form)) :
    (sideBySide shown).Agree V (argForm args i msg >>= f) (argForm args i msg >>= f') := by
  rw [argForm]
  split
  · rename_i form hform
    rw [pure_bind, pure_bind]
    exact h form hform
  · exact agree_reason

lemma agree_symbolName_bind {form : RispExp F} {msg : String} {f f' : Str → Eval F W α}
    (h : ∀ name, form = .symbol name → (sideBySide shown).Agree V (f name) (f' name)) :
    (sideBySide shown).Agree V (symbolName form msg >>= f) (symbolName form msg >>= f') := by
  rw [symbolName.eq_def]
  split
  · rename_i name
    rw [pure_bind, pure_bind]
    exact h name rfl
  · exact agree_reason

lemma agree_currentList {name : Str} (hname : shown name = true) :
    (sideBySide shown).Agree (List.Forall₂ (Alike shown)) (currentList name : Eval F W _)
      (currentList name) := by
  refine agree_envGet_bind hname fun o o' ho => ?_
  cases ho with
  | none => exact agree_reason
  | some hv =>
      cases hv with
      | list hl => exact agree_pure hl
      | _ => exact agree_reason

lemma agree_currentMap {name : Str} (hname : shown name = true) :
    (sideBySide shown).Agree (Assoc.Rel (Alike shown)) (currentMap name : Eval F W _)
      (currentMap name) := by
  refine agree_envGet_bind hname fun o o' ho => ?_
  cases ho with
  | none => exact agree_reason
  | some hv =>
      cases hv with
      | map hm => exact agree_pure hm
      | _ => exact agree_reason

/-! ### The forms -/

section Forms

variable {host host' : Host F W} (hops : host'.ops = host.ops)
  {ev ev' : RispExp F → Eval F W (RispExp F)}
  (hev : ∀ e, (sideBySide shown).Agree (Alike shown) (ev e) (ev' e))
  {args : List (RispExp F)} (hargs : ∀ e ∈ args, Within (fun k => shown k = true) e)

include hargs in
lemma shown_of_operand {i : ℕ} {form : RispExp F} {name : Str} (hform : args[i]? = some form)
    (hname : form = .symbol name) : shown name = true := by
  subst hname
  cases hargs _ (List.mem_of_getElem? hform) with
  | symbol h => exact h

include hev in
lemma agree_evalArgs (args : List (RispExp F)) :
    (sideBySide shown).Agree (List.Forall₂ (Alike shown)) (evalArgs ev args)
      (evalArgs ev' args) := by
  induction args with
  | nil => exact agree_pure .nil
  | cons arg args ih =>
      refine agree_value_bind (hev arg) fun v v' hv => ?_
      refine ih.bind (fun vs => ⟨vs, forall₂_alike_refl vs⟩) fun vs vs' hvs => ?_
      exact agree_pure (.cons hv hvs)

include hops hev in
lemma agree_evalIf :
    (sideBySide shown).Agree (Alike shown) (evalIf host ev args) (evalIf host' ev' args) := by
  refine agree_argForm_bind fun testForm _ => ?_
  refine agree_value_bind (hev testForm) fun v v' hv => ?_
  cases hv with
  | bool b => exact agree_argForm_bind fun resForm _ => hev resForm
  | _ =>
      rw [hops]
      exact agree_reason

include hev in
lemma agree_evalDef :
    (sideBySide shown).Agree (Alike shown) (evalDef ev args) (evalDef ev' args) := by
  refine agree_argForm_bind fun firstForm _ => ?_
  refine agree_symbolName_bind fun name _ => ?_
  refine agree_argForm_bind fun secondForm _ => ?_
  split_ifs
  · exact agree_reason
  · refine agree_value_bind (hev secondForm) fun v v' hv => ?_
    exact agree_envInsert_bind name hv (agree_pure (.refl firstForm))

lemma agree_evalFn :
    (sideBySide shown).Agree (Alike shown) (evalFn args : Eval F W _) (evalFn args) := by
  refine agree_get_bind (fun _ => keeps_liftResult) fun s s' hs => agree_liftResult ?_
  rcases args with _ | ⟨paramsExp, _ | ⟨bodyExp, _ | _⟩⟩
  · exact rfl
  · exact rfl
  · exact Alike.lambda hs.env
  · exact rfl

lemma agree_evalQuote :
    (sideBySide shown).Agree (Alike shown) (evalQuote args : Eval F W _) (evalQuote args) := by
  rw [evalQuote, argForm]
  split
  · exact agree_pure (.refl _)
  · exact agree_reason

include hev in
lemma agree_evalUntil (stop : Bool) (msg : String) (args : List (RispExp F)) :
    (sideBySide shown).Agree (Alike shown) (evalUntil ev stop msg args)
      (evalUntil ev' stop msg args) := by
  induction args with
  | nil => exact agree_pure (.bool _)
  | cons arg args ih =>
      refine agree_value_bind (hev arg) fun v v' hv => ?_
      cases hv with
      | bool b =>
          simp only
          split_ifs
          · exact agree_pure (.bool _)
          · exact ih
      | _ => exact agree_reason

include hev in
lemma agree_evalLoop (condition body : RispExp F) (rounds : ℕ) :
    (sideBySide shown).Agree (Alike shown) (evalLoop ev condition body rounds)
      (evalLoop ev' condition body rounds) := by
  induction rounds with
  | zero => exact agree_throw
  | succ rounds ih =>
      refine agree_value_bind (hev condition) fun v v' hv => ?_
      cases hv with
      | bool b =>
          cases b with
          | true => exact agree_value_bind (hev body) fun _ _ _ => ih
          | false => exact agree_pure (.bool _)
      | _ => exact agree_reason

include hev in
lemma agree_evalFor (rounds : ℕ) :
    (sideBySide shown).Agree (Alike shown) (evalFor ev rounds args) (evalFor ev' rounds args) := by
  refine agree_argForm_bind fun condition _ => ?_
  refine agree_argForm_bind fun body _ => ?_
  exact agree_evalLoop hev condition body rounds

include hev in
lemma agree_evalDo {lastResult lastResult' : RispExp F} (hlast : Alike shown lastResult lastResult')
    (args : List (RispExp F)) :
    (sideBySide shown).Agree (Alike shown) (evalDo ev lastResult args)
      (evalDo ev' lastResult' args) := by
  induction args generalizing lastResult lastResult' with
  | nil => exact agree_pure hlast
  | cons form forms ih =>
      exact agree_value_bind (hev form) fun _ _ hresult => ih hresult

include hev hargs in
lemma agree_evalAppend :
    (sideBySide shown).Agree (Alike shown) (evalAppend ev args) (evalAppend ev' args) := by
  refine agree_argForm_bind fun symForm hsym => ?_
  refine agree_argForm_bind fun valForm _ => ?_
  refine agree_symbolName_bind fun name hname => ?_
  have hshown := shown_of_operand hargs hsym hname
  refine agree_value_bind (hev valForm) fun v v' hv => ?_
  refine (agree_currentList hshown).bind (fun l => ⟨l, forall₂_alike_refl l⟩) fun l l' hl => ?_
  have hnew : Alike shown (.list (l ++ [v])) (.list (l' ++ [v'])) :=
    .list (List.rel_append hl (.cons hv .nil))
  exact agree_envInsert_bind name hnew (agree_pure hnew)

include hargs in
lemma agree_evalPop :
    (sideBySide shown).Agree (Alike shown) (evalPop args : Eval F W _) (evalPop args) := by
  refine agree_argForm_bind fun symForm hsym => ?_
  refine agree_symbolName_bind fun name hname => ?_
  have hshown := shown_of_operand hargs hsym hname
  refine (agree_currentList hshown).bind (fun l => ⟨l, forall₂_alike_refl l⟩) fun l l' hl => ?_
  have hlast : Option.Rel (Alike shown) l.getLast? l'.getLast? := by
    rw [List.getLast?_eq_getElem?, List.getLast?_eq_getElem?, hl.length_eq]
    exact getElem?_alike hl _
  have hrest : Alike shown (.list l.dropLast) (.list l'.dropLast) := by
    rw [List.dropLast_eq_take, List.dropLast_eq_take, hl.length_eq]
    exact .list (List.forall₂_take _ hl)
  revert hlast
  generalize l.getLast? = o
  generalize l'.getLast? = o'
  intro hlast
  cases hlast with
  | none => exact agree_reason
  | some hv => exact agree_envInsert_bind name hrest (agree_pure hv)

include hops hev in
/-- Values that are alike are the same key, or none. -/
lemma agree_key_bind {V : RispExp F → RispExp F → Prop} (keyForm : RispExp F)
    {f f' : RispKey → Eval F W (RispExp F)}
    (hf : ∀ key, (sideBySide shown).Agree V (f key) (f' key)) :
    (sideBySide shown).Agree V (ev keyForm >>= fun k => liftResult (expToKey host.ops k) >>= f)
      (ev' keyForm >>= fun k => liftResult (expToKey host'.ops k) >>= f') := by
  refine agree_value_bind (hev keyForm) fun k k' hk => ?_
  rw [hops, hk.expToKey]
  refine (agree_liftResult (.of_eq (V := (· = ·)) (fun _ => rfl) rfl)).bind
    (fun key => ⟨key, rfl⟩) fun key key' hkey => ?_
  subst hkey
  exact hf key

include hops hev hargs in
lemma agree_evalMset :
    (sideBySide shown).Agree (Alike shown) (evalMset host ev args) (evalMset host' ev' args) := by
  refine agree_argForm_bind fun symForm hsym => ?_
  refine agree_argForm_bind fun keyForm _ => ?_
  refine agree_argForm_bind fun valForm _ => ?_
  refine agree_symbolName_bind fun name hname => ?_
  have hshown := shown_of_operand hargs hsym hname
  refine agree_key_bind hops hev keyForm fun key => ?_
  refine agree_value_bind (hev valForm) fun v v' hv => ?_
  refine (agree_currentMap hshown).bind (fun m => ⟨m, entries_alike_refl m⟩) fun m m' hm => ?_
  exact agree_envInsert_bind name (.map (hm.insert key hv)) (agree_pure hv)

include hops hev hargs in
lemma agree_evalMdel :
    (sideBySide shown).Agree (Alike shown) (evalMdel host ev args) (evalMdel host' ev' args) := by
  refine agree_argForm_bind fun symForm hsym => ?_
  refine agree_argForm_bind fun keyForm _ => ?_
  refine agree_symbolName_bind fun name hname => ?_
  have hshown := shown_of_operand hargs hsym hname
  refine agree_key_bind hops hev keyForm fun key => ?_
  refine (agree_currentMap hshown).bind (fun m => ⟨m, entries_alike_refl m⟩) fun m m' hm => ?_
  exact agree_envInsert_bind name (.map (hm.remove key)) (agree_pure (.bool true))

/-! Calls of lambdas, the `error` handler among them. -/

/-- The environments in which the two runs evaluate the body of a lambda.  They need not agree if
the body is a `sys` form. -/
def BodyEnvs (shown : Str → Bool) (bodyExp : RispExp F) (env env' : Env F) : Prop :=
  bodyExp.isSys = true ∨
    Assoc.Sorted env ∧ Assoc.Sorted env' ∧ AlikeEnv shown env env'

lemma bodyEnvs_envForLambda {s s' : Session F W} (hs : Matched shown s s')
    {paramsExp bodyExp : RispExp F} {capturedEnv capturedEnv' : Env F}
    (hlambda : Alike shown (.lambda paramsExp bodyExp capturedEnv)
      (.lambda paramsExp bodyExp capturedEnv'))
    {vals vals' : List (RispExp F)} (hvals : List.Forall₂ (Alike shown) vals vals') :
    SameEnd (BodyEnvs shown bodyExp)
      (envForLambda paramsExp vals (Assoc.insertAll s.env capturedEnv))
      (envForLambda paramsExp vals' (Assoc.insertAll s'.env capturedEnv')) := by
  rw [envForLambda, envForLambda, hvals.length_eq]
  split
  · exact rfl
  · rename_i ks _
    split_ifs
    · exact rfl
    · cases hlambda with
      | sysLambda hsys => exact Or.inl hsys
      | lambda hcaptured =>
          have hsorted := hs.sorted.insertAll capturedEnv
          have hsorted' := hs.sorted'.insertAll capturedEnv'
          refine Or.inr ⟨hsorted.insertAll _, hsorted'.insertAll _, ?_⟩
          rw [AlikeEnv, hsorted.restrict_insertAll, hsorted'.restrict_insertAll,
            hs.sorted.restrict_insertAll, hs.sorted'.restrict_insertAll]
          exact (hs.env.insertAll hcaptured).insertAll ((Assoc.Rel.of_zip hvals).restrict shown)

lemma agree_bodyEnv {paramsExp bodyExp : RispExp F} {capturedEnv capturedEnv' : Env F}
    (hlambda : Alike shown (.lambda paramsExp bodyExp capturedEnv)
      (.lambda paramsExp bodyExp capturedEnv'))
    {vals vals' : List (RispExp F)} (hvals : List.Forall₂ (Alike shown) vals vals') :
    (sideBySide shown).Agree (SameEnd (BodyEnvs shown bodyExp))
      (bodyEnv paramsExp capturedEnv vals : Eval F W _) (bodyEnv paramsExp capturedEnv' vals') :=
  agree_get_bind (fun _ => keeps_pure) fun _ _ hs =>
    agree_pure (bodyEnvs_envForLambda hs hlambda hvals)

variable (hsys : ∀ e s, e.isSys = true → (sideBySide shown).gone ((ev e).exec s).2)

include hev hsys in
lemma agree_body {bodyExp : RispExp F} {env env' : Env F}
    (h : BodyEnvs shown bodyExp env env') :
    (sideBySide shown).Agree (Alike shown) (inEnv env (ev bodyExp)) (inEnv env' (ev' bodyExp)) := by
  rcases h with hbody | ⟨hsorted, hsorted', henv⟩
  · exact agree_of_gone fun s => hsys bodyExp { s with env := env } hbody
  · exact agree_inEnv hsorted hsorted' henv (hev bodyExp)

include hev hsys in
lemma agree_callLambda {paramsExp bodyExp : RispExp F} {capturedEnv capturedEnv' : Env F}
    (hlambda : Alike shown (.lambda paramsExp bodyExp capturedEnv)
      (.lambda paramsExp bodyExp capturedEnv'))
    {vals vals' : List (RispExp F)} (hvals : List.Forall₂ (Alike shown) vals vals') :
    (sideBySide shown).Agree (Alike shown) (callLambda ev paramsExp bodyExp capturedEnv vals)
      (callLambda ev' paramsExp bodyExp capturedEnv' vals') := by
  have hkeeps : ∀ env, (sideBySide shown).Keeps (inEnv env (ev bodyExp)) :=
    fun env => keeps_inEnv env (hev bodyExp).keeps
  refine (agree_bodyEnv hlambda hvals).bindKeeping (fun _ => keeps_liftResult.bind hkeeps)
    fun r r' hr => ?_
  exact (agree_liftResult hr).bindKeeping hkeeps fun _ _ henv => agree_body hev hsys henv

include hops hev hsys in
lemma agree_evalCall (first : RispExp F) :
    (sideBySide shown).Agree (Alike shown) (evalCall host ev first args)
      (evalCall host' ev' first args) := by
  refine agree_value_bind (hev first) fun f f' hf => ?_
  have hvals := agree_evalArgs hev args
  cases hf with
  | func name =>
      refine hvals.bind (fun vs => ⟨vs, forall₂_alike_refl vs⟩) fun vs vs' hvs => ?_
      rw [hops]
      exact agree_liftResult (callFunc_alike host.ops name hvs)
  | lambda henv =>
      refine hvals.bind (fun vs => ⟨vs, forall₂_alike_refl vs⟩) fun vs vs' hvs => ?_
      exact agree_callLambda hev hsys (.lambda henv) hvs
  | sysLambda hbody =>
      refine hvals.bind (fun vs => ⟨vs, forall₂_alike_refl vs⟩) fun vs vs' hvs => ?_
      exact agree_callLambda hev hsys (.sysLambda hbody) hvs
  | _ => exact agree_reason

variable (herror : shown ['e', 'r', 'r', 'o', 'r'] = true)

include hev hsys in
lemma agree_handler {paramsExp bodyExp : RispExp F} {capturedEnv capturedEnv' : Env F}
    (hlambda : Alike shown (.lambda paramsExp bodyExp capturedEnv)
      (.lambda paramsExp bodyExp capturedEnv'))
    {msg msg' : RispExp F} (hmsg : Alike shown msg msg') :
    (sideBySide shown).Agree (fun _ _ => True)
      (do match ← bodyEnv paramsExp capturedEnv [msg] with
          | .ok newEnv => dropResult (inEnv newEnv (ev bodyExp))
          | .error _ => pure .unit)
      (do match ← bodyEnv paramsExp capturedEnv' [msg'] with
          | .ok newEnv => dropResult (inEnv newEnv (ev' bodyExp))
          | .error _ => pure .unit) := by
  have hkeeps : ∀ env, (sideBySide shown).Keeps (dropResult (inEnv env (ev bodyExp))) := by
    intro env s hs
    rw [exec_dropResult]
    exact keeps_inEnv env (hev bodyExp).keeps s hs
  refine (agree_bodyEnv hlambda (.cons hmsg .nil)).bindKeeping (fun r => ?_) fun r r' hr => ?_
  · cases r with
    | error e => exact keeps_pure
    | ok env => exact hkeeps env
  · cases r <;> cases r'
    · exact agree_pure trivial
    · exact hr.elim
    · exact hr.elim
    · exact agree_dropResult (agree_body hev hsys hr)

include hev hsys herror in
lemma agree_runHandler {msg msg' : RispExp F} (hmsg : Alike shown msg msg') :
    (sideBySide shown).Agree (fun _ _ => True) (runHandler ev msg) (runHandler ev' msg') := by
  refine agree_envGet_bind herror fun o o' ho => ?_
  cases ho with
  | none => exact agree_pure trivial
  | some hv =>
      cases hv with
      | lambda henv => exact agree_handler hev hsys (.lambda henv) hmsg
      | sysLambda hbody => exact agree_handler hev hsys (.sysLambda hbody) hmsg
      | _ => exact agree_pure trivial

include hops in
lemma errorText_alike {msg msg' : RispExp F} (h : Alike shown msg msg') :
    errorText host' msg' = errorText host msg := by
  have hdisplay := display_alike host.ops.toFloatText h
  cases h <;> simp only [errorText, hops, hdisplay]

include hops hev hsys herror in
lemma agree_evalError :
    (sideBySide shown).Agree (Alike shown) (evalError host ev args) (evalError host' ev' args) := by
  refine agree_argForm_bind fun msgForm _ => ?_
  refine agree_value_bind (hev msgForm) fun msg msg' hmsg => ?_
  refine (agree_runHandler hev hsys herror hmsg).bind (fun u => ⟨u, trivial⟩) fun _ _ _ => ?_
  rw [errorText_alike hops hmsg]
  exact agree_reason

/-! ### Evaluation -/

include hops hev hargs hsys herror in
lemma agree_evalForm (rounds : ℕ) {form : Form} (hform : form ≠ .sysForm) :
    (sideBySide shown).Agree (Alike shown) (evalForm host ev rounds form args)
      (evalForm host' ev' rounds form args) := by
  cases form with
  | ifForm => exact agree_evalIf hops hev
  | defForm => exact agree_evalDef hev
  | fnForm => exact agree_evalFn
  | sysForm => exact absurd rfl hform
  | quoteForm => exact agree_evalQuote
  | andForm => exact agree_evalUntil hev false _ args
  | orForm => exact agree_evalUntil hev true _ args
  | forForm => exact agree_evalFor hev rounds
  | appendForm => exact agree_evalAppend hev hargs
  | popForm => exact agree_evalPop hargs
  | msetForm => exact agree_evalMset hops hev hargs
  | mdelForm => exact agree_evalMdel hops hev hargs
  | doForm => exact agree_evalDo hev (.refl _) args
  | errorForm => exact agree_evalError hops hev hsys herror

include hops hev hsys herror in
lemma agree_evalStep (rounds : ℕ) {e : RispExp F} (he : Clean shown e) :
    (sideBySide shown).Agree (Alike shown) (evalStep host ev rounds e)
      (evalStep host' ev' rounds e) := by
  cases he.2 with
  | bool b => exact agree_pure (.bool b)
  | number n => exact agree_pure (.number n)
  | string s => exact agree_pure (.string s)
  | symbol hk =>
      refine agree_envGet_bind hk fun o o' ho => ?_
      cases ho with
      | none => exact agree_reason
      | some hv => exact agree_pure hv
  | @list l hl =>
      rw [evalStep, evalStep, evalList.eq_def, evalList.eq_def]
      cases l with
      | nil => exact agree_reason
      | cons first args =>
          simp only
          split
          · rename_i form hform
            have hargs : ∀ e ∈ args, Within (fun k => shown k = true) e :=
              fun e h => hl e (List.mem_cons_of_mem _ h)
            refine agree_evalForm hops hev hargs hsys herror rounds fun hsysForm => ?_
            exact absurd he.1 (by simp [RispExp.isSys, hform, hsysForm])
          · exact agree_evalCall hops hev hsys first

end Forms

/-- The log of the evaluations only grows. -/
def goneDiscipline (host : Host F W) (shown : Str → Bool) : Discipline host where
  code _ := True
  val _ := True
  inv s := ∃ e ∈ s.calls, ¬ Clean shown e
  bodyEnv _ := True
  code_elem _ _ := trivial
  val_of_code _ := trivial
  val_bool _ := trivial
  val_number _ := trivial
  val_string _ := trivial
  val_syscall _ := trivial
  val_list := unconstrained_list
  val_map := unconstrained_map
  val_lookup _ _ := trivial
  val_fn _ _ := trivial
  inv_call hs _ := hs.imp fun _ he => ⟨List.mem_cons_of_mem _ he.1, he.2⟩
  inv_world _ hs := hs
  inv_insert hs _ _ _ _ := hs
  bodyEnv_of_call _ _ _ _ := trivial
  inv_body {env _ bodyExp _ _} _ _ hev := fun s hs =>
    ⟨(hev bodyExp trivial { s with env := env } hs).1, fun _ _ => trivial⟩

variable {host host' : Host F W}

/-- An evaluation that is not clean is in the log. -/
lemma gone_eval (fuel : ℕ) {e : RispExp F} (he : ¬ Clean shown e) (s : Session F W) :
    (sideBySide shown).gone ((eval host fuel e).exec s).2 := by
  have hlogged : (sideBySide shown).gone { s with calls := e :: s.calls } :=
    ⟨e, List.mem_cons_self, he⟩
  cases fuel with
  | zero =>
      rw [eval]
      exact hlogged
  | succ fuel =>
      have hstep : Ensures (sideBySide shown).gone (evalStep host (eval host fuel) fuel e)
          fun _ => True :=
        (goneDiscipline host shown).ensures_evalStep
          (fun _ _ => (goneDiscipline host shown).ensures_eval fuel trivial) fuel trivial
      rw [eval]
      exact (hstep _ hlogged).1

/-- Both runs log an evaluation. -/
lemma agree_log_bind {V : α → α → Prop} {f f' : PUnit → Eval F W α} (e : RispExp F)
    (h : (sideBySide shown).Agree V (f .unit) (f' .unit)) :
    (sideBySide shown).Agree V ((modify fun s => { s with calls := e :: s.calls }) >>= f)
      ((modify fun s => { s with calls := e :: s.calls }) >>= f') := by
  refine (agree_modify (fun s hs => ?_) fun s s' hs => ?_).bind (fun u => ⟨u, trivial⟩)
    fun _ _ _ => h
  · exact hs.imp fun _ he => ⟨List.mem_cons_of_mem _ he.1, he.2⟩
  · exact ⟨hs.sorted, hs.sorted', hs.env, hs.world, hs.texts, congrArg (e :: ·) hs.calls⟩

/-- The same expression is evaluated side by side. -/
theorem agree_eval (hops : host'.ops = host.ops) (herror : shown ['e', 'r', 'r', 'o', 'r'] = true)
    (fuel : ℕ) (e : RispExp F) :
    (sideBySide shown).Agree (Alike shown) (eval host fuel e) (eval host' fuel e) := by
  induction fuel generalizing e with
  | zero =>
      rw [eval, eval]
      exact agree_log_bind e agree_throw
  | succ fuel ih =>
      by_cases he : Clean shown e
      · have hsys : ∀ e s, e.isSys = true →
            (sideBySide shown).gone ((eval host fuel e).exec s).2 := by
          intro e s hsys
          exact gone_eval fuel (fun hclean => by simp [hclean.1] at hsys) s
        rw [eval, eval]
        exact agree_log_bind e (agree_evalStep hops ih hsys herror fuel he)
      · exact agree_of_gone (gone_eval (fuel + 1) he)

/-! ### Whole programs -/

variable (hops : host'.ops = host.ops) (herror : shown ['e', 'r', 'r', 'o', 'r'] = true) (fuel : ℕ)

include hops herror

lemma agree_parseEval (expr : Str) :
    (sideBySide shown).Agree (Alike shown) (parseEval host fuel expr)
      (parseEval host' fuel expr) := by
  have hlog : (sideBySide shown).Agree (fun _ _ => True)
      (modify fun s => { s with texts := expr :: s.texts } : Eval F W PUnit)
      (modify fun s => { s with texts := expr :: s.texts }) :=
    agree_modify (fun _ hs => hs) fun s s' hs =>
      ⟨hs.sorted, hs.sorted', hs.env, hs.world, congrArg (expr :: ·) hs.texts, hs.calls⟩
  refine hlog.bind (fun u => ⟨u, trivial⟩) fun _ _ _ => ?_
  rw [hops]
  split
  · exact agree_throw
  · exact agree_eval hops herror fuel _

lemma agree_runStatements (ss : List Str) (worked : Bool) (errorMsg : String) :
    (sideBySide shown).Agree (· = ·) (runStatements host fuel ss worked errorMsg)
      (runStatements host' fuel ss worked errorMsg) := by
  induction ss generalizing worked errorMsg with
  | nil => exact agree_pure rfl
  | cons code rest ih =>
      have hcode := agree_attempt (agree_parseEval hops herror fuel code)
      refine hcode.bind (fun r => ⟨r, .of_eq .refl rfl⟩) fun r r' hr => ?_
      rcases r with e | v <;> rcases r' with e' | v'
      · obtain rfl : e = e' := hr
        exact ih false _
      · exact hr.elim
      · exact hr.elim
      · exact ih worked errorMsg

lemma agree_runProgram (code : Str) :
    (sideBySide shown).Agree (· = ·) (runProgram host fuel code) (runProgram host' fuel code) := by
  rw [runProgram, runProgram]
  split_ifs
  · exact agree_pure rfl
  · refine (agree_runStatements hops herror fuel _ _ _).bind (fun r => ⟨r, rfl⟩) fun r r' hr => ?_
    subst hr
    exact agree_pure rfl

end TwoRuns

end SilOS.Risp
