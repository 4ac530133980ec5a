/-
# The names a program can mention

A symbol that is evaluated was read from a statement, and a statement has no semicolon in it.  So
the names that a program can mention are the words that are read as symbols (`Readable`): nothing
with a space, a parenthesis or a semicolon in it, no number and no Boolean.  The invariant is that
of `values_never_evaluated`, with the names.
-/
import SilOS.Risp.Code
import SilOS.Risp.Statements
import SilOS.Risp.Tokens

namespace SilOS.Risp

open Lib Comp Scanner

section Symbols

variable {F W : Type} {ok : Str → Prop}

/-- Code in which all symbols are admitted. -/
inductive Within (ok : Str → Prop) : RispExp F → Prop
  | bool (b : Bool) : Within ok (.bool b)
  | symbol {s : Str} (h : ok s) : Within ok (.symbol s)
  | number (n : F) : Within ok (.number n)
  | string (s : Str) : Within ok (.string s)
  | list {l : List (RispExp F)} (h : ∀ e ∈ l, Within ok e) : Within ok (.list l)

/-- The bodies of all lambdas in a value only have admitted symbols. -/
inductive Carries (ok : Str → Prop) : RispExp F → Prop
  | bool (b : Bool) : Carries ok (.bool b)
  | symbol (s : Str) : Carries ok (.symbol s)
  | number (n : F) : Carries ok (.number n)
  | string (s : Str) : Carries ok (.string s)
  | func (name : Str) : Carries ok (.func name)
  | syscall (cmd : List Str) : Carries ok (.syscall cmd)
  | list {l : List (RispExp F)} (h : ∀ e ∈ l, Carries ok e) : Carries ok (.list l)
  | map {m : Entries F} (h : ∀ p ∈ m, Carries ok p.2) : Carries ok (.map m)
  | lambda {paramsExp bodyExp : RispExp F} {capturedEnv : Env F} (hbody : Within ok bodyExp)
      (henv : ∀ p ∈ capturedEnv, Carries ok p.2) :
      Carries ok (.lambda paramsExp bodyExp capturedEnv)

lemma within_list {l : List (RispExp F)} : Within ok (.list l) ↔ ∀ e ∈ l, Within ok e :=
  ⟨fun h => by cases h with | list h => exact h, .list⟩

lemma Within.mono {ok' : Str → Prop} {e : RispExp F} (h : Within ok e)
    (hok : ∀ k, ok k → ok' k) : Within ok' e := by
  induction h with
  | bool b => exact .bool b
  | symbol h => exact .symbol (hok _ h)
  | number n => exact .number n
  | string s => exact .string s
  | list _ ih => exact .list ih

lemma Within.carries {e : RispExp F} (h : Within ok e) : Carries ok e := by
  induction h with
  | bool b => exact .bool b
  | symbol _ => exact .symbol _
  | number n => exact .number n
  | string s => exact .string s
  | list _ ih => exact .list ih

/-! ### The reader -/

/-- A text that is read as the symbol of that name, and that can be a statement. -/
def Readable (text : FloatText F) (k : Str) : Prop :=
  ';' ∉ k ∧ parse text (tokenize k) = .ok (.symbol k, [])

lemma mem_of_mem_stripped {c : Char} {mode : Mode} {s : Str} (h : c ∈ stripped mode s) : c ∈ s := by
  induction s generalizing mode with
  | nil => exact absurd h (by simp [stripped])
  | cons c' s ih =>
      rw [stripped] at h
      split_ifs at h
      · rcases List.mem_cons.mp h with rfl | h
        · exact List.mem_cons_self
        · exact List.mem_cons_of_mem _ (ih h)
      · exact List.mem_cons_of_mem _ (ih h)

/-- The characters of the tokens are characters of the source. -/
lemma mem_of_mem_token {c : Char} {t s : Str} (ht : t ∈ tokenize s) (hc : c ∈ t) : c ∈ s := by
  have hflat : c ∈ (tokenize s).flatten := List.mem_flatten.mpr ⟨t, ht, hc⟩
  rw [tokenize, text_flush, sound_start.text_scan] at hflat
  exact mem_of_mem_stripped hflat

/-- A token is complete, or a string that is not terminated. -/
lemma isToken_of_mem_tokenize {t s : Str} (ht : t ∈ tokenize s) :
    IsToken t ∨ ∃ body, '"' ∉ body ∧ t = '"' :: body := by
  have hsound := sound_start.scan s
  rw [tokenize, flush] at ht
  split_ifs at ht with hcur
  · exact Or.inl (hsound.tokens t ht)
  · rcases List.mem_append.mp ht with ht | ht
    · exact Or.inl (hsound.tokens t ht)
    · rw [List.mem_singleton.mp ht]
      cases hstring : (start.scan s).inString with
      | true => exact Or.inr (hsound.string hstring)
      | false => exact Or.inl (Or.inl ⟨hcur, hsound.word hstring⟩)

lemma tokenize_bare {t : Str} (h : Bare t) : tokenize t = [t] := by
  have hscan : start.scan t = code [] t := @scan_word [] [] t h.2
  rw [tokenize, hscan, flush_code, finished_of_ne h.1]
  rfl

lemma tokenize_unterminated {body : Str} (h : '"' ∉ body) :
    tokenize ('"' :: body) = ['"' :: body] := by
  have hscan : start.scan ('"' :: body) = ⟨[], '"' :: body, true, false⟩ := by
    have hstep : start.step '"' = ⟨[], ['"'], true, false⟩ := @step_quote [] []
    rw [scan_cons, hstep, scan_inString h]
    rfl
  rw [tokenize, hscan]
  rfl

/-- A token that is read as a symbol is a readable name. -/
lemma readable_of_token {text : FloatText F} {t s : Str} (hs : ';' ∉ s) (ht : t ∈ tokenize s)
    (hopen : t ≠ ['(']) (hclose : t ≠ [')']) (hsymbol : parseAtom text t = .ok (.symbol t)) :
    Readable text t := by
  refine ⟨fun hc => hs (mem_of_mem_token ht hc), ?_⟩
  have htokens : tokenize t = [t] := by
    rcases isToken_of_mem_tokenize ht with (hbare | rfl | rfl | ⟨body, -, rfl⟩) | ⟨body, hbody, rfl⟩
    · exact tokenize_bare hbare
    · exact absurd rfl hopen
    · exact absurd rfl hclose
    · exact absurd hsymbol (by rw [parseAtom_string]; simp)
    · exact tokenize_unterminated hbody
  rw [htokens, parse]
  exact parseFrom_atom hopen hclose hsymbol

lemma within_atom {text : FloatText F} {token : Str} {e : RispExp F}
    (h : parseAtom text token = .ok e)
    (hok : parseAtom text token = .ok (.symbol token) → ok token) : Within ok e := by
  rcases parseAtom_cases h with ⟨b, rfl⟩ | ⟨s, rfl⟩ | ⟨v, rfl⟩ | rfl
  · exact .bool b
  · exact .string s
  · exact .number v
  · exact .symbol (hok h)

/-- The symbols among the tokens are admitted. -/
def SymbolsOk (ok : Str → Prop) (text : FloatText F) (tokens : List Str) : Prop :=
  ∀ t ∈ tokens, t ≠ ['('] → t ≠ [')'] → parseAtom text t = .ok (.symbol t) → ok t

/-- The expression that was read, if any, only has admitted symbols if the tokens have. -/
def ReadsWithin (ok : Str → Prop) (text : FloatText F) (tokens : List Str) (r : Reading F) : Prop :=
  SymbolsOk ok text tokens → ∀ e rest, r = .ok (e, rest) → Within ok e

lemma readsWithin_reading (ok : Str → Prop) (text : FloatText F) (fuel : ℕ) :
    (∀ tokens, ReadsWithin ok text tokens (parseFrom text fuel tokens)) ∧
      ∀ res tokens, (∀ e ∈ res, Within ok e) →
        ReadsWithin ok text tokens (readSeqFrom text fuel res tokens) := by
  refine reading_induction text (P := fun _ tokens r => ReadsWithin ok text tokens r)
    (Q := fun _ res tokens r => (∀ e ∈ res, Within ok e) → ReadsWithin ok text tokens r)
    ?_ ?_ ?_ ?_ ?_ ?_ ?_ ?_ ?_ ?_ ?_ fuel
  · exact fun _ _ _ _ h => absurd h (by simp)
  · exact fun _ _ _ _ h => absurd h (by simp)
  · exact fun _ _ _ _ hQ hok => hQ (by simp) fun t ht => hok t (List.mem_cons_of_mem _ ht)
  · exact fun _ _ _ _ _ h => absurd h (by simp)
  · intro fuel token rest atom hopen hclose hatom hok e rest' h
    obtain ⟨rfl, -⟩ := Prod.mk.inj (Except.ok.inj h)
    exact within_atom hatom (hok token List.mem_cons_self hopen hclose)
  · exact fun _ _ _ _ _ _ _ _ _ _ h => absurd h (by simp)
  · exact fun _ _ _ _ _ _ h => absurd h (by simp)
  · exact fun _ _ _ _ _ _ h => absurd h (by simp)
  · intro fuel res rest hres _ e rest' h
    obtain ⟨rfl, -⟩ := Prod.mk.inj (Except.ok.inj h)
    exact .list hres
  · exact fun _ _ _ _ _ _ _ _ _ _ _ _ h => absurd h (by simp)
  · intro fuel res token rest exp newXs r _ hparse hP _ hQ hres hok
    have hrest := ((consumes_reading text fuel).1 (token :: rest) exp newXs hparse).2
    refine hQ (fun e he => ?_) fun t ht => hok t (hrest t ht)
    rcases List.mem_append.mp he with he | he
    · exact hres e he
    · exact List.mem_singleton.mp he ▸ hP hok exp newXs rfl

/-- The symbols of a statement are readable names. -/
lemma within_of_parse {text : FloatText F} {s : Str} {e : RispExp F} {rest : List Str}
    (hs : ';' ∉ s) (h : parse text (tokenize s) = .ok (e, rest)) : Within (Readable text) e :=
  (readsWithin_reading _ text _).1 _
    (fun _ ht hopen hclose hsymbol => readable_of_token hs ht hopen hclose hsymbol) e rest h

/-! ### The invariant -/

/-- Every value of an environment has lambdas with admitted symbols only. -/
def CarriesEnv (ok : Str → Prop) (env : Env F) : Prop := ∀ p ∈ env, Carries ok p.2

/-- All lambdas have admitted symbols only, and so has all that was evaluated. -/
structure SymbolsInv (ok : Str → Prop) (s : Session F W) : Prop where
  env : CarriesEnv ok s.env
  calls : ∀ e ∈ s.calls, Within ok e

lemma carriesEnv_of_call {s : Session F W} {env : Env F} {paramsExp bodyExp : RispExp F}
    {capturedEnv : Env F} {args : List (RispExp F)} (hs : SymbolsInv ok s)
    (hlambda : Carries ok (.lambda paramsExp bodyExp capturedEnv))
    (hargs : ∀ v ∈ args, Carries ok v)
    (h : envForLambda paramsExp args (Assoc.insertAll s.env capturedEnv) = .ok env) :
    CarriesEnv ok env := by
  cases hlambda with
  | lambda hbody henv =>
      exact forall_mem_envForLambda (forall_mem_insertAll hs.env henv) hargs h

/-- Only admitted symbols are evaluated. -/
def symbolsDiscipline (host : Host F W) (ok : Str → Prop) : Discipline host where
  code := Within ok
  val := Carries ok
  inv := SymbolsInv ok
  bodyEnv := CarriesEnv ok
  code_elem hl he := within_list.mp hl _ he
  val_of_code := Within.carries
  val_bool := .bool
  val_number := .number
  val_string := .string
  val_syscall := .syscall
  val_list := ⟨fun h => by cases h with | list h => exact h, .list⟩
  val_map := ⟨fun h => by cases h with | map h => exact h, .map⟩
  val_lookup hs hv := hs.env _ (Assoc.mem_of_lookup hv)
  val_fn hs hcode := .lambda (within_list.mp hcode _ (by simp)) hs.env
  inv_call hs he := ⟨hs.env, List.forall_mem_cons.mpr ⟨he, hs.calls⟩⟩
  inv_world _ hs := ⟨hs.env, hs.calls⟩
  inv_insert hs _ _ _ hv := ⟨forall_mem_insert hs.env _ hv, hs.calls⟩
  bodyEnv_of_call := carriesEnv_of_call
  inv_body {env _ bodyExp _ _} henv hlambda hev := by
    intro s hs
    cases hlambda with
    | lambda hbody hcaptured =>
        obtain ⟨hinv, hval⟩ := hev bodyExp hbody { s with env := env } ⟨henv, hs.calls⟩
        exact ⟨⟨hs.env, hinv.calls⟩, hval⟩

/-! ### Whole programs -/

variable (host : Host F W) (fuel : ℕ)

lemma notMem_of_mem_splitOn {code piece : Str} (h : piece ∈ code.splitOn ';') : ';' ∉ piece := by
  induction code generalizing piece with
  | nil =>
      obtain rfl : piece = [] := by simpa using h
      simp
  | cons c code ih =>
      rw [splitOn_cons] at h
      split_ifs at h with hc
      · rcases List.mem_cons.mp h with rfl | h
        · simp
        · exact ih h
      · cases hcode : code.splitOn ';' with
        | nil => exact absurd h (by simp [hcode])
        | cons first rest =>
            rw [hcode] at h ih
            rcases List.mem_cons.mp h with rfl | h
            · simp [Ne.symm hc, ih List.mem_cons_self]
            · exact ih (List.mem_cons_of_mem _ h)

lemma symbols_parseEval {expr : Str} (hexpr : ';' ∉ expr) :
    Ensures (SymbolsInv (Readable host.ops.toFloatText)) (parseEval host fuel expr)
      (Carries (Readable host.ops.toFloatText)) := by
  refine (ensures_modify fun s hs => ⟨hs.env, hs.calls⟩).bind fun _ _ => ?_
  split
  · exact ensures_throw
  · rename_i hparse
    exact (symbolsDiscipline host _).ensures_eval fuel (within_of_parse hexpr hparse)

lemma symbols_runProgram (code : Str) :
    Ensures (SymbolsInv (Readable host.ops.toFloatText)) (runProgram host fuel code)
      fun _ => True := by
  refine ensures_runProgram host fuel fun piece hpiece => symbols_parseEval host fuel ?_
  exact notMem_of_mem_splitOn (List.mem_of_mem_dropLast hpiece)

/-- In every run of a program, only readable names are mentioned in what is evaluated. -/
theorem calls_readable (expr : List Str) (env : Env F) (world : W) (texts : List Str) :
    ∀ e ∈ ((interpret host fuel expr).exec ⟨env, world, texts, []⟩).2.calls,
      Within (Readable host.ops.toFloatText) e := by
  rw [interpret.eq_def]
  split
  · rename_i name code args
    have hprelude : Ensures _ (parseEval host fuel preludeText) _ :=
      symbols_parseEval host fuel (by decide)
    have hprogram := (ensures_dropResult hprelude).bind fun _ _ => symbols_runProgram host fuel code
    rw [exec_runPrelude_bind]
    exact (hprogram ⟨initialEnv host args, world, texts, []⟩
      ⟨forall_initialEnv .func .symbol .number .bool (.list (by simp)) args, by simp⟩).1.calls
  · simp

end Symbols

end SilOS.Risp
