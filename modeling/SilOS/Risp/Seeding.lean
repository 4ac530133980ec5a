/-
# What a program starts with

`interpret` fills the environment in three layers: the built-in functions, the names of the
commands as symbols, and the numbered arguments.  A later layer is written over an earlier one.
Then a first statement binds `error` to a handler.  So a name in the list of commands is seen by a
program unless an argument or the handler takes its place, or no program can mention it.
-/
import SilOS.Risp.Recursion
import SilOS.Risp.TwoRuns

namespace SilOS.Risp

open Lib Comp Coupling

section Seeding

variable {F W : Type}

/-! ### The three layers -/

/-- The entries of the arguments of the program. -/
def argEntries (ops : FloatOps F) (bCount nCount : ℕ) : List Str → Env F
  | [] => []
  | arg :: args =>
      if arg = boolText true ∨ arg = boolText false then
        (argName 'b' bCount, .bool (arg = boolText true)) ::
          argEntries ops (bCount + 1) nCount args
      else
        match ops.parse arg with
        | some val => (argName 'n' nCount, .number val) :: argEntries ops bCount (nCount + 1) args
        | none => argEntries ops bCount nCount args

/-- The names that are bound in every program, whatever its arguments. -/
def seededNames : List Str := [argName 'n' 0, argName 'b' 0, argName 'n' 1, argName 'b' 1]

/-- The layer of the numbered arguments, those that every program has first. -/
def numbered (ops : FloatOps F) (args : List Str) : Env F :=
  [(argName 'n' 0, .number ops.zero), (argName 'b' 0, .bool false),
   (argName 'n' 1, .number ops.zero), (argName 'b' 1, .bool false)] ++ argEntries ops 0 0 args

variable (host : Host F W) (args : List Str)

lemma bindArgs_eq (bCount nCount : ℕ) (env : Env F) :
    bindArgs host bCount nCount env args =
      Assoc.insertAll env (argEntries host.ops bCount nCount args) := by
  induction args generalizing bCount nCount env with
  | nil => rfl
  | cons arg args ih =>
      rw [bindArgs, argEntries]
      split_ifs
      · exact ih _ _ _
      · cases host.ops.parse arg with
        | some val => exact ih _ _ _
        | none => exact ih _ _ _

lemma initialEnv_eq :
    initialEnv host args = Assoc.insertAll (Assoc.insertAll (defaultEnv host.ops)
      (host.commandList.map fun call => (call, .symbol call))) (numbered host.ops args) := by
  rw [initialEnv, bindArgs_eq, numbered, Assoc.insertAll, Assoc.insertAll, Assoc.insertAll,
    Assoc.insertAll, List.foldl_append]

lemma sorted_initialEnv : Assoc.Sorted (initialEnv host args) := by
  have hnil : Assoc.Sorted ([] : Env F) := List.Pairwise.nil
  rw [initialEnv_eq]
  exact (((hnil.insertAll _).insert _ _).insertAll _).insertAll _

lemma lookup_commandSymbols (names : List Str) (env : Env F) (k : Str) :
    (Assoc.insertAll env (names.map fun call => (call, .symbol call))).lookup k =
      if k ∈ names then some (.symbol k) else env.lookup k := by
  by_cases hk : k ∈ names
  · have hmem : k ∈ (names.map fun call => (call, (.symbol call : RispExp F))).map Prod.fst := by
      simpa using hk
    obtain ⟨v, hv, hlookup⟩ := Assoc.exists_lookup_insertAll (m := env) hmem
    obtain ⟨call, -, hcall⟩ := List.mem_map.mp hv
    obtain ⟨rfl, rfl⟩ := Prod.mk.inj hcall
    rw [hlookup, if_pos hk]
  · rw [if_neg hk]
    exact Assoc.lookup_insertAll_of_notMem (by simpa using hk)

/-- What a name means at the start of a program. -/
lemma lookup_initialEnv (k : Str) :
    (initialEnv host args).lookup k = ((numbered host.ops args).reverse.lookup k).or
      (if k ∈ host.commandList then some (.symbol k) else (defaultEnv host.ops).lookup k) := by
  rw [initialEnv_eq, Assoc.lookup_insertAll, lookup_commandSymbols]

/-! ### The handler -/

/-- `(sys echo s)` -/
def handlerBody : RispExp F :=
  .list [.symbol ['s', 'y', 's'], .symbol ['e', 'c', 'h', 'o'], .symbol ['s']]

/-- `(fn (s) (sys echo s))` -/
def handlerForm : RispExp F :=
  .list [.symbol ['f', 'n'], .list [.symbol ['s']], handlerBody]

/-- `(def error (fn (s) (sys echo s)))` -/
def preludeForm : RispExp F :=
  .list [.symbol ['d', 'e', 'f'], .symbol ['e', 'r', 'r', 'o', 'r'], handlerForm]

/-- The state after the first statement. -/
def afterPrelude (args : List Str) (w : W) : Session F W :=
  ⟨Assoc.insert ['e', 'r', 'r', 'o', 'r']
      (.lambda (.list [.symbol ['s']]) handlerBody (initialEnv host args)) (initialEnv host args),
    w, [preludeText], [handlerForm, preludeForm]⟩

lemma lookup_afterPrelude_error (w : W) :
    (afterPrelude host args w).env.lookup ['e', 'r', 'r', 'o', 'r'] =
      some (.lambda (.list [.symbol ['s']]) handlerBody (initialEnv host args)) :=
  Assoc.lookup_insert_self _ _ _

lemma lookup_afterPrelude {k : Str} (hk : k ≠ ['e', 'r', 'r', 'o', 'r']) (w : W) :
    (afterPrelude host args w).env.lookup k = (initialEnv host args).lookup k :=
  Assoc.lookup_insert_of_ne hk _ _

variable {host}

lemma parse_preludeText (hwords : ∀ t ∈ tokenize preludeText, host.ops.parse t = none) :
    parse host.ops.toFloatText (tokenize preludeText) = .ok (preludeForm, []) := by
  have htokens : tokenize preludeText = [['('], ['d', 'e', 'f'], ['e', 'r', 'r', 'o', 'r'], ['('],
      ['f', 'n'], ['('], ['s'], [')'], ['('], ['s', 'y', 's'], ['e', 'c', 'h', 'o'], ['s'], [')'],
      [')'], [')']] := by decide
  rw [htokens] at hwords ⊢
  simp only [List.forall_mem_cons] at hwords
  obtain ⟨-, hdef, herror, -, hfn, -, hs, -, -, hsys, hecho, -⟩ := hwords
  simp [parse, parseFrom, readSeqFrom, parseAtom, boolText, hdef, herror, hfn, hs, hsys, hecho,
    preludeForm, handlerForm, handlerBody]

/-- The first statement binds the handler, if the bound on the depth allows it. -/
lemma exec_prelude (hwords : ∀ t ∈ tokenize preludeText, host.ops.parse t = none) (fuel : ℕ)
    (w : W) :
    (dropResult (parseEval host (fuel + 2) preludeText)).exec ⟨initialEnv host args, w, [], []⟩ =
      (.ok .unit, afterPrelude host args w) := by
  have heval : (parseEval host (fuel + 2) preludeText).exec ⟨initialEnv host args, w, [], []⟩ =
      (.ok (.symbol ['e', 'r', 'r', 'o', 'r']), afterPrelude host args w) := by
    rw [parseEval, exec_bind, exec_modify]
    simp only [parse_preludeText hwords]
    rfl
  rw [exec_dropResult, heval]
  rfl

/-- With less depth the program does not get beyond its first statement. -/
lemma exec_prelude_of_lt (hwords : ∀ t ∈ tokenize preludeText, host.ops.parse t = none) {fuel : ℕ}
    (hfuel : fuel < 2) (s : Session F W) :
    ((dropResult (parseEval host fuel preludeText)).exec s).1 = .error (.fault .fuel) := by
  have heval : ((parseEval host fuel preludeText).exec s).1 = .error (.fault .fuel) := by
    rw [parseEval, exec_bind, exec_modify]
    simp only [parse_preludeText hwords]
    interval_cases fuel <;> rfl
  rw [exec_dropResult, heval]
  rfl

/-! ### A program that mentions a name -/

lemma splitOn_append_semicolon {k : Str} (hk : ';' ∉ k) : (k ++ [';']).splitOn ';' = [k, []] := by
  induction k with
  | nil => rfl
  | cons c k ih =>
      rw [List.mem_cons, not_or] at hk
      rw [List.cons_append, splitOn_cons, if_neg (Ne.symm hk.1), ih hk.2]
      rfl

/-- The text that is only a name evaluates to the name's value. -/
lemma exec_parseEval_mention {k : Str} (hk : Readable host.ops.toFloatText k) (fuel : ℕ)
    (s : Session F W) :
    (parseEval host (fuel + 1) k).exec s =
      ((s.env.lookup k).elim
        (.error (.err (.reason ("unexpected symbol k='" ++ String.ofList k ++ "'")))) .ok,
        { s with texts := k :: s.texts, calls := .symbol k :: s.calls }) := by
  rw [parseEval, exec_bind, exec_modify]
  simp only [hk.2]
  rw [eval, exec_bind, exec_modify]
  simp only [evalStep]
  rw [exec_bind, exec_envGet]
  cases s.env.lookup k <;> rfl

/-- The program that only mentions a name: it ends with an error exactly if the name has no
meaning. -/
lemma exec_mention {k : Str} (hk : Readable host.ops.toFloatText k) (fuel : ℕ) (s : Session F W) :
    (runProgram host (fuel + 1) (k ++ [';'])).exec s =
      (.ok (if (s.env.lookup k).isSome then .ok ⟨"worked", false⟩
        else .error ⟨"unexpected symbol k='" ++ String.ofList k ++ "'"⟩),
        { s with texts := k :: s.texts, calls := .symbol k :: s.calls }) := by
  have hstatements : statements (k ++ [';']) = [k] := by
    rw [statements, splitOn_append_semicolon hk.1]
    rfl
  rw [runProgram, hstatements, if_neg (by simp), exec_bind, exec_runStatements_cons,
    exec_parseEval_mention hk]
  cases s.env.lookup k <;> rfl

/-! ### Programs that do not see a difference -/

variable {host' : Host F W}

/-- The names that mean the same with the commands of `host` as with those of `host'`. -/
def shownNames (host host' : Host F W) (args : List Str) (k : Str) : Bool :=
  k ∉ host.commandList || k ∈ host'.commandList || k ∈ (numbered host.ops args).map Prod.fst ||
    k = ['e', 'r', 'r', 'o', 'r']

lemma lookup_initialEnv_eq (hops : host'.ops = host.ops)
    (hcommands : ∀ k ∈ host'.commandList, k ∈ host.commandList) {k : Str}
    (hk : k ≠ ['e', 'r', 'r', 'o', 'r']) (hshown : shownNames host host' args k = true) :
    (initialEnv host' args).lookup k = (initialEnv host args).lookup k := by
  rw [lookup_initialEnv, lookup_initialEnv, hops]
  by_cases hnumbered : k ∈ (numbered host.ops args).map Prod.fst
  · obtain ⟨v, hv⟩ : ∃ v, (numbered host.ops args).reverse.lookup k = some v := by
      rw [← Option.isSome_iff_exists, Option.isSome_iff_ne_none, Ne, lookup_eq_none_iff]
      simpa using hnumbered
    rw [hv, Option.some_or, Option.some_or]
  · have hiff : k ∈ host'.commandList ↔ k ∈ host.commandList := by
      refine ⟨hcommands k, fun hmem => ?_⟩
      simpa [shownNames, hmem, hnumbered, hk] using hshown
    simp only [hiff]

/-- After the first statement the two runs are side by side. -/
lemma matched_afterPrelude (hops : host'.ops = host.ops)
    (hcommands : ∀ k ∈ host'.commandList, k ∈ host.commandList) (w : W) :
    Matched (shownNames host host' args) (afterPrelude host args w)
      (afterPrelude host' args w) := by
  have hsorted := sorted_initialEnv host args
  have hsorted' := sorted_initialEnv host' args
  refine ⟨hsorted.insert _ _, hsorted'.insert _ _, ?_, rfl, rfl, rfl⟩
  refine .of_lookup ((hsorted.insert _ _).restrict _) ((hsorted'.insert _ _).restrict _)
    fun k => ?_
  rw [Assoc.lookup_restrict, Assoc.lookup_restrict]
  split_ifs with hshown
  · by_cases hk : k = ['e', 'r', 'r', 'o', 'r']
    · subst hk
      rw [lookup_afterPrelude_error, lookup_afterPrelude_error]
      exact .some (.sysLambda rfl)
    · rw [lookup_afterPrelude host args hk, lookup_afterPrelude host' args hk,
        lookup_initialEnv_eq args hops hcommands hk hshown]
      cases (initialEnv host args).lookup k with
      | none => exact .none
      | some v => exact .some (.refl v)
  · exact .none

/-- A run with enough depth goes on after the first statement. -/
lemma exec_interpret (hwords : ∀ t ∈ tokenize preludeText, host.ops.parse t = none) (fuel : ℕ)
    (name code : Str) (w : W) :
    (interpret host (fuel + 2) (name :: code :: args)).exec ⟨[], w, [], []⟩ =
      (runProgram host (fuel + 2) code).exec (afterPrelude host args w) := by
  rw [interpret, exec_runPrelude_bind, exec_bind]
  simp only [exec_prelude args hwords]

lemma exec_interpret_of_lt (hwords : ∀ t ∈ tokenize preludeText, host.ops.parse t = none)
    {fuel : ℕ} (hfuel : fuel < 2) (name code : Str) (w : W) :
    ((interpret host fuel (name :: code :: args)).exec ⟨[], w, [], []⟩).1 =
      .error (.fault .fuel) := by
  have hprelude := exec_prelude_of_lt hwords hfuel ⟨initialEnv host args, w, [], []⟩
  rw [interpret, exec_runPrelude_bind, exec_bind]
  rcases h : (dropResult (parseEval host fuel preludeText)).exec ⟨initialEnv host args, w, [], []⟩
    with ⟨e | u, t⟩ <;> rw [h] at hprelude
  · exact congrArg Except.error (Except.error.inj hprelude)
  · exact absurd hprelude (by simp)

/-- A hidden name is a command that no program can mention. -/
lemma shownNames_of_readable (hnew : ∀ k ∈ host.commandList, k ∈ host'.commandList ∨
    k ∈ seededNames ∨ k = ['e', 'r', 'r', 'o', 'r'] ∨ ¬ Readable host.ops.toFloatText k) {k : Str}
    (hk : Readable host.ops.toFloatText k) : shownNames host host' args k = true := by
  by_contra hshown
  simp only [shownNames, Bool.or_eq_true, decide_eq_true_eq, not_or, not_not] at hshown
  obtain ⟨⟨⟨hmem, hmem'⟩, hnumbered⟩, herror⟩ := hshown
  have hseeded : k ∉ seededNames := by
    intro h
    refine hnumbered ?_
    rw [numbered, List.map_append]
    exact List.mem_append_left _ h
  rcases hnew k hmem with h | h | h | h
  · exact hmem' h
  · exact hseeded h
  · exact herror h
  · exact h hk

/-- **Names that no program can mention.**  If the commands of `host` that `host'` does not have are
names that are taken by arguments or the handler, or that no program can mention, then every program
that evaluates no `sys` form ends in the same way with both. -/
theorem interpret_same_result (hops : host'.ops = host.ops)
    (hwords : ∀ t ∈ tokenize preludeText, host.ops.parse t = none)
    (hcommands : ∀ k ∈ host'.commandList, k ∈ host.commandList)
    (hnew : ∀ k ∈ host.commandList, k ∈ host'.commandList ∨ k ∈ seededNames ∨
      k = ['e', 'r', 'r', 'o', 'r'] ∨ ¬ Readable host.ops.toFloatText k)
    (fuel : ℕ) (expr : List Str) (w : W)
    (hsys : ∀ e ∈ ((interpret host fuel expr).exec ⟨[], w, [], []⟩).2.calls, e.isSys = false) :
    ((interpret host fuel expr).exec ⟨[], w, [], []⟩).1 =
      ((interpret host' fuel expr).exec ⟨[], w, [], []⟩).1 := by
  have hreadable := calls_readable host fuel expr [] w []
  have hwords' : ∀ t ∈ tokenize preludeText, host'.ops.parse t = none := by rwa [hops]
  rcases expr with _ | ⟨name, _ | ⟨code, args⟩⟩
  · rfl
  · rfl
  by_cases hfuel : fuel < 2
  · rw [exec_interpret_of_lt args hwords hfuel, exec_interpret_of_lt args hwords' hfuel]
  obtain ⟨fuel, rfl⟩ : ∃ n, fuel = n + 2 := ⟨fuel - 2, by omega⟩
  rw [exec_interpret args hwords] at hsys hreadable ⊢
  rw [exec_interpret args hwords']
  have hagree : (sideBySide (shownNames host host' args)).Agree (· = ·)
      (runProgram host (fuel + 2) code) (runProgram host' (fuel + 2) code) :=
    agree_runProgram hops (by simp [shownNames]) (fuel + 2) code
  have hmatched := matched_afterPrelude args hops hcommands w
  rcases hagree.rel _ _ hmatched with ⟨e, he, hclean⟩ | ⟨-, hend⟩
  · -- the program mentions only names that can be read
    have hwithin := (hreadable e he).mono fun _ => shownNames_of_readable args hnew
    exact absurd ⟨hsys e he, hwithin⟩ hclean
  · exact hend.eq

end Seeding

end SilOS.Risp
