/-
# The table of commands

`COMMANDS` of `src/commands.rs` holds the functions that `init_cmds` enters at boot, and the
closures that `bind` enters later, under names that the user chooses.  `interpret` reads the names
of the table into the environment of every program, over the built-in functions.  So a bound
command can take the place of a built-in function, and every name that a program can mention becomes
a value where it was an error before.
-/
import SilOS.Risp.Seeding
import SilOS.Shell.Files

namespace SilOS

open Lib Comp Risp

/-- The functions of `src/commands.rs` that `init_cmds` enters. -/
inductive Handler where
  | pong | clear | history | echo | parseCmd | bind | read | write | readAsString | formatDisk
  | makeFile | catFile | runFile | edit | runEdit | quit
deriving DecidableEq

/-- A value of `COMMANDS`: one of these functions, or the closure of `bind` with its source. -/
inductive CommandFn where
  | handler (f : Handler)
  | wrapper (lispCode : Str)
deriving DecidableEq

/-- `COMMANDS`. -/
abbrev Commands := List (Str × CommandFn)

namespace Commands

/-- The entries of `init_cmds`, in the order of the source. -/
def initEntries : Commands :=
  [(['p', 'o', 'n', 'g'], .handler .pong),
   (['c', 'l', 'e', 'a', 'r'], .handler .clear),
   (['h', 'i', 's', 't', 'o', 'r', 'y'], .handler .history),
   (['e', 'c', 'h', 'o'], .handler .echo),
   (['p', 'a', 'r', 's', 'e'], .handler .parseCmd),
   (['b', 'i', 'n', 'd'], .handler .bind),
   (['r', 'e', 'a', 'd'], .handler .read),
   (['w', 'r', 'i', 't', 'e'], .handler .write),
   (['s', 'h', 'o', 'w'], .handler .readAsString),
   (['f', 'o', 'r', 'm', 'a', 't', 'd'], .handler .formatDisk),
   (['m', 'k', 'd', 'i', 'r'], .handler .makeFile),
   (['c', 'a', 't'], .handler .catFile),
   (['r', 'u', 'n'], .handler .runFile),
   (['e', 'd', 'i', 't'], .handler .edit),
   (['e', 'd', 'e', 'n'], .handler .runEdit),
   (['q', 'u', 'i', 't'], .handler .quit)]

/-- `init_cmds`. -/
def initCmds : Commands := Assoc.insertAll [] initEntries

/-- `get_command_list`. -/
def getCommandList (c : Commands) : List Str := c.map Prod.fst

/-- `bind`, run on its arguments. -/
def bind (args : List Str) (c : Commands) : Except ProcessError Success × Commands :=
  match args with
  | _ :: commandName :: _ :: _ =>
      (.ok ⟨"Bound successfully", false⟩,
        Assoc.insert commandName (.wrapper (joinFrom args 2)) c)
  | _ => (.error ⟨"invalid number of args"⟩, c)

/-- The table after `bind` was run on lists of arguments one after the other. -/
def bindAll (binds : List (List Str)) : Commands :=
  binds.foldl (fun c args => (bind args c).2) initCmds

/-- One of the runs of `bind` enters a command under this name. -/
def Bound (binds : List (List Str)) (k : Str) : Prop :=
  ∃ args ∈ binds, 3 ≤ args.length ∧ args[1]? = some k

/-! ### The names in the table -/

/-- `bind` enters a program under its second argument, if it has enough arguments. -/
lemma bind_cases (args : List Str) (c : Commands) :
    ¬ 3 ≤ args.length ∧ (bind args c).2 = c ∨
      ∃ k, 3 ≤ args.length ∧ args[1]? = some k ∧
        (bind args c).2 = Assoc.insert k (.wrapper (joinFrom args 2)) c := by
  rcases args with _ | ⟨_, _ | ⟨k, _ | ⟨_, _⟩⟩⟩
  · exact Or.inl ⟨by simp, rfl⟩
  · exact Or.inl ⟨by simp, rfl⟩
  · exact Or.inl ⟨by simp, rfl⟩
  · exact Or.inr ⟨k, by simp, rfl, rfl⟩

lemma mem_getCommandList_bind (args : List Str) (c : Commands) (k : Str) :
    k ∈ getCommandList (bind args c).2 ↔
      k ∈ getCommandList c ∨ 3 ≤ args.length ∧ args[1]? = some k := by
  rcases bind_cases args c with ⟨hlen, hbind⟩ | ⟨name, hlen, hname, hbind⟩
  · simp [hbind, hlen]
  · rw [hbind, hname, getCommandList, getCommandList, Assoc.mem_map_fst_insert]
    simp [hlen, eq_comm, or_comm]

/-- What stands in the table after `bind`. -/
lemma lookup_bind (args : List Str) (c : Commands) (k : Str) :
    (bind args c).2.lookup k =
      if 3 ≤ args.length ∧ args[1]? = some k then some (.wrapper (joinFrom args 2))
      else c.lookup k := by
  rcases bind_cases args c with ⟨hlen, hbind⟩ | ⟨name, hlen, hname, hbind⟩
  · simp [hbind, hlen]
  · rw [hbind, hname]
    by_cases hk : k = name
    · simp [hk, hlen]
    · simp [Assoc.lookup_insert_of_ne hk, Ne.symm hk]

lemma mem_getCommandList_bindAll (binds : List (List Str)) (k : Str) :
    k ∈ getCommandList (bindAll binds) ↔ k ∈ getCommandList initCmds ∨ Bound binds k := by
  rw [bindAll]
  generalize initCmds = c
  induction binds generalizing c with
  | nil => simp [Bound]
  | cons args binds ih =>
      rw [List.foldl_cons, ih, mem_getCommandList_bind, or_assoc]
      simp [Bound]

/-- A name stands for what it stood for at first, or for a program that `bind` was given with it. -/
lemma lookup_bindAll (binds : List (List Str)) (k : Str) :
    (bindAll binds).lookup k = initCmds.lookup k ∨
      ∃ args ∈ binds, 3 ≤ args.length ∧ args[1]? = some k ∧
        (bindAll binds).lookup k = some (.wrapper (joinFrom args 2)) := by
  rw [bindAll]
  generalize initCmds = c
  induction binds generalizing c with
  | nil => exact Or.inl rfl
  | cons args binds ih =>
      rw [List.foldl_cons]
      rcases ih (bind args c).2 with hsame | ⟨args', hargs', hbound⟩
      · rw [hsame, lookup_bind]
        by_cases hk : 3 ≤ args.length ∧ args[1]? = some k
        · exact Or.inr ⟨args, by simp, hk.1, hk.2, if_pos hk⟩
        · exact Or.inl (if_neg hk)
      · exact Or.inr ⟨args', by simp [hargs'], hbound⟩

/-- No name gets lost. -/
lemma isSome_lookup_bindAll (binds : List (List Str)) {k : Str}
    (hk : k ∈ getCommandList initCmds) : ((bindAll binds).lookup k).isSome := by
  rcases lookup_bindAll binds k with hsame | ⟨args, -, -, -, hbound⟩
  · rw [hsame]
    obtain ⟨entry, hentry, rfl⟩ := List.mem_map.mp hk
    by_contra hnone
    rw [Option.not_isSome_iff_eq_none, List.lookup_eq_none_iff] at hnone
    simpa using hnone entry hentry
  · rw [hbound]
    rfl

end Commands

open Commands

section Language

variable {F W : Type} (ops : FloatOps F)
  (runCmd : Commands → List Str → W → Option CommandOutcome × W) (println : String → W → W)

/-- The system that a program runs in when the table of commands is `c`. -/
def hostWith (c : Commands) : Host F W := ⟨ops, runCmd c, println, getCommandList c⟩

lemma ops_hostWith (c : Commands) : (hostWith ops runCmd println c).ops = ops := rfl

lemma commandList_hostWith (c : Commands) :
    (hostWith ops runCmd println c).commandList = getCommandList c := rfl

/-- With the commands `c` every built-in function has its meaning at the start of a program, and a
program that evaluates no `sys` form ends as it does with the initial commands. -/
structure KeepsLanguage (c : Commands) : Prop where
  builtins : ∀ args name v, (defaultEnv ops).lookup name = some v →
    (initialEnv (hostWith ops runCmd println c) args).lookup name = some v
  programs : ∀ fuel expr w,
    (∀ e ∈ ((interpret (hostWith ops runCmd println c) fuel expr).exec ⟨[], w, [], []⟩).2.calls,
      e.isSys = false) →
    ((interpret (hostWith ops runCmd println c) fuel expr).exec ⟨[], w, [], []⟩).1 =
      ((interpret (hostWith ops runCmd println initCmds) fuel expr).exec ⟨[], w, [], []⟩).1

/-- A name that is no built-in function, and that programs cannot tell from the initial table: it is
in that table, or it is bound anyway, or no program can mention it. -/
def Harmless (k : Str) : Prop :=
  (defaultEnv ops).lookup k = none ∧
    (k ∈ getCommandList initCmds ∨ k ∈ seededNames ∨ k = ['e', 'r', 'r', 'o', 'r'] ∨
      ¬ Readable ops.toFloatText k)

/-! ### The names of the built-in functions -/

/-- The names that `default_env` binds. -/
def builtinNames : List Str :=
  [['[', ']'], ['+'], ['-'], ['='], ['!', '='], ['>'], ['>', '='], ['<'], ['<', '='], ['*'], ['/'],
   ['&'], ['l', 'i', 's', 't'], ['l', 'e', 'n'], ['!', '!'], ['m', 'a', 'p'],
   ['m', 'k', 'e', 'y', 's']]

lemma lookup_defaultEnv_eq_none_iff {k : Str} :
    (defaultEnv ops).lookup k = none ↔ k ∉ builtinNames := by
  rw [lookup_eq_none_iff, defaultEnv, Assoc.mem_map_fst_insert, Assoc.mem_map_fst_insertAll,
    builtinNames, List.mem_cons, List.map_nil, List.mem_nil_iff, false_or]
  rfl

lemma mem_getCommandList_initCmds {k : Str} :
    k ∈ getCommandList initCmds ↔ k ∈ initEntries.map Prod.fst := by
  rw [getCommandList, initCmds, Assoc.mem_map_fst_insertAll]
  simp

lemma lookup_defaultEnv_of_initial {k : Str} (hk : k ∈ getCommandList initCmds) :
    (defaultEnv ops).lookup k = none := by
  rw [lookup_defaultEnv_eq_none_iff]
  rw [mem_getCommandList_initCmds] at hk
  revert k
  decide

/-- The numbered arguments have names that begin with `n` or `b`. -/
lemma head_of_mem_argEntries {k : Str} {args : List Str} {bCount nCount : ℕ}
    (hk : k ∈ (argEntries ops bCount nCount args).map Prod.fst) :
    k.head? = some 'n' ∨ k.head? = some 'b' := by
  induction args generalizing bCount nCount with
  | nil => exact absurd hk (by simp [argEntries])
  | cons arg args ih =>
      rw [argEntries] at hk
      split_ifs at hk
      · rcases List.mem_cons.mp hk with rfl | hk
        · exact Or.inr rfl
        · exact ih hk
      · split at hk
        · rcases List.mem_cons.mp hk with rfl | hk
          · exact Or.inl rfl
          · exact ih hk
        · exact ih hk

lemma head_of_mem_numbered {k : Str} {args : List Str}
    (hk : k ∈ (numbered ops args).map Prod.fst) : k.head? = some 'n' ∨ k.head? = some 'b' := by
  rw [numbered, List.map_append, List.mem_append] at hk
  rcases hk with hk | hk
  · simp only [List.map_cons, List.map_nil, List.mem_cons, List.not_mem_nil, or_false] at hk
    rcases hk with rfl | rfl | rfl | rfl
    · exact Or.inl rfl
    · exact Or.inr rfl
    · exact Or.inl rfl
    · exact Or.inr rfl
  · exact head_of_mem_argEntries ops hk

lemma head_of_mem_builtinNames {k : Str} (hk : k ∈ builtinNames) :
    ¬ (k.head? = some 'n' ∨ k.head? = some 'b') := by
  revert k
  decide

/-- A built-in function keeps its meaning if no command has its name. -/
lemma lookup_initialEnv_builtin (host : Host F W) (args : List Str) {name : Str} {v : RispExp F}
    (hv : (defaultEnv host.ops).lookup name = some v) :
    (initialEnv host args).lookup name =
      some (if name ∈ host.commandList then .symbol name else v) := by
  have hname : name ∈ builtinNames := by
    by_contra h
    rw [(lookup_defaultEnv_eq_none_iff host.ops).mpr h] at hv
    exact absurd hv (by simp)
  have hnumbered : (numbered host.ops args).reverse.lookup name = none := by
    rw [lookup_eq_none_iff, List.map_reverse, List.mem_reverse]
    exact fun hmem => head_of_mem_builtinNames hname (head_of_mem_numbered host.ops hmem)
  rw [lookup_initialEnv, hnumbered, Option.none_or, hv]
  split_ifs <;> rfl

/-- No built-in function is a symbol. -/
lemma ne_symbol_of_builtin {name k : Str} {v : RispExp F}
    (hv : (defaultEnv ops).lookup name = some v) : v ≠ .symbol k := by
  have hall := forall_defaultEnv (P := fun v => ∀ k, v ≠ .symbol k) (by simp) (by simp) ops
  exact hall _ (Assoc.mem_of_lookup hv) k

/-- After `bind` has entered a name that a program can mention and that had no meaning before, the
program that mentions it ends differently. -/
lemma mention_tells_apart {host host' : Host F W} (hops : host'.ops = host.ops)
    (hwords : ∀ t ∈ tokenize preludeText, host.ops.parse t = none) {k : Str}
    (hreadable : Readable host.ops.toFloatText k) (herror : k ≠ ['e', 'r', 'r', 'o', 'r'])
    (hmeans : ((initialEnv host []).lookup k).isSome)
    (hnothing : (initialEnv host' []).lookup k = none) (w : W) :
    (∀ e ∈ ((interpret host 2 [[], k ++ [';']]).exec ⟨[], w, [], []⟩).2.calls, e.isSys = false) ∧
    ((interpret host 2 [[], k ++ [';']]).exec ⟨[], w, [], []⟩).1 ≠
      ((interpret host' 2 [[], k ++ [';']]).exec ⟨[], w, [], []⟩).1 := by
  have hwords' : ∀ t ∈ tokenize preludeText, host'.ops.parse t = none := by rwa [hops]
  have hreadable' : Readable host'.ops.toFloatText k := by rwa [hops]
  rw [exec_interpret [] hwords 0, exec_interpret [] hwords' 0, exec_mention hreadable,
    exec_mention hreadable', lookup_afterPrelude host [] herror,
    lookup_afterPrelude host' [] herror, if_pos hmeans, hnothing]
  refine ⟨?_, by simp⟩
  intro e he
  simp only [afterPrelude, List.mem_cons, List.not_mem_nil, or_false] at he
  rcases he with rfl | rfl | rfl <;> rfl

/-- Names without harm leave the language as it is. -/
lemma keepsLanguage_of_harmless (hwords : ∀ t ∈ tokenize preludeText, ops.parse t = none)
    {binds : List (List Str)} (h : ∀ k, Bound binds k → Harmless ops k) :
    KeepsLanguage ops runCmd println (bindAll binds) := by
  have hmem := mem_getCommandList_bindAll binds
  refine ⟨fun args name v hv => ?_, fun fuel expr w hsys => ?_⟩
  · have hname : name ∉ getCommandList (bindAll binds) := by
      intro hcommand
      have hnone : (defaultEnv ops).lookup name = none :=
        ((hmem name).mp hcommand).elim (lookup_defaultEnv_of_initial ops) fun hk => (h name hk).1
      rw [hnone] at hv
      exact absurd hv (by simp)
    rw [lookup_initialEnv_builtin (hostWith ops runCmd println (bindAll binds)) args hv,
      commandList_hostWith, if_neg hname]
  · refine interpret_same_result (ops_hostWith ops runCmd println initCmds) hwords (fun k hk => ?_)
      (fun k hk => ?_) fuel expr w hsys
    · rw [commandList_hostWith] at hk ⊢
      exact (hmem k).mpr (Or.inl hk)
    · rw [commandList_hostWith] at hk ⊢
      exact ((hmem k).mp hk).elim Or.inl fun hk => (h k hk).2

/-- A bound name with the name of a built-in function takes its place. -/
lemma lookup_defaultEnv_of_keepsLanguage {c : Commands} (h : KeepsLanguage ops runCmd println c)
    {k : Str} (hk : k ∈ getCommandList c) : (defaultEnv ops).lookup k = none := by
  cases hv : (defaultEnv ops).lookup k with
  | none => rfl
  | some v =>
      have hstart := h.builtins [] k v hv
      rw [lookup_initialEnv_builtin (hostWith ops runCmd println c) [] hv, commandList_hostWith,
        if_pos hk, Option.some.injEq] at hstart
      exact absurd hstart.symm (ne_symbol_of_builtin ops hv)

/-- Without arguments, a name that no program has of its own means a command or a built-in
function. -/
lemma lookup_initialEnv_nil {host : Host F W} {k : Str} (hk : k ∉ seededNames) :
    (initialEnv host []).lookup k =
      if k ∈ host.commandList then some (.symbol k) else (defaultEnv host.ops).lookup k := by
  have hnumbered : (numbered host.ops []).reverse.lookup k = none := by
    rw [lookup_eq_none_iff, List.map_reverse, List.mem_reverse]
    exact hk
  rw [lookup_initialEnv, hnumbered, Option.none_or]

variable [Inhabited W]

/-- **Bound commands and the language.**  After any number of runs of `bind`, with any names and any
code, every program starts with the built-in functions under their names and ends, if it makes no
system call, as with the initial commands, exactly if each bound name is harmless. -/
theorem bind_keeps_language_iff (hwords : ∀ t ∈ tokenize preludeText, ops.parse t = none)
    (binds : List (List Str)) :
    KeepsLanguage ops runCmd println (bindAll binds) ↔ ∀ k, Bound binds k → Harmless ops k := by
  refine ⟨fun h k hk => ?_, keepsLanguage_of_harmless ops runCmd println hwords⟩
  have hcommand : k ∈ getCommandList (bindAll binds) :=
    (mem_getCommandList_bindAll binds k).mpr (Or.inr hk)
  have hbuiltin := lookup_defaultEnv_of_keepsLanguage ops runCmd println h hcommand
  refine ⟨hbuiltin, ?_⟩
  by_contra hnew
  simp only [not_or, not_not] at hnew
  obtain ⟨hinit, hseeded, herror, hreadable⟩ := hnew
  -- the program that mentions the name fails with the initial commands only
  have hmeans :
      ((initialEnv (hostWith ops runCmd println (bindAll binds)) []).lookup k).isSome := by
    rw [lookup_initialEnv_nil hseeded, commandList_hostWith, if_pos hcommand]
    rfl
  have hnothing : (initialEnv (hostWith ops runCmd println initCmds) []).lookup k = none := by
    rw [lookup_initialEnv_nil hseeded, commandList_hostWith, if_neg hinit, ops_hostWith]
    exact hbuiltin
  have hops : (hostWith ops runCmd println initCmds).ops =
      (hostWith ops runCmd println (bindAll binds)).ops := by
    rw [ops_hostWith, ops_hostWith]
  obtain ⟨hsys, hdiffer⟩ :=
    mention_tells_apart hops hwords hreadable herror hmeans hnothing default
  exact hdiffer (h.programs 2 _ default hsys)

end Language

/-! ### Two runs of `bind` -/

/-- A system in which no command returns, with arithmetic on one digit. -/
def digitHost (c : Commands) : Host (Fin 10) Unit :=
  hostWith digitOps (fun _ _ w => (none, w)) (fun _ w => w) c

/-- `bind echo (quit)` -/
def bindEcho : List (List Str) :=
  [[['b', 'i', 'n', 'd'], ['e', 'c', 'h', 'o'], ['(', 'q', 'u', 'i', 't', ')']]]

/-- `bind + 1` -/
def bindPlus : List (List Str) := [[['b', 'i', 'n', 'd'], ['+'], ['1']]]

/-- Another command under the name `echo` does not change the language. -/
theorem bind_keeps_language_iff_echo :
    (∀ t ∈ tokenize preludeText, digitOps.parse t = none) ∧
    KeepsLanguage digitOps (fun _ _ w => (none, w)) (fun _ (w : Unit) => w)
      (bindAll bindEcho) := by
  have hwords : ∀ t ∈ tokenize preludeText, digitOps.parse t = none := by decide
  refine ⟨hwords, (bind_keeps_language_iff digitOps _ _ hwords bindEcho).mpr ?_⟩
  rintro k ⟨args, hargs, -, hk⟩
  obtain rfl := List.mem_singleton.mp hargs
  obtain rfl : ['e', 'c', 'h', 'o'] = k := Option.some.inj hk
  have hinit : ['e', 'c', 'h', 'o'] ∈ getCommandList initCmds :=
    mem_getCommandList_initCmds.mpr (by decide)
  exact ⟨lookup_defaultEnv_of_initial digitOps hinit, Or.inl hinit⟩

/-- After `bind + 1`, `(+ 1 2);` no longer is a sum. -/
theorem bind_replaces_plus :
    ((interpret (digitHost (bindAll bindPlus)) 4
      [[], ['(', '+', ' ', '1', ' ', '2', ')', ';']]).exec ⟨[], (), [], []⟩).1 =
        .ok (.error ⟨"first form must be a function"⟩) ∧
    ((interpret (digitHost initCmds) 4
      [[], ['(', '+', ' ', '1', ' ', '2', ')', ';']]).exec ⟨[], (), [], []⟩).1 =
        .ok (.ok ⟨"worked", false⟩) ∧
    ¬ KeepsLanguage digitOps (fun _ _ w => (none, w)) (fun _ (w : Unit) => w)
      (bindAll bindPlus) := by
  have hbound : ((interpret (digitHost (bindAll bindPlus)) 4
      [[], ['(', '+', ' ', '1', ' ', '2', ')', ';']]).exec ⟨[], (), [], []⟩).1 =
        .ok (.error ⟨"first form must be a function"⟩) := by decide +kernel
  have hinitial : ((interpret (digitHost initCmds) 4
      [[], ['(', '+', ' ', '1', ' ', '2', ')', ';']]).exec ⟨[], (), [], []⟩).1 =
        .ok (.ok ⟨"worked", false⟩) := by decide +kernel
  refine ⟨hbound, hinitial, fun h => ?_⟩
  have hsame := h.programs 4 [[], ['(', '+', ' ', '1', ' ', '2', ')', ';']] () (by decide +kernel)
  exact absurd (hbound.symm.trans (hsame.trans hinitial)) (by simp)

end SilOS
