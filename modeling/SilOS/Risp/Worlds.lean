/-
# The interpreter in two systems

A program reaches the rest of the kernel through `run_cmd` and through what it prints.  So if the
commands of two systems keep a relation between their states and end in the same way, then a program
that is run in both ends in the same way and leaves related states (`HostSim.same_interpret`).  As
in every coupling, the first system has states about which nothing more is said.

An invariant of the commands is the case of one system next to itself (`keeps_interpret`).  That a
program without `sys` reaches no system (`world_of_noSys`) is seen from two systems side by side:
the run is the same whether the commands act on the left one or on the right one.
-/
import SilOS.Risp.Relations

namespace SilOS.Risp

open Lib Comp Coupling

/-- A relation between the states of two systems that their commands keep. -/
structure HostSim {F W W' : Type} (host : Host F W) (host' : Host F W') where
  rel : W → W' → Prop
  /-- The states of the first system that are out of consideration. -/
  gone : W → Prop
  ops : host'.ops = host.ops
  commandList : host'.commandList = host.commandList
  runCmd : ∀ cmd {w w'}, rel w w' → gone (host.runCmd cmd w).2 ∨
    rel (host.runCmd cmd w).2 (host'.runCmd cmd w').2 ∧
      (host.runCmd cmd w).1 = (host'.runCmd cmd w').1
  println : ∀ text {w w'}, rel w w' → rel (host.println text w) (host'.println text w')
  gone_runCmd : ∀ cmd {w}, gone w → gone (host.runCmd cmd w).2
  gone_println : ∀ text {w}, gone w → gone (host.println text w)

namespace HostSim

variable {F W W' α β : Type} {host : Host F W} {host' : Host F W'} (S : HostSim host host')

/-- The states of two runs: the environment and the log of evaluations are the same, the systems
are related. -/
structure Alongside (s : Session F W) (s' : Session F W') : Prop where
  env : s'.env = s.env
  calls : s'.calls = s.calls
  world : S.rel s.world s'.world

/-- The coupling of the two runs. -/
def coupling : Coupling (Session F W) (Session F W') where
  rel := S.Alongside
  gone s := S.gone s.world

/-- The two programs end in the same way. -/
abbrev Same (m : Eval F W α) (m' : Eval F W' α) : Prop := S.coupling.Agree (· = ·) m m'

/-! ### Primitive steps -/

section Steps

variable {S} {m : Eval F W α} {m' : Eval F W' α} {f : α → Eval F W β} {f' : α → Eval F W' β}

lemma same_bind (hm : S.Same m m') (hf : ∀ a, S.Same (f a) (f' a)) :
    S.Same (m >>= f) (m' >>= f') := by
  refine hm.bind (fun a => ⟨a, rfl⟩) fun a b hab => ?_
  subst hab
  exact hf a

lemma same_get_env {f : Env F → Eval F W α} {f' : Env F → Eval F W' α}
    (hf : ∀ env, S.Same (f env) (f' env)) :
    S.Same (get >>= fun s => f s.env) (get >>= fun s => f' s.env) := by
  refine agree_get_bind (fun s => (hf s.env).keeps) fun s s' hs => ?_
  rw [hs.env]
  exact hf s.env

lemma same_inEnv (env : Env F) (h : S.Same m m') : S.Same (inEnv env m) (inEnv env m') := by
  refine ⟨fun s hs => h.keeps { s with env := env } hs, fun s s' hs => ?_⟩
  refine (h.rel { s with env := env } { s' with env := env } ⟨rfl, hs.calls, hs.world⟩).imp id ?_
  exact fun hend => ⟨⟨hs.env, hend.1.calls, hend.1.world⟩, hend.2⟩

lemma same_dropResult (h : S.Same m m') : S.Same (dropResult m) (dropResult m') := by
  refine h.mapEnd (exec_dropResult m) (exec_dropResult m') fun r r' hr => ?_
  obtain rfl := SameEnd.eq hr
  exact .of_eq (fun _ => rfl) rfl

lemma same_attempt (h : S.Same m m') : S.Same (attempt m) (attempt m') := by
  refine h.mapEnd (exec_attempt m) (exec_attempt m') fun r r' hr => ?_
  obtain rfl := SameEnd.eq hr
  exact .of_eq (fun _ => rfl) rfl

/-- A command ends in the same way in both systems. -/
lemma same_runCommand (cmd : List Str) : S.Same (runCommand host cmd) (runCommand host' cmd) := by
  have hend : ∀ (host : Host F W) s, ((runCommand host cmd).exec s).2 =
      { s with world := (host.runCmd cmd s.world).2 } := by
    intro host s
    rw [runCommand, exec_ofRuns]
    rcases host.runCmd cmd s.world with ⟨_ | _, _⟩ <;> rfl
  refine ⟨fun s hs => ?_, fun s s' hs => ?_⟩
  · rw [hend]
    exact S.gone_runCmd cmd hs
  · rcases S.runCmd cmd hs.world with hgone | ⟨hrel, hresult⟩
    · rw [hend]
      exact Or.inl hgone
    · refine Or.inr ?_
      rw [runCommand, runCommand, exec_ofRuns, exec_ofRuns]
      rcases h : host.runCmd cmd s.world with ⟨o, w⟩
      rcases h' : host'.runCmd cmd s'.world with ⟨o', w'⟩
      rw [h, h'] at hrel hresult
      obtain rfl : o = o' := hresult
      cases o with
      | none => exact ⟨⟨hs.env, hs.calls, hrel⟩, rfl⟩
      | some outcome => exact ⟨⟨hs.env, hs.calls, hrel⟩, rfl⟩

lemma same_print (successCode : String) (printCode : Bool) :
    S.Same
      (modify fun s => { s with
        world := if printCode then host.println successCode s.world else s.world })
      (modify fun s => { s with
        world := if printCode then host'.println successCode s.world else s.world }) := by
  cases printCode with
  | false => exact ⟨fun _ hs => hs, fun _ _ hs => Or.inr ⟨hs, rfl⟩⟩
  | true =>
      exact ⟨fun _ hs => S.gone_println successCode hs, fun _ _ hs =>
        Or.inr ⟨⟨hs.env, hs.calls, S.println successCode hs.world⟩, rfl⟩⟩

end Steps

/-- The ways of building a program keep the relation. -/
def congruence : Congruence host host' where
  rel := S.Same
  ops := S.ops
  commandList := S.commandList
  pure _ := agree_pure rfl
  throw _ := agree_throw
  bind := same_bind
  getEnv := same_get_env
  setEnv g := ⟨fun _ hs => hs, fun _ _ hs =>
    Or.inr ⟨⟨congrArg g hs.env, hs.calls, hs.world⟩, rfl⟩⟩
  logCall e := ⟨fun _ hs => hs, fun _ _ hs =>
    Or.inr ⟨⟨hs.env, congrArg (e :: ·) hs.calls, hs.world⟩, rfl⟩⟩
  logText _ := ⟨fun _ hs => hs, fun _ _ hs => Or.inr ⟨⟨hs.env, hs.calls, hs.world⟩, rfl⟩⟩
  inEnv env _ _ h := same_inEnv env h
  dropResult := same_dropResult
  attempt := same_attempt
  runCommand := same_runCommand
  print := same_print

/-- **Programs.**  A program ends in the same way in both systems. -/
theorem same_interpret (fuel : ℕ) (expr : List Str) :
    S.Same (interpret host fuel expr) (interpret host' fuel expr) :=
  S.congruence.rel_interpret (S.congruence.rel_eval fuel) expr

end HostSim

/-! ### One system -/

section OneSystem

variable {F W : Type} {host : Host F W}

/-- An invariant of the commands and of printing, as a relation of the system to itself. -/
def invariantSim (P : W → Prop) (hcmd : ∀ cmd w, P w → P (host.runCmd cmd w).2)
    (hprint : ∀ text w, P w → P (host.println text w)) : HostSim host host where
  rel w w' := w' = w ∧ P w
  gone _ := False
  ops := rfl
  commandList := rfl
  runCmd cmd _ _ := by
    rintro ⟨rfl, hP⟩
    exact Or.inr ⟨⟨rfl, hcmd cmd _ hP⟩, rfl⟩
  println text _ _ := by
    rintro ⟨rfl, hP⟩
    exact ⟨rfl, hprint text _ hP⟩
  gone_runCmd _ := False.elim
  gone_println _ := False.elim

/-- A program keeps what the commands and printing keep. -/
theorem keeps_interpret {P : W → Prop} (hcmd : ∀ cmd w, P w → P (host.runCmd cmd w).2)
    (hprint : ∀ text w, P w → P (host.println text w)) (fuel : ℕ) (expr : List Str)
    (s : Session F W) (hs : P s.world) : P ((interpret host fuel expr).exec s).2.world := by
  have hsame := (invariantSim P hcmd hprint).same_interpret fuel expr
  exact ((hsame.rel s s ⟨rfl, rfl, rfl, hs⟩).resolve_left id).1.world.2

end OneSystem

/-! ### Programs without system calls -/

section NoSys

variable {F W W' : Type}

/-- The system next to another one on which its commands have no effect. -/
def onLeft (host : Host F W) : Host F (W × W') where
  ops := host.ops
  runCmd cmd w := ((host.runCmd cmd w.1).1, (host.runCmd cmd w.1).2, w.2)
  println text w := (host.println text w.1, w.2)
  commandList := host.commandList

/-- The same with the system on the other side. -/
def onRight (host : Host F W') : Host F (W × W') where
  ops := host.ops
  runCmd cmd w := ((host.runCmd cmd w.2).1, w.1, (host.runCmd cmd w.2).2)
  println text w := (w.1, host.println text w.2)
  commandList := host.commandList

/-- The right side stays what it was. -/
def leftSim (host : Host F W) (w'₀ : W') : HostSim host (onLeft host : Host F (W × W')) where
  rel w ww := ww = (w, w'₀)
  gone _ := False
  ops := rfl
  commandList := rfl
  runCmd _ _ _ := by
    rintro rfl
    exact Or.inr ⟨rfl, rfl⟩
  println _ _ _ := by
    rintro rfl
    rfl
  gone_runCmd _ := False.elim
  gone_println _ := False.elim

/-- The left side stays what it was. -/
def rightSim (host : Host F W') (w₀ : W) : HostSim host (onRight host : Host F (W × W')) where
  rel w' ww := ww = (w₀, w')
  gone _ := False
  ops := rfl
  commandList := rfl
  runCmd _ _ _ := by
    rintro rfl
    exact Or.inr ⟨rfl, rfl⟩
  println _ _ _ := by
    rintro rfl
    rfl
  gone_runCmd _ := False.elim
  gone_println _ := False.elim

/-- The same program next to itself, in two systems with the same names of commands. -/
lemma agree_interpret {host host' : Host F W} (hops : host'.ops = host.ops)
    (hcommands : host'.commandList = host.commandList) (fuel : ℕ) (expr : List Str) :
    (sideBySide fun _ => true).Agree (· = ·) (interpret host fuel expr)
      (interpret host' fuel expr) := by
  rcases expr with _ | ⟨name, _ | ⟨code, args⟩⟩
  · exact agree_pure rfl
  · exact agree_pure rfl
  · have henv : initialEnv host' args = initialEnv host args := by
      rw [initialEnv_eq, initialEnv_eq, hops, hcommands]
    have hstart : (sideBySide fun _ => true).Agree (fun _ _ => True)
        (modify fun s => { s with env := initialEnv host args } : Eval F W PUnit)
        (modify fun s => { s with env := initialEnv host' args }) := by
      refine agree_modify (fun _ hs => hs) fun s s' hs => ?_
      rw [henv]
      exact ⟨sorted_initialEnv host args, sorted_initialEnv host args, env_alike_refl _, hs.world,
        hs.texts, hs.calls⟩
    have hprelude : (sideBySide fun _ => true).Agree (Alike fun _ => true)
        (parseEval host fuel preludeText) (parseEval host' fuel preludeText) :=
      agree_parseEval hops rfl fuel preludeText
    refine Agree.bind (V := fun _ _ => True) ?_ (fun u => ⟨u, trivial⟩)
      fun _ _ _ => agree_runProgram hops rfl fuel code
    exact hstart.bind (fun u => ⟨u, trivial⟩) fun _ _ _ => agree_dropResult hprelude

/-- **Effects.**  A program that evaluates no `sys` form reaches nothing outside of the interpreter:
it leaves the rest of the system as it was, however it ends, and in every system with the same names
of commands it ends in the same way. -/
theorem world_of_noSys {host : Host F W} {host' : Host F W'} (hops : host'.ops = host.ops)
    (hcommands : host'.commandList = host.commandList) (fuel : ℕ) (expr : List Str)
    (w : W) (w' : W')
    (hsys : ∀ e ∈ ((interpret host fuel expr).exec ⟨[], w, [], []⟩).2.calls, e.isSys = false) :
    ((interpret host' fuel expr).exec ⟨[], w', [], []⟩).1 =
      ((interpret host fuel expr).exec ⟨[], w, [], []⟩).1 ∧
    ((interpret host fuel expr).exec ⟨[], w, [], []⟩).2.world = w ∧
    ((interpret host' fuel expr).exec ⟨[], w', [], []⟩).2.world = w' := by
  obtain ⟨hleft, hleftEnd⟩ :=
    (((leftSim host w').same_interpret fuel expr).rel ⟨[], w, [], []⟩ ⟨[], (w, w'), [], []⟩
      ⟨rfl, rfl, rfl⟩).resolve_left id
  obtain ⟨hright, hrightEnd⟩ :=
    (((rightSim host' w).same_interpret fuel expr).rel ⟨[], w', [], []⟩ ⟨[], (w, w'), [], []⟩
      ⟨rfl, rfl, rfl⟩).resolve_left id
  have hagree : (sideBySide fun _ => true).Agree (· = ·)
      (interpret (onLeft host : Host F (W × W')) fuel expr)
      (interpret (onRight host' : Host F (W × W')) fuel expr) :=
    agree_interpret hops hcommands fuel expr
  have hmatched : Matched (fun _ => true) (⟨[], (w, w'), [], []⟩ : Session F (W × W'))
      ⟨[], (w, w'), [], []⟩ :=
    ⟨.nil, .nil, .nil, rfl, rfl, rfl⟩
  rcases hagree.rel _ _ hmatched with ⟨e, he, hclean⟩ | ⟨hend, hsame⟩
  · have hwithin := calls_readable (onLeft host) fuel expr [] (w, w') [] e he
    rw [hleft.calls] at he
    exact absurd ⟨hsys e he, hwithin.mono fun _ _ => rfl⟩ hclean
  · -- each run acts on one side only, and both end with the same two sides
    have hworlds := hend.world
    rw [hleft.world, hright.world] at hworlds
    obtain ⟨hw, hw'⟩ := Prod.mk.inj hworlds
    refine ⟨?_, hw.symm, hw'⟩
    rw [SameEnd.eq hleftEnd, SameEnd.eq hsame, ← SameEnd.eq hrightEnd]

end NoSys

/-- A system in which no command returns. -/
def halting : Host (Fin 10) (List (List Str)) := { recorder with runCmd := fun _ w => (none, w) }

/-- `(+ 1 2);` gives the same number also where no command returns. -/
theorem world_of_noSys_sum :
    (∀ e ∈ ((interpret recorder 4 [[], ['(', '+', ' ', '1', ' ', '2', ')', ';']]).exec
      ⟨[], [], [], []⟩).2.calls, e.isSys = false) ∧
    ((interpret halting 4 [[], ['(', '+', ' ', '1', ' ', '2', ')', ';']]).exec
        ⟨[], [], [], []⟩).1 =
      ((interpret recorder 4 [[], ['(', '+', ' ', '1', ' ', '2', ')', ';']]).exec
        ⟨[], [], [], []⟩).1 := by
  have hsys : ∀ e ∈ ((interpret recorder 4 [[], ['(', '+', ' ', '1', ' ', '2', ')', ';']]).exec
      ⟨[], [], [], []⟩).2.calls, e.isSys = false := by decide +kernel
  have hops : halting.ops = recorder.ops := rfl
  have hcommands : halting.commandList = recorder.commandList := rfl
  exact ⟨hsys, (world_of_noSys hops hcommands 4 _ [] [] hsys).1⟩

end SilOS.Risp
