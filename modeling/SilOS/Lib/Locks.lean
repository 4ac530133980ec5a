/-
# Spin locks on one processor

Tasks run on one processor until they yield, and an interrupt may come between any two steps of a
task unless interrupts are masked.  Both take spin locks, which are released at the end of a block.
Whoever takes a lock that is held waits in a loop, and the holder, which is the same task or the
task under the interrupt, does not go on: the lock is never released.

Only the locks of the code are kept (`Code`).  Where a condition or a number of turns depends on
data, every outcome is possible.  Procedures can be recursive, so they are called by their names.

A `Discipline` says which locks tasks hold only while interrupts are masked, and which locks
handlers take.  Code that keeps to it (`Code.Disciplined`, which is decided by going through the
code) comes to a held lock only in a handler, and only if tasks hold the lock without masking
interrupts (`Cpu.Ok.spinning`), where it spins for ever (`Cpu.step_of_spinning`); elsewhere it goes
on, without an interrupt having to come (`Cpu.Ok.goes_on`).
-/
import SilOS.Lib.Machine

namespace Lib.Locks

/-! ### Code -/

/-- What matters of a piece of code, with locks `L` and procedures `P`. -/
inductive Code (L P : Type) where
  /-- steps that take no lock -/
  | work
  | seq (a b : Code L P)
  /-- one of the two -/
  | either (a b : Code L P)
  /-- any number of turns -/
  | loop (a : Code L P)
  /-- a block that holds a lock -/
  | locked (l : L) (a : Code L P)
  /-- a block in which interrupts are masked -/
  | masked (a : Code L P)
  /-- another task may go on -/
  | yield
  /-- a call of one of the procedures -/
  | call (ps : List P)
  /-- the processor is halted -/
  | halt

/-- Pieces of code one after the other. -/
def Code.block {L P : Type} : List (Code L P) → Code L P
  | [] => .work
  | [a] => a
  | a :: as => .seq a (block as)

/-- What is still to be done: code, and what is done at the end of a block. -/
inductive Item (L P : Type) where
  | code (c : Code L P)
  | release (l : L)
  | restore (masked : Bool)

/-- The locks that are held, the interrupt mask, and what is still to be done. -/
structure Core (L P : Type) where
  held : List L
  masked : Bool
  stack : List (Item L P)

/-- Why something does not happen in a state. -/
inductive Refusal (L : Type) where
  | notNow
  | halted
  | spinning (l : L)

/-- One step of code; `choice` says which way it goes. -/
def Core.exec {L P : Type} [DecidableEq L] (body : P → Code L P) (choice : ℕ) :
    Core L P → Except (Refusal L) (Core L P)
  | ⟨_, _, []⟩ => .error .notNow
  | ⟨held, m, .release l :: k⟩ => .ok ⟨held.erase l, m, k⟩
  | ⟨held, _, .restore b :: k⟩ => .ok ⟨held, b, k⟩
  | ⟨held, m, .code .work :: k⟩ => .ok ⟨held, m, k⟩
  | ⟨held, m, .code (.seq a b) :: k⟩ => .ok ⟨held, m, .code a :: .code b :: k⟩
  | ⟨held, m, .code (.either a b) :: k⟩ =>
      .ok ⟨held, m, .code (if choice = 0 then a else b) :: k⟩
  | ⟨held, m, .code (.loop a) :: k⟩ =>
      .ok ⟨held, m, if choice = 0 then k else .code a :: .code (.loop a) :: k⟩
  | ⟨held, m, .code (.locked l a) :: k⟩ =>
      if l ∈ held then .error (.spinning l)
      else .ok ⟨l :: held, m, .code a :: .release l :: k⟩
  | ⟨held, m, .code (.masked a) :: k⟩ => .ok ⟨held, true, .code a :: .restore m :: k⟩
  | ⟨_, _, .code .yield :: _⟩ => .error .notNow
  | ⟨held, m, .code (.call ps) :: k⟩ =>
      match ps[choice]? with
      | none => .error .notNow
      | some p => .ok ⟨held, m, .code (body p) :: k⟩
  | ⟨_, _, .code .halt :: _⟩ => .error .halted

/-! ### The processor -/

/-- The processor with its tasks: `handler` is what is to be done for an interrupt, if there is one,
`tasks` what is to be done for each task. -/
structure Cpu (L P ι : Type) where
  held : List L
  masked : Bool
  handler : Option (List (Item L P))
  running : ι
  tasks : ι → List (Item L P)

/-- What happens next. -/
inductive Event (ι : Type) where
  /-- a step of the handler, or of the running task -/
  | exec (choice : ℕ)
  /-- an interrupt with the handler of this number -/
  | interrupt (n : ℕ)
  /-- the handler returns -/
  | iret
  /-- the running task has yielded or ended, and this one goes on -/
  | switch (i : ι)

namespace Cpu

variable {L P ι : Type}

/-- What is to be done next. -/
def current (s : Cpu L P ι) : List (Item L P) := s.handler.getD (s.tasks s.running)

/-- The state after a step of the code. -/
def update [DecidableEq ι] (s : Cpu L P ι) (c : Core L P) : Cpu L P ι :=
  match s.handler with
  | none => { s with
      held := c.held, masked := c.masked, tasks := Function.update s.tasks s.running c.stack }
  | some _ => { s with held := c.held, masked := c.masked, handler := some c.stack }

/-- What is left of a task that has yielded or ended. -/
def yielded : List (Item L P) → Option (List (Item L P))
  | [] => some []
  | .code .yield :: k => some k
  | _ => none

def step [DecidableEq L] [DecidableEq ι] (body : P → Code L P) (handlers : List (Code L P))
    (s : Cpu L P ι) : Event ι → Except (Refusal L) (Unit × Cpu L P ι)
  | .exec choice => do
      let c ← Core.exec body choice ⟨s.held, s.masked, s.current⟩
      return ((), s.update c)
  | .interrupt n =>
      match s.handler, s.masked, handlers[n]? with
      | none, false, some h => .ok ((), { s with masked := true, handler := some [.code h] })
      | _, _, _ => .error .notNow
  | .iret =>
      match s.handler with
      | some [] => .ok ((), { s with masked := false, handler := none })
      | _ => .error .notNow
  | .switch i =>
      match s.handler, yielded (s.tasks s.running) with
      | none, some k => .ok ((), { s with
          running := i, tasks := Function.update s.tasks s.running k })
      | _, _ => .error .notNow

/-- The processor as a machine: its runs are the interleavings. -/
def machine [DecidableEq L] [DecidableEq ι] (body : P → Code L P)
    (handlers : List (Code L P)) : Machine (Cpu L P ι) (Event ι) Unit (Refusal L) :=
  ⟨step body handlers⟩

/-- The beginning, with the code of the tasks. -/
def start (tasks : ι → Code L P) (first : ι) : Cpu L P ι :=
  ⟨[], false, none, first, fun i => [.code (tasks i)]⟩

/-- The code that is run comes to a lock that is held. -/
def Spinning (s : Cpu L P ι) (l : L) : Prop :=
  ∃ a k, s.current = .code (.locked l a) :: k ∧ l ∈ s.held

end Cpu

/-! ### The discipline -/

/-- Tasks hold the guarded locks only while interrupts are masked; handlers take the locks
`ofHandlers`; the procedures in `callable` are called; and the processor is halted only if
`halts`. -/
structure Discipline (L P : Type) where
  guarded : L → Prop
  ofHandlers : L → Prop
  callable : P → Prop
  halts : Prop

/-- Code of a task, or of a handler. -/
inductive Mode where
  | task
  | handler
deriving DecidableEq

section Discipline

variable {L P : Type} {D : Discipline L P} {mode : Mode} {own : List L} {m : Bool}
  {k : List (Item L P)} {l : L}

/-- The mode allows to take the lock. -/
def Discipline.Allows (D : Discipline L P) (m : Bool) (l : L) : Mode → Prop
  | .task => D.guarded l → m = true
  | .handler => D.ofHandlers l

/-- The code keeps to the discipline if it holds the locks `own` and the mask is `m`: it takes no
lock twice, and it yields and calls procedures without a lock. -/
def Code.Disciplined (D : Discipline L P) (mode : Mode) : List L → Bool → Code L P → Prop
  | _, _, .work => True
  | own, m, .seq a b => a.Disciplined D mode own m ∧ b.Disciplined D mode own m
  | own, m, .either a b => a.Disciplined D mode own m ∧ b.Disciplined D mode own m
  | own, m, .loop a => a.Disciplined D mode own m
  | own, m, .locked l a => l ∉ own ∧ D.Allows m l mode ∧ a.Disciplined D mode (l :: own) m
  | own, _, .masked a => a.Disciplined D mode own true
  | own, m, .yield => own = [] ∧ m = false
  | own, m, .call ps => own = [] ∧ m = false ∧ ps ≠ [] ∧ ∀ p ∈ ps, D.callable p
  | _, _, .halt => D.halts

instance [DecidablePred D.guarded] [DecidablePred D.ofHandlers] :
    Decidable (D.Allows m l mode) :=
  match mode with
  | .task => inferInstanceAs (Decidable (D.guarded l → m = true))
  | .handler => inferInstanceAs (Decidable (D.ofHandlers l))

instance Code.decidableDisciplined [DecidableEq L] [DecidablePred D.guarded]
    [DecidablePred D.ofHandlers] [DecidablePred D.callable] [Decidable D.halts] :
    ∀ (own : List L) (m : Bool) (c : Code L P), Decidable (c.Disciplined D mode own m)
  | _, _, .work => inferInstanceAs (Decidable True)
  | own, m, .seq a b =>
      have := decidableDisciplined own m a
      have := decidableDisciplined own m b
      inferInstanceAs (Decidable (_ ∧ _))
  | own, m, .either a b =>
      have := decidableDisciplined own m a
      have := decidableDisciplined own m b
      inferInstanceAs (Decidable (_ ∧ _))
  | own, m, .loop a => decidableDisciplined own m a
  | own, m, .locked l a =>
      have := decidableDisciplined (l :: own) m a
      inferInstanceAs (Decidable (_ ∧ _ ∧ _))
  | own, _, .masked a => decidableDisciplined own true a
  | own, m, .yield => inferInstanceAs (Decidable (own = [] ∧ m = false))
  | own, m, .call ps =>
      have : Decidable (ps ≠ []) := decidable_of_iff (ps.isEmpty = false) (by simp)
      inferInstanceAs (Decidable (own = [] ∧ m = false ∧ ps ≠ [] ∧ ∀ p ∈ ps, D.callable p))
  | _, _, .halt => inferInstanceAs (Decidable D.halts)

/-- Code of a task keeps to a discipline with fewer guarded locks and more procedures. -/
lemma Code.Disciplined.mono {D' : Discipline L P} (hguarded : ∀ l, D'.guarded l → D.guarded l)
    (hcallable : ∀ p, D.callable p → D'.callable p) (hhalts : D.halts → D'.halts) {c : Code L P}
    (h : c.Disciplined D .task own m) : c.Disciplined D' .task own m := by
  induction c generalizing own m with
  | work => trivial
  | seq a b iha ihb => exact ⟨iha h.1, ihb h.2⟩
  | either a b iha ihb => exact ⟨iha h.1, ihb h.2⟩
  | loop a ih => exact ih h
  | locked l a ih => exact ⟨h.1, fun hl => h.2.1 (hguarded l hl), ih h.2.2⟩
  | masked a ih => exact ih h
  | yield => exact h
  | call ps => exact ⟨h.1, h.2.1, h.2.2.1, fun p hp => hcallable p (h.2.2.2 p hp)⟩
  | halt => exact hhalts h

/-- A stack keeps to the discipline: its blocks hold the locks `own` and no others, and at its end
the mask is the one with which tasks, or handlers, begin. -/
def StackOk (D : Discipline L P) (mode : Mode) : List L → Bool → List (Item L P) → Prop
  | own, m, [] => own = [] ∧ m = decide (mode = .handler)
  | own, m, .code c :: k => c.Disciplined D mode own m ∧ StackOk D mode own m k
  | own, m, .release l :: k =>
      D.Allows m l mode ∧ ∃ own', own = l :: own' ∧ StackOk D mode own' m k
  | own, m, .restore b :: k => m = true ∧ StackOk D mode own b k

/-- A task holds no guarded lock while interrupts are enabled. -/
lemma StackOk.not_guarded (h : StackOk D .task own false k) (hl : l ∈ own) : ¬ D.guarded l := by
  induction k generalizing own with
  | nil =>
      rw [h.1] at hl
      exact absurd hl List.not_mem_nil
  | cons item k ih =>
      cases item with
      | code c => exact ih h.2 hl
      | release l' =>
          obtain ⟨hallows, own', rfl, hk⟩ := h
          rcases List.mem_cons.mp hl with rfl | hl
          · exact fun hguarded => Bool.false_ne_true (hallows hguarded)
          · exact ih hk hl
      | restore b => exact absurd h.1 Bool.false_ne_true

/-- Interrupts are masked while a handler runs. -/
lemma StackOk.masked_of_handler (h : StackOk D .handler own m k) : m = true := by
  induction k generalizing own with
  | nil => exact h.2
  | cons item k ih =>
      cases item with
      | code c => exact ih h.2
      | release l =>
          obtain ⟨-, own', -, hk⟩ := h
          exact ih hk
      | restore b => exact h.1

/-- The procedures that are called keep to the discipline. -/
def BodiesOk (D : Discipline L P) (body : P → Code L P) : Prop :=
  ∀ p, D.callable p → (body p).Disciplined D .task [] false

/-- A procedure that is called keeps to the discipline; a handler calls none. -/
lemma StackOk.call {body : P → Code L P} (hbody : BodiesOk D body) {ps : List P}
    (h : StackOk D mode own m (.code (.call ps) :: k)) {p : P} (hp : p ∈ ps) :
    StackOk D mode own m (.code (body p) :: k) := by
  obtain ⟨⟨rfl, rfl, -, hps⟩, hk⟩ := h
  cases mode with
  | task => exact ⟨hbody p (hps p hp), hk⟩
  | handler => exact absurd hk.masked_of_handler Bool.false_ne_true

end Discipline

/-! ### One step of code -/

section Exec

variable {L P : Type} [DecidableEq L] {D : Discipline L P} {mode : Mode} {own below : List L}
  {m : Bool} {k : List (Item L P)} {body : P → Code L P} {choice : ℕ} {c : Core L P}

/-- **One step of code** keeps to the discipline, whatever other locks are held. -/
lemma StackOk.exec (hbody : BodiesOk D body) (h : StackOk D mode own m k)
    (hstep : Core.exec body choice ⟨own ++ below, m, k⟩ = .ok c) :
    ∃ own', c.held = own' ++ below ∧ StackOk D mode own' c.masked c.stack := by
  rcases k with _ | ⟨item, k⟩
  · exact absurd hstep (by simp [Core.exec])
  cases item with
  | release l =>
      obtain ⟨-, own', rfl, hk⟩ := h
      simp only [Core.exec, List.cons_append, List.erase_cons_head, Except.ok.injEq] at hstep
      subst hstep
      exact ⟨own', rfl, hk⟩
  | restore b =>
      simp only [Core.exec, Except.ok.injEq] at hstep
      subst hstep
      exact ⟨own, rfl, h.2⟩
  | code code =>
      cases code with
      | work =>
          simp only [Core.exec, Except.ok.injEq] at hstep
          subst hstep
          exact ⟨own, rfl, h.2⟩
      | seq a b =>
          simp only [Core.exec, Except.ok.injEq] at hstep
          subst hstep
          exact ⟨own, rfl, h.1.1, h.1.2, h.2⟩
      | either a b =>
          simp only [Core.exec, Except.ok.injEq] at hstep
          subst hstep
          refine ⟨own, rfl, ?_, h.2⟩
          split_ifs
          · exact h.1.1
          · exact h.1.2
      | loop a =>
          simp only [Core.exec, Except.ok.injEq] at hstep
          subst hstep
          refine ⟨own, rfl, ?_⟩
          dsimp only
          split_ifs
          · exact h.2
          · exact ⟨h.1, h⟩
      | locked l a =>
          simp only [Core.exec] at hstep
          split_ifs at hstep
          simp only [Except.ok.injEq] at hstep
          subst hstep
          obtain ⟨⟨-, hallows, ha⟩, hk⟩ := h
          exact ⟨l :: own, rfl, ha, hallows, own, rfl, hk⟩
      | masked a =>
          simp only [Core.exec, Except.ok.injEq] at hstep
          subst hstep
          exact ⟨own, rfl, h.1, rfl, h.2⟩
      | yield => exact absurd hstep (by simp [Core.exec])
      | call ps =>
          simp only [Core.exec] at hstep
          split at hstep
          · exact absurd hstep (by simp)
          · rename_i p hp
            simp only [Except.ok.injEq] at hstep
            subst hstep
            exact ⟨own, rfl, h.call hbody (List.mem_of_getElem? hp)⟩
      | halt => exact absurd hstep (by simp [Core.exec])

/-- Code goes on, unless it has ended or yields, the processor is halted, or a lock is held. -/
lemma StackOk.exec_or (h : StackOk D mode own m k) (body : P → Code L P) (held : List L) :
    (∃ choice c, Core.exec body choice ⟨held, m, k⟩ = .ok c) ∨ k = [] ∨
      (∃ k', k = .code .yield :: k') ∨ (∃ k', k = .code .halt :: k') ∨
      ∃ l a k', k = .code (.locked l a) :: k' ∧ l ∈ held := by
  rcases k with _ | ⟨item, k⟩
  · exact Or.inr (Or.inl rfl)
  cases item with
  | release l => exact Or.inl ⟨0, _, rfl⟩
  | restore b => exact Or.inl ⟨0, _, rfl⟩
  | code code =>
      cases code with
      | work => exact Or.inl ⟨0, _, rfl⟩
      | seq a b => exact Or.inl ⟨0, _, rfl⟩
      | either a b => exact Or.inl ⟨0, _, rfl⟩
      | loop a => exact Or.inl ⟨0, _, rfl⟩
      | masked a => exact Or.inl ⟨0, _, rfl⟩
      | yield => exact Or.inr (Or.inr (Or.inl ⟨k, rfl⟩))
      | halt => exact Or.inr (Or.inr (Or.inr (Or.inl ⟨k, rfl⟩)))
      | call ps =>
          obtain ⟨p, ps, rfl⟩ := List.exists_cons_of_ne_nil h.1.2.2.1
          exact Or.inl ⟨0, _, rfl⟩
      | locked l a =>
          by_cases hl : l ∈ held
          · exact Or.inr (Or.inr (Or.inr (Or.inr ⟨l, a, k, rfl, hl⟩)))
          · exact Or.inl ⟨0, _, if_neg hl⟩

end Exec

/-! ### Runs of the processor -/

section Runs

variable {L P ι : Type} {D : Discipline L P}
  {body : P → Code L P} {handlers : List (Code L P)} {s s' : Cpu L P ι} {l : L}

/-- The running task and the handler over it keep to the discipline, and the locks that are held are
theirs; the other tasks hold no lock. -/
structure Cpu.Ok (D : Discipline L P) (s : Cpu L P ι) : Prop where
  task : s.handler = none → StackOk D .task s.held s.masked (s.tasks s.running)
  handler : ∀ k, s.handler = some k → ∃ own below, s.held = own ++ below ∧
    StackOk D .handler own s.masked k ∧ StackOk D .task below false (s.tasks s.running)
  others : ∀ i, i ≠ s.running → StackOk D .task [] false (s.tasks i)

namespace Cpu

lemma ok_start {tasks : ι → Code L P} (htasks : ∀ i, (tasks i).Disciplined D .task [] false)
    (first : ι) : (start tasks first).Ok D where
  task _ := ⟨htasks first, rfl, rfl⟩
  handler _ h := absurd h (by simp [start])
  others i _ := ⟨htasks i, rfl, rfl⟩

lemma Ok.interrupt (h : s.Ok D) (hnone : s.handler = none) (hopen : s.masked = false)
    {c : Code L P} (hc : c.Disciplined D .handler [] true) :
    ({ s with masked := true, handler := some [.code c] } : Cpu L P ι).Ok D where
  task hsome := absurd hsome (by simp)
  handler k hk := by
    rw [← Option.some.inj hk]
    exact ⟨[], s.held, rfl, ⟨hc, rfl, rfl⟩, hopen ▸ h.task hnone⟩
  others := h.others

lemma Ok.iret (h : s.Ok D) (hend : s.handler = some []) :
    ({ s with masked := false, handler := none } : Cpu L P ι).Ok D where
  task _ := by
    obtain ⟨own, below, hheld, ⟨rfl, -⟩, hbelow⟩ := h.handler [] hend
    exact hheld ▸ hbelow
  handler _ hk := absurd hk (by simp)
  others := h.others

/-- Disciplined code spins only in a handler. -/
lemma Ok.spinning (h : s.Ok D) (hspin : s.Spinning l) :
    s.handler.isSome ∧ s.masked = true ∧ D.ofHandlers l ∧ ¬ D.guarded l := by
  obtain ⟨a, k, hcurrent, hl⟩ := hspin
  cases hhandler : s.handler with
  | none =>
      -- a task takes no lock twice
      rw [current, hhandler, Option.getD_none] at hcurrent
      have htask := h.task hhandler
      rw [hcurrent] at htask
      exact absurd hl htask.1.1
  | some stack =>
      rw [current, hhandler, Option.getD_some] at hcurrent
      obtain ⟨own, below, hheld, hown, hbelow⟩ := h.handler stack hhandler
      rw [hheld, List.mem_append] at hl
      have hmasked := hown.masked_of_handler
      rw [hcurrent] at hown
      obtain ⟨⟨hfresh, hallows, -⟩, -⟩ := hown
      exact ⟨rfl, hmasked, hallows, hbelow.not_guarded (hl.resolve_left hfresh)⟩

/-- The processor is halted. -/
def Halted (s : Cpu L P ι) : Prop := ∃ k, s.current = .code .halt :: k

lemma Ok.halts (h : s.Ok D) (hhalt : s.Halted) : D.halts := by
  obtain ⟨k, hcurrent⟩ := hhalt
  cases hhandler : s.handler with
  | none =>
      rw [current, hhandler, Option.getD_none] at hcurrent
      have htask := h.task hhandler
      rw [hcurrent] at htask
      exact htask.1
  | some stack =>
      rw [current, hhandler, Option.getD_some] at hcurrent
      obtain ⟨own, below, -, hown, -⟩ := h.handler stack hhandler
      rw [hcurrent] at hown
      exact hown.1

variable [DecidableEq ι]

lemma Ok.switch (h : s.Ok D) (hnone : s.handler = none) {k : List (Item L P)}
    (hyield : yielded (s.tasks s.running) = some k) (i : ι) :
    ({ s with running := i, tasks := Function.update s.tasks s.running k } : Cpu L P ι).Ok D := by
  -- a task that yields, or ends, holds no lock
  have hk : s.held = [] ∧ s.masked = false ∧ StackOk D .task [] false k := by
    have htask := h.task hnone
    generalize s.tasks s.running = stack at hyield htask
    unfold yielded at hyield
    split at hyield
    · obtain rfl := Option.some.inj hyield
      exact ⟨htask.1, htask.2, rfl, rfl⟩
    · obtain rfl := Option.some.inj hyield
      obtain ⟨⟨hheld, hopen⟩, hk⟩ := htask
      rw [hheld, hopen] at hk
      exact ⟨hheld, hopen, hk⟩
    · exact absurd hyield (by simp)
  have hall (j : ι) : StackOk D .task [] false (Function.update s.tasks s.running k j) := by
    rcases eq_or_ne j s.running with rfl | hj
    · rw [Function.update_self]
      exact hk.2.2
    · rw [Function.update_of_ne hj]
      exact h.others j hj
  refine ⟨fun _ => ?_, fun _ hsome => ?_, fun j _ => hall j⟩
  · rw [hk.1, hk.2.1]
    exact hall i
  · exact absurd (hnone.symm.trans hsome) (by simp)

variable [DecidableEq L]

lemma Ok.exec (hbody : BodiesOk D body) (h : s.Ok D) {choice : ℕ} {c : Core L P}
    (hstep : Core.exec body choice ⟨s.held, s.masked, s.current⟩ = .ok c) : (s.update c).Ok D := by
  cases hhandler : s.handler with
  | none =>
      rw [current, hhandler, Option.getD_none, ← List.append_nil s.held] at hstep
      obtain ⟨own, hheld, hstack⟩ := (h.task hhandler).exec hbody hstep
      rw [List.append_nil] at hheld
      simp only [update, hhandler]
      refine ⟨fun _ => ?_, fun _ hnone => absurd hnone (by simp), fun i hi => ?_⟩
      · dsimp only
        rw [Function.update_self, hheld]
        exact hstack
      · dsimp only at hi ⊢
        rw [Function.update_of_ne hi]
        exact h.others i hi
  | some k =>
      obtain ⟨own, below, hheld, hown, hbelow⟩ := h.handler k hhandler
      rw [current, hhandler, Option.getD_some, hheld] at hstep
      obtain ⟨own', hheld', hstack⟩ := hown.exec hbody hstep
      simp only [update, hhandler]
      refine ⟨fun hnone => absurd hnone (by simp), fun k' hk => ?_, h.others⟩
      rw [← Option.some.inj hk]
      exact ⟨own', below, hheld', hstack, hbelow⟩

/-- **One event** keeps to the discipline. -/
lemma Ok.step (hbody : BodiesOk D body)
    (hhandlers : ∀ h ∈ handlers, h.Disciplined D .handler [] true) (h : s.Ok D) {e : Event ι}
    {u : Unit} (hstep : s.step body handlers e = .ok (u, s')) : s'.Ok D := by
  cases e with
  | exec choice =>
      rw [Cpu.step] at hstep
      cases hexec : Core.exec body choice ⟨s.held, s.masked, s.current⟩ with
      | error e =>
          rw [hexec] at hstep
          exact absurd hstep (by simp [bind, Except.bind])
      | ok c =>
          rw [hexec] at hstep
          obtain ⟨-, rfl⟩ := Prod.mk.inj (Except.ok.inj hstep)
          exact h.exec hbody hexec
  | interrupt n =>
      rw [Cpu.step] at hstep
      split at hstep
      · rename_i c hnone hopen hc
        obtain ⟨-, rfl⟩ := Prod.mk.inj (Except.ok.inj hstep)
        exact h.interrupt hnone hopen (hhandlers c (List.mem_of_getElem? hc))
      · exact absurd hstep (by simp)
  | iret =>
      rw [Cpu.step] at hstep
      split at hstep
      · rename_i hend
        obtain ⟨-, rfl⟩ := Prod.mk.inj (Except.ok.inj hstep)
        exact h.iret hend
      · exact absurd hstep (by simp)
  | switch i =>
      rw [Cpu.step] at hstep
      split at hstep
      · rename_i k hnone hyield
        obtain ⟨-, rfl⟩ := Prod.mk.inj (Except.ok.inj hstep)
        exact h.switch hnone hyield i
      · exact absurd hstep (by simp)

/-- With interrupts masked, code that spins does so for ever. -/
lemma step_of_spinning (body : P → Code L P) (handlers : List (Code L P))
    (hspin : s.Spinning l) (hmasked : s.masked = true) (e : Event ι) :
    ∃ r, s.step body handlers e = .error r := by
  obtain ⟨a, k, hcurrent, hl⟩ := hspin
  cases e with
  | exec choice =>
      refine ⟨.spinning l, ?_⟩
      rw [step, hcurrent, Core.exec, if_pos hl]
      rfl
  | interrupt n =>
      refine ⟨.notNow, ?_⟩
      rw [step, hmasked]
      cases s.handler <;> rfl
  | iret =>
      refine ⟨.notNow, ?_⟩
      rw [step]
      split
      · rename_i hend
        rw [current, hend] at hcurrent
        exact absurd hcurrent (by simp)
      · rfl
  | switch i =>
      refine ⟨.notNow, ?_⟩
      rw [step]
      split
      · rename_i k' hnone hyield
        rw [current, hnone, Option.getD_none] at hcurrent
        rw [hcurrent] at hyield
        exact absurd hyield (by simp [yielded])
      · rfl

/-- Disciplined code goes on by itself, unless it spins or the processor is halted. -/
lemma Ok.goes_on (h : s.Ok D) (body : P → Code L P) (handlers : List (Code L P))
    (hspin : ∀ l, ¬ s.Spinning l) (hhalt : ¬ s.Halted) :
    ∃ e s', (∀ n, e ≠ .interrupt n) ∧ s.step body handlers e = .ok ((), s') := by
  have hexec {choice : ℕ} {c : Core L P}
      (hc : Core.exec body choice ⟨s.held, s.masked, s.current⟩ = .ok c) :
      ∃ e s', (∀ n, e ≠ .interrupt n) ∧ s.step body handlers e = .ok ((), s') :=
    ⟨.exec choice, s.update c, by simp, by rw [Cpu.step, hc]; rfl⟩
  cases hhandler : s.handler with
  | none =>
      have hcurrent : s.current = s.tasks s.running := by rw [current, hhandler, Option.getD_none]
      rcases (h.task hhandler).exec_or body s.held with
        ⟨choice, c, hc⟩ | hnil | ⟨k, hk⟩ | ⟨k, hk⟩ | ⟨l, a, k, hk, hl⟩
      · exact hexec (hcurrent ▸ hc)
      · exact ⟨.switch s.running, _, by simp, by rw [Cpu.step, hhandler, hnil]; rfl⟩
      · exact ⟨.switch s.running, _, by simp, by rw [Cpu.step, hhandler, hk]; rfl⟩
      · exact absurd ⟨k, hcurrent.trans hk⟩ hhalt
      · exact absurd ⟨a, k, hcurrent.trans hk, hl⟩ (hspin l)
  | some stack =>
      have hcurrent : s.current = stack := by rw [current, hhandler, Option.getD_some]
      obtain ⟨own, below, -, hown, -⟩ := h.handler stack hhandler
      rcases hown.exec_or body s.held with
        ⟨choice, c, hc⟩ | hnil | ⟨k, hk⟩ | ⟨k, hk⟩ | ⟨l, a, k, hk, hl⟩
      · exact hexec (hcurrent ▸ hc)
      · exact ⟨.iret, _, by simp, by rw [Cpu.step, hhandler, hnil]⟩
      · -- a handler does not yield
        have hmasked := hown.masked_of_handler
        rw [hk] at hown
        exact absurd (hmasked.symm.trans hown.1.2) (by simp)
      · exact absurd ⟨k, hcurrent.trans hk⟩ hhalt
      · exact absurd ⟨a, k, hcurrent.trans hk, hl⟩ (hspin l)

end Cpu

variable [DecidableEq L] [DecidableEq ι]

/-- **Every run** of disciplined code keeps to the discipline. -/
theorem ok_of_run (hbody : BodiesOk D body)
    (hhandlers : ∀ h ∈ handlers, h.Disciplined D .handler [] true) {tasks : ι → Code L P}
    (htasks : ∀ i, (tasks i).Disciplined D .task [] false) {first : ι} {es : List (Event ι)}
    {us : List Unit}
    (hrun : (Cpu.machine body handlers).run (Cpu.start tasks first) es = .ok (us, s)) : s.Ok D :=
  (Cpu.machine body handlers).run_keeps (I := Cpu.Ok D)
    (fun _ _ _ _ hok _ hstep => hok.step hbody hhandlers hstep) (Cpu.ok_start htasks first)
    ((Cpu.machine body handlers).along_true _ _) hrun

end Runs

end Lib.Locks
