/-
# The keyboard task

`print_keypresses` of `task/keyboard.rs` under the executor's main loop.  The interrupt handler
puts scancodes into a bounded queue and wakes the task through a one-place waker cell;
`ScancodeStream::poll_next` takes them out: it tries to pop, registers the waker when there is
nothing, and tries again before it suspends.  When no task is ready the executor switches
interrupts off, looks at the ready queue once more and halts with an atomic `sti; hlt`.

The machine below takes these steps one at a time, so that an interrupt may come between any two
of them.  The steps of the processor are determined by the state; of the other tasks it is only
known that they call wakers and return.
-/
import SilOS.Task.Executor

namespace SilOS.Task

open Lib

/-- The id of `print_keypresses`, the first task that is created. -/
def keyboardTask : TaskId := 0

/-- The capacity of `SCANCODE_QUEUE`. -/
def scancodeCapacity : ℕ := 100

/-- Where the main loop `Executor::run` is. -/
inductive LoopPhase where
  /-- At the top of the loop of `run_ready_tasks`. -/
  | ready
  /-- In the poll of a task. -/
  | polling (id : TaskId)
  /-- `run_ready_tasks` has returned. -/
  | idle
  /-- In `sleep_if_idle`, with interrupts off. -/
  | masked
  /-- Halted, with interrupts on. -/
  | halted
deriving DecidableEq

namespace LoopPhase

/-- Where the loop is after an interrupt: `hlt` returns. -/
def resume : LoopPhase → LoopPhase
  | .halted => .ready
  | p => p

lemma resume_eq_polling {p : LoopPhase} {id : TaskId} :
    p.resume = .polling id ↔ p = .polling id := by
  cases p <;> simp [resume]

lemma resume_ne_halted (p : LoopPhase) : p.resume ≠ .halted := by
  cases p <;> simp [resume]

end LoopPhase

/-- Where `print_keypresses` is. -/
inductive KeyboardPc where
  /-- Not polled yet. -/
  | start
  /-- Before the first pop of `poll_next`. -/
  | firstPop
  /-- The first pop found nothing. -/
  | register
  /-- The waker is registered. -/
  | secondPop
  /-- `poll_next` has returned `Pending`. -/
  | suspended
deriving DecidableEq

/-- The executor's loop, the statics of `task/keyboard.rs` and the keyboard task. -/
structure System where
  exec : Executor
  phase : LoopPhase
  /-- `SCANCODE_QUEUE`, `none` as long as it is not initialised. -/
  scancodeQueue : Option (List UInt8)
  /-- `WAKER`. -/
  waker : Option TaskId
  keyboard : KeyboardPc
deriving DecidableEq

/-- What can come next. -/
inductive Input where
  /-- A keyboard interrupt. -/
  | interrupt (scancode : UInt8)
  /-- A timer interrupt. -/
  | timer
  /-- The next step of the executor or of the keyboard task. -/
  | cpu
  /-- Another task, in its poll, calls a waker of the task `id`. -/
  | wake (id : TaskId)
  /-- The poll of another task returns. -/
  | poll (result : Poll)
deriving DecidableEq

/-- What has happened to a scancode. -/
inductive Output where
  /-- It was put into the queue. -/
  | accepted (scancode : UInt8)
  /-- `poll_next` has returned it. -/
  | delivered (scancode : UInt8)
  | quiet
deriving DecidableEq

namespace System

/-- `WAKER.wake()`: take the waker and call it. -/
def wakeKeyboard (s : System) : Except Refusal System :=
  match s.waker with
  | none => .ok s
  | some id => (s.exec.wakeTask id).map fun e => { s with exec := e, waker := none }

/-- `add_scancode`; a full queue and a queue that is not there drop the scancode. -/
def addScancode (s : System) (scancode : UInt8) : Except Refusal (Output × System) :=
  match s.scancodeQueue with
  | none => .ok (.quiet, s)
  | some q =>
      if q.length < scancodeCapacity then
        ({ s with scancodeQueue := some (q ++ [scancode]) } : System).wakeKeyboard.map
          fun s => (.accepted scancode, s)
      else .ok (.quiet, s)

/-- The next step of `print_keypresses`, which is being polled. -/
def keyboardStep (s : System) : Except Refusal (Output × System) :=
  match s.keyboard, s.scancodeQueue with
  -- `ScancodeStream::new`
  | .start, none => .ok (.quiet, { s with scancodeQueue := some [], keyboard := .firstPop })
  | .start, some _ => .error .panic
  -- `ScancodeStream::poll_next`
  | .firstPop, some [] => .ok (.quiet, { s with keyboard := .register })
  | .firstPop, some (c :: q) =>
      .ok (.delivered c, { s with scancodeQueue := some q, keyboard := .firstPop })
  | .register, _ => .ok (.quiet, { s with waker := some keyboardTask, keyboard := .secondPop })
  | .secondPop, some [] =>
      .ok (.quiet, { s with
        exec := s.exec.complete keyboardTask .pending, phase := .ready, keyboard := .suspended })
  | .secondPop, some (c :: q) =>
      .ok (.delivered c, { s with scancodeQueue := some q, keyboard := .firstPop })
  | .firstPop, none => .error .panic
  | .secondPop, none => .error .panic
  | .suspended, _ => .error .disabled

/-- The poll of a task begins; the keyboard task goes on with a new call of `poll_next`. -/
def beginPoll (s : System) (id : TaskId) : System :=
  { s with
    phase := .polling id
    keyboard := if id = keyboardTask ∧ s.keyboard = .suspended then .firstPop else s.keyboard }

/-- The next step of the processor. -/
def cpuStep (s : System) : Except Refusal (Output × System) :=
  match s.phase with
  | .ready =>
      match s.exec.popReady with
      | (.empty, e) => .ok (.quiet, { s with exec := e, phase := .idle })
      | (.gone _, e) => .ok (.quiet, { s with exec := e })
      | (.live id, e) => .ok (.quiet, beginPoll { s with exec := e } id)
  | .polling id => if id = keyboardTask then s.keyboardStep else .error .disabled
  -- `sleep_if_idle`
  | .idle => .ok (.quiet, { s with phase := .masked })
  | .masked =>
      if s.exec.taskQueue = [] then .ok (.quiet, { s with phase := .halted })
      else .ok (.quiet, { s with phase := .ready })
  | .halted => .error .disabled

/-- An interrupt, if interrupts are on: run the handler, and leave `hlt`. -/
def interrupted (s : System) (handler : Except Refusal (Output × System)) :
    Except Refusal (Output × System) :=
  if s.phase = .masked then .error .disabled
  else handler.map fun (o, s) => (o, { s with phase := s.phase.resume })

/-- A step of a task that is not the keyboard task. -/
def otherStep (s : System) (f : TaskId → Except Refusal (Output × System)) :
    Except Refusal (Output × System) :=
  match s.phase with
  | .polling id => if id = keyboardTask then .error .disabled else f id
  | _ => .error .disabled

/-- One step. -/
def step (s : System) : Input → Except Refusal (Output × System)
  | .interrupt c => s.interrupted (s.addScancode c)
  | .timer => s.interrupted (.ok (.quiet, s))
  | .cpu => s.cpuStep
  | .wake id => s.otherStep fun _ =>
      (s.exec.wakeTask id).map fun e => (.quiet, { s with exec := e })
  | .poll result => s.otherStep fun id =>
      .ok (.quiet, { s with exec := s.exec.complete id result, phase := .ready })

/-- The system as a machine. -/
def machine : Machine System Input Output Refusal := ⟨step⟩

/-- The spawns at the end of `kernel_main`: the keyboard task and then other ones. -/
def spawnAll : Executor → List TaskId → Except Refusal Executor
  | e, [] => .ok e
  | e, id :: ids =>
      match e.spawn id with
      | .error f => .error f
      | .ok e => spawnAll e ids

/-- The system when `Executor::run` is entered. -/
def boot (others : List TaskId) : Except Refusal System :=
  (spawnAll Executor.new (keyboardTask :: others)).map
    fun e => ⟨e, .ready, none, none, .start⟩

/-! ### What a step can do -/

/-- The state with one more id at the end of the ready queue. -/
def enqueue (s : System) (id : TaskId) : System :=
  { s with exec := { s.exec with taskQueue := s.exec.taskQueue ++ [id] } }

inductive Step (s : System) : Input → Output → System → Prop
  | ticked (hphase : s.phase ≠ .masked) : Step s .timer .quiet { s with phase := s.phase.resume }
  | dropped {c : UInt8} (hphase : s.phase ≠ .masked) :
      Step s (.interrupt c) .quiet { s with phase := s.phase.resume }
  | accepted {c : UInt8} {q : List UInt8} (hphase : s.phase ≠ .masked)
      (hq : s.scancodeQueue = some q) (hwaker : s.waker = none) :
      Step s (.interrupt c) (.accepted c)
        { s with scancodeQueue := some (q ++ [c]), phase := s.phase.resume }
  | acceptedWake {c : UInt8} {q : List UInt8} {id : TaskId} (hphase : s.phase ≠ .masked)
      (hq : s.scancodeQueue = some q) (hwaker : s.waker = some id) :
      Step s (.interrupt c) (.accepted c)
        { s.enqueue id with
          scancodeQueue := some (q ++ [c]), waker := none, phase := s.phase.resume }
  | drained (hphase : s.phase = .ready) (hq : s.exec.taskQueue = []) :
      Step s .cpu .quiet { s with phase := .idle }
  | skipped {id : TaskId} {q : List TaskId} (hphase : s.phase = .ready)
      (hq : s.exec.taskQueue = id :: q) (hid : id ∉ s.exec.tasks) :
      Step s .cpu .quiet { s with exec := { s.exec with taskQueue := q } }
  | polled {id : TaskId} {q : List TaskId} (hphase : s.phase = .ready)
      (hq : s.exec.taskQueue = id :: q) (hid : id ∈ s.exec.tasks) :
      Step s .cpu .quiet (beginPoll { s with exec :=
        { s.exec with taskQueue := q, wakerCache := insert id s.exec.wakerCache } } id)
  | initialised (hphase : s.phase = .polling keyboardTask) (hpc : s.keyboard = .start)
      (hq : s.scancodeQueue = none) :
      Step s .cpu .quiet { s with scancodeQueue := some [], keyboard := .firstPop }
  | missed (hphase : s.phase = .polling keyboardTask) (hpc : s.keyboard = .firstPop)
      (hq : s.scancodeQueue = some []) :
      Step s .cpu .quiet { s with keyboard := .register }
  | delivered {c : UInt8} {q : List UInt8} (hphase : s.phase = .polling keyboardTask)
      (hpc : s.keyboard = .firstPop ∨ s.keyboard = .secondPop)
      (hq : s.scancodeQueue = some (c :: q)) :
      Step s .cpu (.delivered c) { s with scancodeQueue := some q, keyboard := .firstPop }
  | registered (hphase : s.phase = .polling keyboardTask) (hpc : s.keyboard = .register) :
      Step s .cpu .quiet { s with waker := some keyboardTask, keyboard := .secondPop }
  | suspended (hphase : s.phase = .polling keyboardTask) (hpc : s.keyboard = .secondPop)
      (hq : s.scancodeQueue = some []) :
      Step s .cpu .quiet { s with phase := .ready, keyboard := .suspended }
  | masked (hphase : s.phase = .idle) : Step s .cpu .quiet { s with phase := .masked }
  | halted (hphase : s.phase = .masked) (hq : s.exec.taskQueue = []) :
      Step s .cpu .quiet { s with phase := .halted }
  | unmasked (hphase : s.phase = .masked) (hq : s.exec.taskQueue ≠ []) :
      Step s .cpu .quiet { s with phase := .ready }
  | woken {id id' : TaskId} (hphase : s.phase = .polling id') (hid : id' ≠ keyboardTask) :
      Step s (.wake id) .quiet (s.enqueue id)
  | returned {id : TaskId} {result : Poll} (hphase : s.phase = .polling id)
      (hid : id ≠ keyboardTask) :
      Step s (.poll result) .quiet { s with exec := s.exec.complete id result, phase := .ready }

variable {s s' : System} {o : Output}

lemma addScancode_cases {c : UInt8} (h : s.addScancode c = .ok (o, s')) :
    (o = .quiet ∧ s' = s) ∨ ∃ q, o = .accepted c ∧ s.scancodeQueue = some q ∧
      ((s.waker = none ∧ s' = { s with scancodeQueue := some (q ++ [c]) }) ∨
        ∃ id, s.waker = some id ∧
          s' = { s.enqueue id with scancodeQueue := some (q ++ [c]), waker := none }) := by
  rw [addScancode] at h
  split at h
  · obtain ⟨rfl, rfl⟩ := Prod.mk.inj (Except.ok.inj h)
    exact Or.inl ⟨rfl, rfl⟩
  · rename_i q hq
    split_ifs at h with hroom
    · obtain ⟨s₁, hwake, heq⟩ := map_eq_ok.mp h
      obtain ⟨rfl, rfl⟩ := Prod.mk.inj heq
      refine Or.inr ⟨q, rfl, hq, ?_⟩
      rw [wakeKeyboard] at hwake
      split at hwake
      · rename_i hwaker
        exact Or.inl ⟨hwaker, (Except.ok.inj hwake).symm⟩
      · rename_i id hwaker
        obtain ⟨e, hpush, rfl⟩ := map_eq_ok.mp hwake
        obtain ⟨-, rfl⟩ := Executor.push_eq_ok.mp hpush
        exact Or.inr ⟨id, hwaker, rfl⟩
    · obtain ⟨rfl, rfl⟩ := Prod.mk.inj (Except.ok.inj h)
      exact Or.inl ⟨rfl, rfl⟩

lemma keyboardStep_cases (hphase : s.phase = .polling keyboardTask)
    (h : s.keyboardStep = .ok (o, s')) : Step s .cpu o s' := by
  rw [keyboardStep] at h
  split at h
  · rename_i hpc hq
    obtain ⟨rfl, rfl⟩ := Prod.mk.inj (Except.ok.inj h)
    exact .initialised hphase hpc hq
  · exact absurd h (by simp)
  · rename_i hpc hq
    obtain ⟨rfl, rfl⟩ := Prod.mk.inj (Except.ok.inj h)
    exact .missed hphase hpc hq
  · rename_i c q hpc hq
    obtain ⟨rfl, rfl⟩ := Prod.mk.inj (Except.ok.inj h)
    exact .delivered hphase (Or.inl hpc) hq
  · rename_i hpc
    obtain ⟨rfl, rfl⟩ := Prod.mk.inj (Except.ok.inj h)
    exact .registered hphase hpc
  · rename_i hpc hq
    obtain ⟨rfl, rfl⟩ := Prod.mk.inj (Except.ok.inj h)
    exact .suspended hphase hpc hq
  · rename_i c q hpc hq
    obtain ⟨rfl, rfl⟩ := Prod.mk.inj (Except.ok.inj h)
    exact .delivered hphase (Or.inr hpc) hq
  all_goals exact absurd h (by simp)

lemma cpuStep_cases (h : s.cpuStep = .ok (o, s')) : Step s .cpu o s' := by
  rw [cpuStep] at h
  split at h
  · rename_i hphase
    rw [Executor.popReady] at h
    rcases hq : s.exec.taskQueue with _ | ⟨id, q⟩
    · simp only [hq] at h
      obtain ⟨rfl, rfl⟩ := Prod.mk.inj (Except.ok.inj h)
      exact .drained hphase hq
    · by_cases hid : id ∈ s.exec.tasks
      · simp only [hq, if_pos hid] at h
        obtain ⟨rfl, rfl⟩ := Prod.mk.inj (Except.ok.inj h)
        exact .polled hphase hq hid
      · simp only [hq, if_neg hid] at h
        obtain ⟨rfl, rfl⟩ := Prod.mk.inj (Except.ok.inj h)
        exact .skipped hphase hq hid
  · rename_i id hphase
    split_ifs at h with hid
    exact keyboardStep_cases (hid ▸ hphase) h
  · rename_i hphase
    obtain ⟨rfl, rfl⟩ := Prod.mk.inj (Except.ok.inj h)
    exact .masked hphase
  · rename_i hphase
    split_ifs at h with hq
    · obtain ⟨rfl, rfl⟩ := Prod.mk.inj (Except.ok.inj h)
      exact .halted hphase hq
    · obtain ⟨rfl, rfl⟩ := Prod.mk.inj (Except.ok.inj h)
      exact .unmasked hphase hq
  · exact absurd h (by simp)

lemma otherStep_cases {f : TaskId → Except Refusal (Output × System)} {r : Output × System}
    (h : s.otherStep f = .ok r) :
    ∃ id, s.phase = .polling id ∧ id ≠ keyboardTask ∧ f id = .ok r := by
  rw [otherStep] at h
  split at h
  · rename_i id hphase
    split_ifs at h with hid
    exact ⟨id, hphase, hid, h⟩
  · exact absurd h (by simp)

lemma step_cases {i : Input} (h : machine.step s i = .ok (o, s')) : Step s i o s' := by
  cases i with
  | interrupt c =>
      simp only [machine, step, interrupted] at h
      split_ifs at h with hphase
      obtain ⟨⟨o₁, s₁⟩, hadd, heq⟩ := map_eq_ok.mp h
      obtain ⟨rfl, rfl⟩ := Prod.mk.inj heq
      rcases addScancode_cases hadd with ⟨rfl, rfl⟩ | ⟨q, rfl, hq, ⟨hw, rfl⟩ | ⟨id, hw, rfl⟩⟩
      · exact .dropped hphase
      · exact .accepted hphase hq hw
      · exact .acceptedWake hphase hq hw
  | timer =>
      simp only [machine, step, interrupted] at h
      split_ifs at h with hphase
      obtain ⟨⟨o₁, s₁⟩, heq₁, heq⟩ := map_eq_ok.mp h
      obtain ⟨rfl, rfl⟩ := Prod.mk.inj (Except.ok.inj heq₁)
      obtain ⟨rfl, rfl⟩ := Prod.mk.inj heq
      exact .ticked hphase
  | cpu => exact cpuStep_cases h
  | wake id =>
      obtain ⟨id', hphase, hid, hwake⟩ := otherStep_cases h
      obtain ⟨e, hpush, heq⟩ := map_eq_ok.mp hwake
      obtain ⟨rfl, rfl⟩ := Prod.mk.inj heq
      obtain ⟨-, rfl⟩ := Executor.push_eq_ok.mp hpush
      exact .woken hphase hid
  | poll result =>
      obtain ⟨id, hphase, hid, heq⟩ := otherStep_cases h
      obtain ⟨rfl, rfl⟩ := Prod.mk.inj (Except.ok.inj heq)
      exact .returned hphase hid

/-! ### No wake-up is lost -/

/-- What holds of the keyboard task at each point of its code.  The point of the register-then-
recheck order is the last two cases: once the waker is registered, a scancode that the second pop
does not see puts the task into the ready queue. -/
def KeyboardOk (s : System) : Prop :=
  match s.keyboard with
  | .start => s.scancodeQueue = none ∧
      (keyboardTask ∈ s.exec.taskQueue ∨ s.phase = .polling keyboardTask)
  | .firstPop => s.phase = .polling keyboardTask ∧ s.scancodeQueue.isSome
  | .register => s.phase = .polling keyboardTask ∧ s.scancodeQueue.isSome
  | .secondPop => s.phase = .polling keyboardTask ∧ s.scancodeQueue.isSome ∧
      (s.waker = some keyboardTask ∨ keyboardTask ∈ s.exec.taskQueue)
  | .suspended => s.phase ≠ .polling keyboardTask ∧ s.scancodeQueue.isSome ∧
      ((s.scancodeQueue = some [] ∧ s.waker = some keyboardTask) ∨
        keyboardTask ∈ s.exec.taskQueue)

/-- A step that leaves the keyboard task, its queue and its waker alone, and does not take its
id from the ready queue. -/
lemma KeyboardOk.frame (h : s.KeyboardOk) (hpc : s'.keyboard = s.keyboard)
    (hphase : s'.phase = .polling keyboardTask ↔ s.phase = .polling keyboardTask)
    (hscan : s'.scancodeQueue = s.scancodeQueue) (hwaker : s'.waker = s.waker)
    (hq : keyboardTask ∈ s.exec.taskQueue → keyboardTask ∈ s'.exec.taskQueue) :
    s'.KeyboardOk := by
  rw [KeyboardOk, hpc, hscan, hwaker]
  rw [KeyboardOk] at h
  split at h
  · exact ⟨h.1, h.2.imp hq hphase.mpr⟩
  · exact ⟨hphase.mpr h.1, h.2⟩
  · exact ⟨hphase.mpr h.1, h.2⟩
  · exact ⟨hphase.mpr h.1, h.2.1, h.2.2.imp_right hq⟩
  · exact ⟨fun hp => h.1 (hphase.mp hp), h.2.1, h.2.2.imp_right hq⟩

/-- What holds of the system in every state. -/
structure WakeInv (s : System) : Prop where
  live : keyboardTask ∈ s.exec.tasks
  waker : ∀ id, s.waker = some id → id = keyboardTask
  keyboard : s.KeyboardOk
  halted : s.phase = .halted → s.exec.taskQueue = []

/-- A scancode comes in: afterwards the task is in the ready queue, or there was no waker to
take, which is so neither when it waits for its second pop nor when it is suspended, unless it is
in the ready queue already. -/
lemma KeyboardOk.accept {c : UInt8} {q : List UInt8} (h : s.KeyboardOk)
    (hq : s.scancodeQueue = some q) (hpc : s'.keyboard = s.keyboard)
    (hphase : s'.phase = .polling keyboardTask ↔ s.phase = .polling keyboardTask)
    (hscan : s'.scancodeQueue = some (q ++ [c]))
    (hready : s.waker = some keyboardTask ∨ keyboardTask ∈ s.exec.taskQueue →
      keyboardTask ∈ s'.exec.taskQueue) : s'.KeyboardOk := by
  rw [KeyboardOk, hpc, hscan]
  rw [KeyboardOk] at h
  split at h
  · exact absurd (hq.symm.trans h.1) (by simp)
  · exact ⟨hphase.mpr h.1, rfl⟩
  · exact ⟨hphase.mpr h.1, rfl⟩
  · exact ⟨hphase.mpr h.1, rfl, Or.inr (hready h.2.2)⟩
  · exact ⟨fun hp => h.1 (hphase.mp hp), rfl, Or.inr (hready (h.2.2.imp_left And.right))⟩

lemma WakeInv.keyboardOk_step {i : Input} (h : WakeInv s) (hstep : Step s i o s') :
    s'.KeyboardOk := by
  have hk := h.keyboard
  cases hstep with
  | ticked hphase | dropped hphase =>
      exact hk.frame rfl LoopPhase.resume_eq_polling rfl rfl id
  | accepted hphase hq hwaker =>
      refine hk.accept hq rfl LoopPhase.resume_eq_polling rfl ?_
      rintro (hw | hmem)
      · exact absurd (hwaker.symm.trans hw) (by simp)
      · exact hmem
  | @acceptedWake c q id hphase hq hwaker =>
      refine hk.accept hq rfl LoopPhase.resume_eq_polling rfl fun _ => ?_
      rw [← h.waker id hwaker]
      exact List.mem_append_right _ (List.mem_singleton_self _)
  | drained hphase hq => exact hk.frame rfl (by simp [hphase]) rfl rfl id
  | @skipped id q hphase hq hid =>
      refine hk.frame rfl Iff.rfl rfl rfl fun hmem => ?_
      have hne : keyboardTask ≠ id := fun heq => hid (heq ▸ h.live)
      rw [hq] at hmem
      exact (List.mem_cons.mp hmem).resolve_left hne
  | @polled id q hphase hq hid =>
      by_cases hkey : id = keyboardTask
      · subst hkey
        rw [KeyboardOk] at hk
        split at hk
        · rename_i hpc
          simp [KeyboardOk, beginPoll, hpc, hk.1]
        · exact absurd hk.1 (by simp [hphase])
        · exact absurd hk.1 (by simp [hphase])
        · exact absurd hk.1 (by simp [hphase])
        · rename_i hpc
          simp [KeyboardOk, beginPoll, hpc, hk.2.1]
      · refine hk.frame (by simp [beginPoll, hkey]) (by simp [beginPoll, hkey, hphase]) rfl rfl ?_
        intro hmem
        rw [hq] at hmem
        exact (List.mem_cons.mp hmem).resolve_left fun heq => hkey heq.symm
  | initialised hphase hpc hq => exact ⟨hphase, rfl⟩
  | missed hphase hpc hq => exact ⟨hphase, by simp [hq]⟩
  | delivered hphase hpc hq => exact ⟨hphase, rfl⟩
  | registered hphase hpc =>
      simp only [KeyboardOk, hpc] at hk
      exact ⟨hphase, hk.2, Or.inl rfl⟩
  | suspended hphase hpc hq =>
      simp only [KeyboardOk, hpc] at hk
      exact ⟨by simp, hk.2.1, hk.2.2.imp_left fun hw => ⟨hq, hw⟩⟩
  | masked hphase => exact hk.frame rfl (by simp [hphase]) rfl rfl id
  | halted hphase hq => exact hk.frame rfl (by simp [hphase]) rfl rfl id
  | unmasked hphase hq => exact hk.frame rfl (by simp [hphase]) rfl rfl id
  | woken hphase hid => exact hk.frame rfl Iff.rfl rfl rfl fun hmem => List.mem_append_left _ hmem
  | @returned id result hphase hid =>
      refine hk.frame rfl (by simp [hphase, hid]) rfl rfl fun hmem => ?_
      rw [Executor.taskQueue_complete]
      exact hmem

lemma WakeInv.step {i : Input} (h : WakeInv s) (hstep : Step s i o s') : WakeInv s' := by
  have hk := h.keyboardOk_step hstep
  cases hstep with
  | ticked hphase | dropped hphase =>
      exact ⟨h.live, h.waker, hk, fun hp => absurd hp (LoopPhase.resume_ne_halted _)⟩
  | accepted hphase hq hwaker =>
      exact ⟨h.live, h.waker, hk, fun hp => absurd hp (LoopPhase.resume_ne_halted _)⟩
  | acceptedWake hphase hq hwaker =>
      exact ⟨h.live, by simp, hk, fun hp => absurd hp (LoopPhase.resume_ne_halted _)⟩
  | drained hphase hq => exact ⟨h.live, h.waker, hk, by simp⟩
  | skipped hphase hq hid => exact ⟨h.live, h.waker, hk, by simp [hphase]⟩
  | polled hphase hq hid => exact ⟨h.live, h.waker, hk, by simp [beginPoll]⟩
  | initialised hphase hpc hq => exact ⟨h.live, h.waker, hk, by simp [hphase]⟩
  | missed hphase hpc hq => exact ⟨h.live, h.waker, hk, by simp [hphase]⟩
  | delivered hphase hpc hq => exact ⟨h.live, h.waker, hk, by simp [hphase]⟩
  | registered hphase hpc => exact ⟨h.live, by simp [eq_comm], hk, by simp [hphase]⟩
  | suspended hphase hpc hq => exact ⟨h.live, h.waker, hk, by simp⟩
  | masked hphase => exact ⟨h.live, h.waker, hk, by simp⟩
  | halted hphase hq => exact ⟨h.live, h.waker, hk, fun _ => hq⟩
  | unmasked hphase hq => exact ⟨h.live, h.waker, hk, by simp⟩
  | woken hphase hid => exact ⟨h.live, h.waker, hk, by simp [enqueue, hphase]⟩
  | returned hphase hid =>
      exact ⟨Executor.mem_tasks_complete _ _ hid.symm h.live, h.waker, hk, by simp⟩

lemma mem_of_spawnAll {e e' : Executor} {ids : List TaskId} (id : TaskId)
    (h : spawnAll e ids = .ok e') :
    (id ∈ e.tasks → id ∈ e'.tasks) ∧ (id ∈ e.taskQueue → id ∈ e'.taskQueue) := by
  induction ids generalizing e with
  | nil =>
      obtain rfl := Except.ok.inj h
      exact ⟨fun hid => hid, fun hid => hid⟩
  | cons id' ids ih =>
      rw [spawnAll] at h
      split at h
      · exact absurd h (by simp)
      · rename_i e₁ hspawn
        obtain ⟨-, -, rfl⟩ := Executor.spawn_eq_ok.mp hspawn
        obtain ⟨htasks, hqueue⟩ := ih h
        exact ⟨fun hid => htasks (Finset.mem_insert_of_mem hid),
          fun hid => hqueue (List.mem_append_left _ hid)⟩

lemma wakeInv_boot {others : List TaskId} (h : boot others = .ok s) : WakeInv s := by
  obtain ⟨e, hspawn, rfl⟩ := map_eq_ok.mp h
  -- the keyboard task is spawned first
  have hothers : spawnAll ⟨{keyboardTask}, [keyboardTask], ∅⟩ others = .ok e := hspawn
  have hboth := mem_of_spawnAll keyboardTask hothers
  exact ⟨hboth.1 (by simp), by simp, ⟨rfl, Or.inl (hboth.2 (by simp))⟩, by simp⟩

lemma wakeInv_of_run {others : List TaskId} {s₀ : System} {is : List Input} {os : List Output}
    (hboot : boot others = .ok s₀) (hrun : machine.run s₀ is = .ok (os, s)) : WakeInv s := by
  refine machine.run_history (J := fun _ s => WakeInv s) ?_ (wakeInv_boot hboot) hrun
  intro os s i o s₁ h hstep
  exact h.step (step_cases hstep)

/-! ### No scancode is lost -/

/-- The scancodes that wait in the queue. -/
def pending (s : System) : List UInt8 := s.scancodeQueue.getD []

end System

namespace Output

def acceptedCode : Output → Option UInt8
  | .accepted c => some c
  | _ => none

def deliveredCode : Output → Option UInt8
  | .delivered c => some c
  | _ => none

end Output

/-- The scancodes whose push succeeded, in order. -/
def acceptedCodes (os : List Output) : List UInt8 := os.filterMap Output.acceptedCode

/-- The scancodes that `poll_next` returned, in order. -/
def deliveredCodes (os : List Output) : List UInt8 := os.filterMap Output.deliveredCode

namespace System

variable {s s' : System} {o : Output}

/-- A step moves a scancode from the front of the queue to the task, or a new one to its end. -/
lemma pending_step {i : Input} (hstep : Step s i o s') :
    o.deliveredCode.toList ++ s'.pending = s.pending ++ o.acceptedCode.toList := by
  cases hstep with
  | accepted hphase hq hwaker =>
      simp [pending, hq, Output.acceptedCode, Output.deliveredCode]
  | acceptedWake hphase hq hwaker =>
      simp [pending, hq, Output.acceptedCode, Output.deliveredCode]
  | initialised hphase hpc hq =>
      simp [pending, hq, Output.acceptedCode, Output.deliveredCode]
  | delivered hphase hpc hq =>
      simp [pending, hq, Output.acceptedCode, Output.deliveredCode]
  | _ => simp [pending, enqueue, beginPoll, Output.acceptedCode, Output.deliveredCode]

lemma pending_boot {others : List TaskId} (h : boot others = .ok s) : s.pending = [] := by
  obtain ⟨e, -, rfl⟩ := map_eq_ok.mp h
  rfl

lemma delivered_append_pending {others : List TaskId} {s₀ : System} {is : List Input}
    {os : List Output} (hboot : boot others = .ok s₀)
    (hrun : machine.run s₀ is = .ok (os, s)) :
    deliveredCodes os ++ s.pending = acceptedCodes os := by
  refine machine.run_history (J := fun os s => deliveredCodes os ++ s.pending = acceptedCodes os)
    ?_ ?_ hrun
  · intro os s i o s₁ h hstep
    have hmove := pending_step (step_cases hstep)
    calc deliveredCodes (os ++ [o]) ++ s₁.pending
        = deliveredCodes os ++ (o.deliveredCode.toList ++ s₁.pending) := by
          cases hd : o.deliveredCode <;> simp [deliveredCodes, hd]
      _ = deliveredCodes os ++ s.pending ++ o.acceptedCode.toList := by
          rw [hmove, List.append_assoc]
      _ = acceptedCodes (os ++ [o]) := by
          rw [h]
          cases ha : o.acceptedCode <;> simp [acceptedCodes, ha]
  · simp [pending_boot hboot, deliveredCodes, acceptedCodes]

/-- In every interleaving of interrupts with the steps of the executor and of `poll_next` in
which no push to the ready queue fails: the suspended keyboard task is ready as soon as a scancode
waits for it, the executor does not halt while one does, and the scancodes delivered so far and
those in the queue are exactly those whose push succeeded, in order. -/
theorem no_lost_wakeup {others : List TaskId} {s₀ : System} {is : List Input} {os : List Output}
    (hboot : boot others = .ok s₀) (hrun : machine.run s₀ is = .ok (os, s)) :
    (s.keyboard = .suspended → s.pending ≠ [] → keyboardTask ∈ s.exec.taskQueue) ∧
      (s.phase = .halted → s.pending = []) ∧
      deliveredCodes os ++ s.pending = acceptedCodes os := by
  have hinv := wakeInv_of_run hboot hrun
  have hready : s.keyboard = .suspended → s.pending ≠ [] → keyboardTask ∈ s.exec.taskQueue := by
    intro hpc hne
    have hk := hinv.keyboard
    simp only [KeyboardOk, hpc] at hk
    refine hk.2.2.resolve_left fun hempty => hne ?_
    rw [pending, hempty.1]
    rfl
  refine ⟨hready, ?_, delivered_append_pending hboot hrun⟩
  intro hhalt
  by_contra hne
  have hqueue := hinv.halted hhalt
  have hk := hinv.keyboard
  -- A halted executor polls no task, so the keyboard task has not begun or is suspended.
  cases hpc : s.keyboard with
  | start =>
      simp only [KeyboardOk, hpc] at hk
      exact hne (by rw [pending, hk.1]; rfl)
  | suspended =>
      have hmem := hready hpc hne
      rw [hqueue] at hmem
      exact absurd hmem (List.not_mem_nil)
  | firstPop | register | secondPop =>
      simp only [KeyboardOk, hpc] at hk
      exact absurd (hhalt.symm.trans hk.1) (by simp)

/-- The scancode of an interrupt right after the keyboard task was suspended makes it ready. -/
theorem no_lost_wakeup_after_suspend :
    machine.run ⟨⟨{1, 0}, [0, 1], ∅⟩, .ready, none, none, .start⟩
        [.cpu, .cpu, .cpu, .cpu, .cpu, .interrupt 30] =
      .ok ([.quiet, .quiet, .quiet, .quiet, .quiet, .accepted 30],
        ⟨⟨{1, 0}, [1, 0], {0}⟩, .ready, some [30], none, .suspended⟩) ∧
    keyboardTask ∈ [1, 0] := by
  have hboot : boot [1] = .ok ⟨⟨{1, 0}, [0, 1], ∅⟩, .ready, none, none, .start⟩ := rfl
  have hrun : machine.run ⟨⟨{1, 0}, [0, 1], ∅⟩, .ready, none, none, .start⟩
        [.cpu, .cpu, .cpu, .cpu, .cpu, .interrupt 30] =
      .ok ([.quiet, .quiet, .quiet, .quiet, .quiet, .accepted 30],
        ⟨⟨{1, 0}, [1, 0], {0}⟩, .ready, some [30], none, .suspended⟩) := rfl
  exact ⟨hrun, (no_lost_wakeup hboot hrun).1 rfl (by decide)⟩

end System

end SilOS.Task
