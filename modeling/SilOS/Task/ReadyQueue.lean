/-
# The ready queue of the kernel

The two tasks of the kernel, `print_keypresses` and `shell_task`, and how full they make the
ready queue.  The only thing at which the shell task suspends is `yield_now`, so each of its polls
wakes it once and returns `Pending`.

Each call of `poll_next` that finds no scancode at first registers the waker, and the next
interrupt takes it and queues the task.  When the scancode of that interrupt is found by the
second pop, the same poll goes on, registers the waker again, and nothing has taken the id out of
the ready queue meanwhile.  So the number of ids in the queue is bounded as long as such
interrupts come only when there is room; otherwise the queue fills up.
-/
import SilOS.Task.Keyboard

namespace SilOS.Task

open Lib

/-- The id of `shell_task`, the second task that is created. -/
def shellTask : TaskId := 1

/-- The system with the two tasks of the kernel. -/
structure Kernel where
  sys : System
  /-- In the current poll of the shell task, `yield_now` has called the waker. -/
  yielded : Bool
deriving DecidableEq

inductive KernelInput where
  | interrupt (scancode : UInt8)
  | timer
  | cpu
  /-- `yield_now` calls the waker of the shell task. -/
  | yieldNow
  /-- `yield_now` returns `Pending`, and so does the poll of the shell task. -/
  | suspend
deriving DecidableEq

namespace Kernel

/-- The step `i` of the system, after which the flag of `yield_now` is `y`. -/
def lift (k : Kernel) (i : Input) (y : Bool) : Except Refusal (Output × Kernel) :=
  (k.sys.step i).map fun (o, s) => (o, ⟨s, y⟩)

def step (k : Kernel) : KernelInput → Except Refusal (Output × Kernel)
  | .interrupt c => k.lift (.interrupt c) k.yielded
  | .timer => k.lift .timer k.yielded
  | .cpu => k.lift .cpu k.yielded
  | .yieldNow =>
      if k.sys.phase = .polling shellTask ∧ k.yielded = false then k.lift (.wake shellTask) true
      else .error .disabled
  | .suspend => if k.yielded then k.lift (.poll .pending) false else .error .disabled

def machine : Machine Kernel KernelInput Output Refusal := ⟨step⟩

/-- The kernel when `Executor::run` is entered. -/
def start : Kernel :=
  ⟨⟨⟨{shellTask, keyboardTask}, [keyboardTask, shellTask], ∅⟩, .ready, none, none, .start⟩, false⟩

/-- It is the state that the spawns of `kernel_main` lead to. -/
lemma boot_eq_start : System.boot [shellTask] = .ok start.sys := rfl

end Kernel

/-! ### The ids that are queued or can still be queued -/

namespace System

/-- One if a waker is registered. -/
def wakerLoad (s : System) : ℕ := if s.waker.isSome then 1 else 0

/-- How often the current poll of the keyboard task will still register the waker if no further
scancode comes between an empty first pop and the second pop. -/
def keyboardLoad (s : System) : ℕ :=
  match s.keyboard with
  | .start => if s.phase = .polling keyboardTask then 1 else 0
  | .firstPop => 1
  | .register => if s.pending = [] then 1 else 2
  | .secondPop => if s.pending = [] then 0 else 1
  | .suspended => 0

/-- One if the current poll of the shell task will still wake it. -/
def shellLoad (s : System) (yielded : Bool) : ℕ :=
  if s.phase = .polling shellTask ∧ yielded = false then 1 else 0

/-- The ids that are in the ready queue or that get there without another poll. -/
def load (s : System) (yielded : Bool) : ℕ :=
  s.exec.taskQueue.length + s.wakerLoad + s.keyboardLoad + s.shellLoad yielded

/-- There is room for the wake-ups that an interrupt causes which comes, with no scancode
waiting, after an empty first pop and before the second pop. -/
def WindowRoom (s : System) : Prop :=
  (s.keyboard = .register → s.pending = [] →
    s.exec.taskQueue.length + s.wakerLoad + 2 ≤ queueCapacity) ∧
  (s.keyboard = .secondPop → s.pending = [] →
    s.exec.taskQueue.length + s.wakerLoad + 1 ≤ queueCapacity)

/-- No scancode is waiting, and the keyboard task is between an empty first pop and the second
pop. -/
def inWindow (s : System) : Bool :=
  s.pending = [] ∧ (s.keyboard = .register ∨ s.keyboard = .secondPop)

variable {s s' : System} {o : Output} {y : Bool}

lemma keyboardLoad_congr (hpc : s'.keyboard = s.keyboard)
    (hphase : s'.phase = .polling keyboardTask ↔ s.phase = .polling keyboardTask)
    (hscan : s'.scancodeQueue = s.scancodeQueue) : s'.keyboardLoad = s.keyboardLoad := by
  have hpending : s'.pending = s.pending := by rw [pending, pending, hscan]
  unfold keyboardLoad
  rw [hpc]
  cases s.keyboard <;> simp [hphase, hpending]

lemma shellLoad_congr (hphase : s'.phase = .polling shellTask ↔ s.phase = .polling shellTask) :
    s'.shellLoad y = s.shellLoad y := by
  simp [shellLoad, hphase]

lemma shellLoad_le (s : System) (y : Bool) : s.shellLoad y ≤ 1 := by
  rw [shellLoad]
  split_ifs <;> simp

lemma shellLoad_eq_zero (h : s.phase ≠ .polling shellTask) : s.shellLoad y = 0 := by
  simp [shellLoad, h]

lemma shellLoad_keyboard (h : s.phase = .polling keyboardTask) : s.shellLoad y = 0 :=
  shellLoad_eq_zero (by simp [h, keyboardTask, shellTask])

/-- A change between phases in which the same task, or none, is polled. -/
lemma load_phase {p : LoopPhase} (h : ∀ id, p = .polling id ↔ s.phase = .polling id) :
    load { s with phase := p } y = s.load y := by
  have hkey : keyboardLoad { s with phase := p } = s.keyboardLoad :=
    keyboardLoad_congr rfl (h keyboardTask) rfl
  have hshell : shellLoad { s with phase := p } y = s.shellLoad y := shellLoad_congr (h shellTask)
  rw [load, hkey, hshell]
  rfl

/-- A scancode that comes in is paid for by the waker it takes, except after an empty first pop
and before the second pop, where it adds another round of `poll_next` to the same poll. -/
lemma load_accept {q : List UInt8} {c : UInt8} (h : WakeInv s) (hq : s.scancodeQueue = some q)
    (hscan : s'.scancodeQueue = some (q ++ [c])) (hphase : s'.phase = s.phase.resume)
    (hpc : s'.keyboard = s.keyboard)
    (hsum : s'.exec.taskQueue.length + s'.wakerLoad = s.exec.taskQueue.length + s.wakerLoad) :
    s'.load y ≤ s.load y + s.inWindow.toNat := by
  have hne : s'.pending ≠ [] := by simp [pending, hscan]
  have hshell : s'.shellLoad y = s.shellLoad y :=
    shellLoad_congr (by rw [hphase, LoopPhase.resume_eq_polling])
  have hk := h.keyboard
  unfold load
  rw [hshell, hsum]
  cases hcase : s.keyboard with
  | start =>
      simp only [KeyboardOk, hcase] at hk
      exact absurd (hq.symm.trans hk.1) (by simp)
  | firstPop | suspended =>
      simp only [keyboardLoad, hcase, hpc]
      omega
  | register | secondPop =>
      by_cases hp : s.pending = []
      · -- the second pop will find the scancode, so the poll goes on for another round
        have hwindow : s.inWindow = true := by simp [inWindow, hcase, hp]
        simp only [keyboardLoad, hpc, hcase, if_neg hne, if_pos hp, hwindow, Bool.toNat_true]
        omega
      · simp only [keyboardLoad, hpc, hcase, if_neg hne, if_neg hp]
        omega

/-- An interrupt in the window finds room if the load leaves room for one more id. -/
lemma windowRoom_of_load (h : s.inWindow = true → s.load y < queueCapacity) : s.WindowRoom := by
  refine ⟨fun hpc hp => ?_, fun hpc hp => ?_⟩
  · have hload := h (by simp [inWindow, hpc, hp])
    simp only [load, keyboardLoad, hpc, if_pos hp] at hload
    omega
  · have hload := h (by simp [inWindow, hpc, hp])
    simp only [load, keyboardLoad, hpc, if_pos hp] at hload
    omega

/-- The converse: between the two pops no other task is being polled. -/
lemma load_of_windowRoom (h : WakeInv s) (hroom : s.WindowRoom) (hwindow : s.inWindow = true) :
    s.load y < queueCapacity := by
  have hk := h.keyboard
  simp only [inWindow, decide_eq_true_eq] at hwindow
  obtain ⟨hp, hpc | hpc⟩ := hwindow
  · simp only [KeyboardOk, hpc] at hk
    have hfree := hroom.1 hpc hp
    simp only [load, keyboardLoad, hpc, if_pos hp, shellLoad_keyboard hk.1]
    omega
  · simp only [KeyboardOk, hpc] at hk
    have hfree := hroom.2 hpc hp
    simp only [load, keyboardLoad, hpc, if_pos hp, shellLoad_keyboard hk.1]
    omega

lemma load_queue_le {e : Executor} (hlen : e.taskQueue.length ≤ s.exec.taskQueue.length) :
    load { s with exec := e } y ≤ s.load y := by
  have hkey : keyboardLoad { s with exec := e } = s.keyboardLoad :=
    keyboardLoad_congr rfl Iff.rfl rfl
  have hshell : shellLoad { s with exec := e } y = s.shellLoad y := shellLoad_congr Iff.rfl
  rw [load, hkey, hshell, load]
  simpa [wakerLoad] using hlen

/-- The id that is taken pays for the poll of the keyboard task. -/
lemma load_polled_keyboard {e : Executor} (h : WakeInv s) (hphase : s.phase = .ready)
    (hlen : s.exec.taskQueue.length = e.taskQueue.length + 1) :
    (beginPoll { s with exec := e } keyboardTask).load y ≤ s.load y := by
  have hshell : (beginPoll { s with exec := e } keyboardTask).shellLoad y = 0 :=
    shellLoad_keyboard rfl
  have hkey : (beginPoll { s with exec := e } keyboardTask).keyboardLoad ≤ 1 := by
    have hk := h.keyboard
    cases hpc : s.keyboard with
    | start => simp [keyboardLoad, beginPoll]
    | suspended => simp [keyboardLoad, beginPoll]
    | firstPop | register | secondPop =>
        simp only [KeyboardOk, hpc] at hk
        exact absurd (hphase.symm.trans hk.1) (by simp)
  have hwaker : (beginPoll { s with exec := e } keyboardTask).wakerLoad = s.wakerLoad := rfl
  have hqueue : (beginPoll { s with exec := e } keyboardTask).exec = e := rfl
  rw [load, load, hshell, hwaker, hqueue]
  omega

/-- The id that is taken pays for the poll of another task. -/
lemma load_polled_other {e : Executor} {id : TaskId} (hphase : s.phase = .ready)
    (hid : id ≠ keyboardTask) (hlen : s.exec.taskQueue.length = e.taskQueue.length + 1) :
    (beginPoll { s with exec := e } id).load y ≤ s.load y := by
  have hkey : (beginPoll { s with exec := e } id).keyboardLoad = s.keyboardLoad :=
    keyboardLoad_congr (by simp [beginPoll, hid]) (by simp [beginPoll, hid, hphase]) rfl
  have hshell := shellLoad_le (beginPoll { s with exec := e } id) y
  have hwaker : (beginPoll { s with exec := e } id).wakerLoad = s.wakerLoad := rfl
  have hqueue : (beginPoll { s with exec := e } id).exec = e := rfl
  rw [load, load, hkey, hwaker, hqueue]
  omega

/-- A step of the executor or of the keyboard task does not add to the load: what is popped pays
for the poll that begins, and the poll for the waker that it registers. -/
lemma load_cpu (h : WakeInv s) (hstep : Step s .cpu o s') : s'.load y ≤ s.load y := by
  have hk := h.keyboard
  cases hstep with
  | drained hphase hq | masked hphase | halted hphase hq | unmasked hphase hq =>
      exact (load_phase (by simp [hphase])).le
  | skipped hphase hq hid =>
      exact load_queue_le (by simp [hq])
  | @polled id q hphase hq hid =>
      have hlen : s.exec.taskQueue.length = q.length + 1 := by rw [hq]; rfl
      by_cases hkey : id = keyboardTask
      · subst hkey
        exact load_polled_keyboard h hphase hlen
      · exact load_polled_other hphase hkey hlen
  | initialised hphase hpc hq =>
      simp only [load, wakerLoad, keyboardLoad, shellLoad, hphase, hpc]
      simp
  | missed hphase hpc hq =>
      simp only [load, wakerLoad, keyboardLoad, shellLoad, pending, hphase, hpc, hq]
      simp
  | @delivered c q hphase hpc hq =>
      rcases hpc with hpc | hpc <;>
        simp [load, wakerLoad, keyboardLoad, shellLoad, pending, hphase, hpc, hq]
  | registered hphase hpc =>
      simp only [load, wakerLoad, keyboardLoad, shellLoad, pending, hphase, hpc]
      split_ifs <;> simp_all
  | suspended hphase hpc hq =>
      simp [load, wakerLoad, keyboardLoad, shellLoad, pending, hphase, hpc, hq]

/-- The wake of `yield_now` was to come. -/
lemma load_enqueue_shell (hphase : s.phase = .polling shellTask) :
    (s.enqueue shellTask).load true = s.load false := by
  have hkey : (s.enqueue shellTask).keyboardLoad = s.keyboardLoad :=
    keyboardLoad_congr rfl Iff.rfl rfl
  have hwaker : (s.enqueue shellTask).wakerLoad = s.wakerLoad := rfl
  have hlen : (s.enqueue shellTask).exec.taskQueue.length = s.exec.taskQueue.length + 1 := by
    simp [enqueue]
  have hafter : (s.enqueue shellTask).shellLoad true = 0 := by simp [shellLoad]
  have hbefore : s.shellLoad false = 1 := by simp [shellLoad, hphase]
  rw [load, load, hkey, hwaker, hlen, hafter, hbefore]
  omega

lemma load_returned {id : TaskId} {result : Poll} {y' : Bool} (hphase : s.phase = .polling id)
    (hid : id ≠ keyboardTask) :
    load { s with exec := s.exec.complete id result, phase := .ready } y' ≤ s.load y := by
  have hkey : keyboardLoad { s with exec := s.exec.complete id result, phase := .ready } =
      s.keyboardLoad := keyboardLoad_congr rfl (by simp [hphase, hid]) rfl
  have hshell : shellLoad { s with exec := s.exec.complete id result, phase := .ready } y' = 0 :=
    shellLoad_eq_zero (by simp)
  rw [load, load, hkey, hshell, Executor.taskQueue_complete]
  simp [wakerLoad]

lemma addScancode_eq_panic {c : UInt8} (h : s.addScancode c = .error .panic) :
    s.wakerLoad = 1 ∧ queueCapacity ≤ s.exec.taskQueue.length := by
  rw [addScancode] at h
  split at h
  · exact absurd h (by simp)
  · split_ifs at h
    rw [map_eq_error, wakeKeyboard] at h
    split at h
    · exact absurd h (by simp)
    · rename_i id hwaker
      have hwaker' : s.waker = some id := hwaker
      exact ⟨by simp [wakerLoad, hwaker'], Executor.push_eq_panic.mp (map_eq_error.mp h)⟩

lemma WakeInv.cpuStep_ne_panic (h : WakeInv s) : s.cpuStep ≠ .error .panic := by
  intro hpanic
  rw [cpuStep] at hpanic
  split at hpanic
  · split at hpanic <;> exact absurd hpanic (by simp)
  · rename_i id hphase
    split_ifs at hpanic with hid
    · -- the queue is there from the first poll on
      have hk := h.keyboard
      rw [keyboardStep] at hpanic
      cases hpc : s.keyboard with
      | start =>
          simp only [KeyboardOk, hpc] at hk
          simp [hpc, hk.1] at hpanic
      | firstPop =>
          simp only [KeyboardOk, hpc] at hk
          obtain ⟨_ | ⟨c, q⟩, hq⟩ := Option.isSome_iff_exists.mp hk.2 <;> simp [hpc, hq] at hpanic
      | register => simp [hpc] at hpanic
      | secondPop =>
          simp only [KeyboardOk, hpc] at hk
          obtain ⟨_ | ⟨c, q⟩, hq⟩ := Option.isSome_iff_exists.mp hk.2.1 <;> simp [hpc, hq] at hpanic
      | suspended => simp [hpc] at hpanic
    · exact absurd hpanic (by simp)
  · exact absurd hpanic (by simp)
  · split_ifs at hpanic
  · exact absurd hpanic (by simp)

end System

namespace Kernel

open SilOS.Task.System

variable {k k' : Kernel} {o : Output}

/-- What holds of the kernel as long as the interrupts find room. -/
structure ReadyInv (k : Kernel) : Prop where
  wake : k.sys.WakeInv
  load : k.sys.load k.yielded ≤ queueCapacity

/-- A keyboard interrupt finds room if it comes after an empty first pop and before the second
pop. -/
def InterruptRoom (k : Kernel) (i : KernelInput) : Prop :=
  ∀ c, i = .interrupt c → k.sys.WindowRoom

lemma lift_eq_ok {i : Input} {y : Bool} (h : k.lift i y = .ok (o, k')) :
    ∃ s, System.Step k.sys i o s ∧ k' = ⟨s, y⟩ := by
  obtain ⟨⟨o₁, s⟩, hs, heq⟩ := map_eq_ok.mp h
  obtain ⟨rfl, rfl⟩ := Prod.mk.inj heq
  exact ⟨s, System.step_cases hs, rfl⟩

/-- The input is a keyboard interrupt in the window. -/
def windowInterrupt (k : Kernel) : KernelInput → Bool
  | .interrupt _ => k.sys.inWindow
  | .timer | .cpu | .yieldNow | .suspend => false

lemma load_interrupt {s : System} {c : UInt8} {y : Bool} (h : k.sys.WakeInv)
    (hstep : System.Step k.sys (.interrupt c) o s) :
    s.load y ≤ k.sys.load y + k.sys.inWindow.toNat := by
  cases hstep with
  | dropped hphase =>
      rw [load_phase fun id => LoopPhase.resume_eq_polling]
      omega
  | accepted hphase hq hwaker => exact load_accept h hq rfl rfl rfl rfl
  | acceptedWake hphase hq hwaker =>
      refine load_accept h hq rfl rfl rfl ?_
      simp [enqueue, wakerLoad, hwaker]

/-- **One step.**  Only an interrupt in the window adds to the load. -/
lemma load_step {i : KernelInput} (h : k.sys.WakeInv) (hstep : machine.step k i = .ok (o, k')) :
    k'.sys.WakeInv ∧
      k'.sys.load k'.yielded ≤ k.sys.load k.yielded + (k.windowInterrupt i).toNat := by
  cases i with
  | interrupt c =>
      obtain ⟨s, hs, rfl⟩ := lift_eq_ok hstep
      exact ⟨h.step hs, load_interrupt h hs⟩
  | timer =>
      obtain ⟨s, hs, rfl⟩ := lift_eq_ok hstep
      refine ⟨h.step hs, ?_⟩
      cases hs with
      | ticked hphase => exact (load_phase fun id => LoopPhase.resume_eq_polling).le
  | cpu =>
      obtain ⟨s, hs, rfl⟩ := lift_eq_ok hstep
      exact ⟨h.step hs, load_cpu h hs⟩
  | yieldNow =>
      simp only [machine, Kernel.step] at hstep
      split_ifs at hstep with hyield
      obtain ⟨s, hs, rfl⟩ := lift_eq_ok hstep
      refine ⟨h.step hs, ?_⟩
      cases hs with
      | woken hphase hid =>
          rw [hyield.2]
          exact (load_enqueue_shell hyield.1).le
  | suspend =>
      simp only [machine, Kernel.step] at hstep
      split_ifs at hstep with hyield
      obtain ⟨s, hs, rfl⟩ := lift_eq_ok hstep
      refine ⟨h.step hs, ?_⟩
      cases hs with
      | returned hphase hid => exact load_returned hphase hid

lemma ReadyInv.step {i : KernelInput} (h : k.ReadyInv) (hroom : k.InterruptRoom i)
    (hstep : machine.step k i = .ok (o, k')) : k'.ReadyInv := by
  obtain ⟨hwake, hload⟩ := load_step h.wake hstep
  refine ⟨hwake, ?_⟩
  have hbefore := h.load
  rcases hwindow : k.windowInterrupt i with - | -
  · rw [hwindow, Bool.toNat_false] at hload
    omega
  · cases i with
    | interrupt c =>
        have hfree := load_of_windowRoom (y := k.yielded) h.wake (hroom c rfl) hwindow
        rw [hwindow, Bool.toNat_true] at hload
        omega
    | timer | cpu | yieldNow | suspend => exact absurd hwindow (by simp [windowInterrupt])

/-- A push to the ready queue that the invariant allows finds a free slot. -/
lemma ReadyInv.step_ne_panic {i : KernelInput} (h : k.ReadyInv) :
    machine.step k i ≠ .error .panic := by
  intro hpanic
  have hload := h.load
  unfold System.load at hload
  cases i with
  | interrupt c =>
      have hsys := map_eq_error.mp hpanic
      rw [System.step, interrupted] at hsys
      split_ifs at hsys
      · exact absurd hsys (by simp)
      · obtain ⟨hwaker, hfull⟩ := addScancode_eq_panic (map_eq_error.mp hsys)
        omega
  | timer =>
      have hsys := map_eq_error.mp hpanic
      rw [System.step, interrupted] at hsys
      split_ifs at hsys <;> exact absurd hsys (by simp [Except.map])
  | cpu => exact h.wake.cpuStep_ne_panic (map_eq_error.mp hpanic)
  | yieldNow =>
      simp only [machine, Kernel.step] at hpanic
      split_ifs at hpanic with hyield
      · have hsys := map_eq_error.mp hpanic
        have hne : shellTask ≠ keyboardTask := by decide
        simp only [System.step, otherStep, hyield.1, if_neg hne] at hsys
        have hfull := Executor.push_eq_panic.mp (map_eq_error.mp hsys)
        have hshell : k.sys.shellLoad k.yielded = 1 := by simp [shellLoad, hyield]
        omega
      · exact absurd hpanic (by simp)
  | suspend =>
      simp only [machine, Kernel.step] at hpanic
      split_ifs at hpanic
      · have hsys := map_eq_error.mp hpanic
        rw [System.step, otherStep] at hsys
        split at hsys
        · split_ifs at hsys
          exact absurd hsys (by simp)
        · exact absurd hsys (by simp)
      · exact absurd hpanic (by simp)

lemma readyInv_start : start.ReadyInv :=
  ⟨wakeInv_boot boot_eq_start, by decide⟩

/-- With few interrupts in the window, all of them find room. -/
lemma interruptRoom_of_count {is : List KernelInput}
    (hcount : machine.count windowInterrupt start is + 2 ≤ queueCapacity) :
    machine.Along InterruptRoom start is := by
  refine machine.along_of_count (I := fun k => k.sys.WakeInv)
    (μ := fun k => k.sys.load k.yielded) (fun k i o k' h hstep => load_step h hstep) ?_
    readyInv_start.wake (Nat.add_comm 2 _ ▸ hcount)
  rintro k i - hfree c rfl
  exact windowRoom_of_load hfree

/-- In every interleaving of interrupts with the two tasks of the kernel, no push to the ready
queue fails, provided that the interrupts that come, with no scancode waiting, after an empty
first pop and before the second pop find room in the queue, or that there are at most 98 of them. -/
theorem ready_queue_never_full {is : List KernelInput}
    (hroom : machine.Along InterruptRoom start is ∨ machine.count windowInterrupt start is ≤ 98) :
    machine.run start is ≠ .error .panic := by
  have halong : machine.Along InterruptRoom start is := by
    rcases hroom with hroom | hcount
    · exact hroom
    · exact interruptRoom_of_count (by rw [queueCapacity]; omega)
  refine machine.run_ne_error (I := ReadyInv) ?_ ?_ readyInv_start halong
  · intro k i hk _
    exact hk.step_ne_panic
  · intro k i o k₁ hk hi hstep
    exact hk.step hi hstep

/-- The first poll of the keyboard task, with one interrupt after it registered its waker. -/
theorem ready_queue_never_full_one_interrupt :
    machine.count windowInterrupt start [.cpu, .cpu, .cpu, .cpu, .interrupt 30, .cpu] = 1 ∧
    machine.run start [.cpu, .cpu, .cpu, .cpu, .interrupt 30, .cpu] ≠ .error .panic := by
  have hcount : machine.count windowInterrupt start
      [.cpu, .cpu, .cpu, .cpu, .interrupt 30, .cpu] = 1 := by decide
  exact ⟨hcount, ready_queue_never_full (Or.inr (by rw [hcount]; omega))⟩

/-! ### The queue fills up -/

/-- One round of `poll_next` with the interrupt right after the waker was registered. -/
def windowRound : List KernelInput := [.cpu, .cpu] ++ [.interrupt 30, .cpu]

/-- The keyboard task before its first pop, with `n` copies of its id behind that of the shell
task. -/
def filled (n : ℕ) : Kernel :=
  ⟨⟨⟨{shellTask, keyboardTask}, shellTask :: List.replicate n keyboardTask, {keyboardTask}⟩,
    .polling keyboardTask, some [], none, .firstPop⟩, false⟩

/-- The keyboard task right after it registered its waker. -/
def registered (n : ℕ) : Kernel :=
  ⟨⟨⟨{shellTask, keyboardTask}, shellTask :: List.replicate n keyboardTask, {keyboardTask}⟩,
    .polling keyboardTask, some [], some keyboardTask, .secondPop⟩, false⟩

lemma run_register (n : ℕ) :
    machine.run (filled n) [.cpu, .cpu] = .ok ([.quiet, .quiet], registered n) := rfl

/-- The interrupt takes the waker and queues the task once more. -/
lemma step_interrupt (n : ℕ) : machine.step (registered n) (.interrupt 30) =
    if n + 1 < queueCapacity then .ok (.accepted 30, ⟨⟨(filled (n + 1)).sys.exec,
      .polling keyboardTask, some [30], none, .secondPop⟩, false⟩)
    else .error .panic := by
  have hpush : (registered n).sys.exec.push keyboardTask =
      if n + 1 < queueCapacity then .ok (filled (n + 1)).sys.exec else .error .panic := by
    simp only [Executor.push, filled, registered, List.length_cons, List.length_replicate,
      List.cons_append, List.replicate_succ']
  have hstep : machine.step (registered n) (.interrupt 30) =
      (((registered n).sys.exec.push keyboardTask).map fun e => (.accepted 30,
        ⟨⟨e, .polling keyboardTask, some [30], none, .secondPop⟩, false⟩)) := by
    rcases h : (registered n).sys.exec.push keyboardTask with f | e <;>
    · simp only [registered] at h
      simp [machine, Kernel.step, lift, System.step, interrupted, addScancode, wakeKeyboard,
        registered, Executor.wakeTask, scancodeCapacity, h, Except.map, LoopPhase.resume]
  rw [hstep, hpush]
  split_ifs <;> rfl

/-- A whole round: the second pop delivers the scancode, and the same poll goes on. -/
lemma run_windowRound {n : ℕ} (hn : n + 1 < queueCapacity) :
    ∃ os, machine.run (filled n) windowRound = .ok (os, filled (n + 1)) := by
  have hstep := step_interrupt n
  rw [if_pos hn] at hstep
  refine ⟨[.quiet, .quiet, .accepted 30, .delivered 30], ?_⟩
  rw [windowRound, machine.run_append (run_register n), machine.run_cons_of_step hstep]
  rfl

lemma run_rounds {m : ℕ} (hm : m < queueCapacity) :
    ∃ os, machine.run (filled 0) (List.replicate m windowRound).flatten = .ok (os, filled m) := by
  induction m with
  | zero => exact ⟨[], rfl⟩
  | succ m ih =>
      obtain ⟨os, hos⟩ := ih (Nat.lt_of_succ_lt hm)
      obtain ⟨os', hos'⟩ := run_windowRound hm
      rw [List.replicate_succ', List.flatten_append, machine.run_append hos,
        List.flatten_singleton, hos']
      exact ⟨os ++ os', rfl⟩

/-- The first poll of the keyboard task with an interrupt in the window of every round. -/
def overflowRun : List KernelInput :=
  [.cpu, .cpu] ++ ((List.replicate 99 windowRound).flatten ++ ([.cpu, .cpu] ++ [.interrupt 30]))

/-- The ready queue overflows within a single poll of the keyboard task. -/
theorem ready_queue_overflows : machine.run start overflowRun = .error .panic := by
  have hfirst : machine.run start [.cpu, .cpu] = .ok ([.quiet, .quiet], filled 0) := rfl
  obtain ⟨os, hos⟩ := run_rounds (m := 99) (by decide)
  have hlast : machine.step (registered 99) (.interrupt 30) = .error .panic := by
    rw [step_interrupt, if_neg (by decide)]
  rw [overflowRun, machine.run_append hfirst, machine.run_append hos,
    machine.run_append (run_register 99)]
  simp [Machine.run, hlast, Except.map]

/-! ### The kernel never sleeps -/

/-- The shell task is ready or being polled, and it does not return from a poll before it is ready
again. -/
structure Awake (k : Kernel) : Prop where
  live : shellTask ∈ k.sys.exec.tasks
  ready : shellTask ∈ k.sys.exec.taskQueue ∨ k.sys.phase = .polling shellTask
  yielded : k.yielded = true →
    k.sys.phase = .polling shellTask ∧ shellTask ∈ k.sys.exec.taskQueue
  running : k.sys.phase = .ready ∨ ∃ id, k.sys.phase = .polling id

/-- A step that leaves the executor's loop where it is and takes nothing from its queue. -/
lemma Awake.frame {s : System} (h : k.Awake) (hlive : s.exec.tasks = k.sys.exec.tasks)
    (hphase : s.phase = k.sys.phase)
    (hqueue : shellTask ∈ k.sys.exec.taskQueue → shellTask ∈ s.exec.taskQueue) :
    Awake ⟨s, k.yielded⟩ where
  live := hlive ▸ h.live
  ready := by
    rw [hphase]
    exact h.ready.imp_left hqueue
  yielded hy := by
    rw [hphase]
    exact (h.yielded hy).imp_right hqueue
  running := hphase ▸ h.running

lemma Awake.resume (h : k.Awake) : k.sys.phase.resume = k.sys.phase := by
  rcases h.running with hphase | ⟨id, hphase⟩ <;> rw [hphase] <;> rfl

/-- A step of the executor or of the keyboard task. -/
lemma Awake.cpu {s : System} (h : k.Awake) (hstep : System.Step k.sys .cpu o s) :
    Awake ⟨s, k.yielded⟩ := by
  -- between two polls the shell task is in the queue, and it has not yielded
  have hready : k.sys.phase ≠ .polling shellTask →
      shellTask ∈ k.sys.exec.taskQueue ∧ k.yielded = false := fun hphase =>
    ⟨h.ready.resolve_right hphase, by
      by_contra hy
      exact hphase (h.yielded (by simpa using hy)).1⟩
  cases hstep with
  | drained hphase hq =>
      have hmem := (hready (by simp [hphase])).1
      rw [hq] at hmem
      exact absurd hmem (List.not_mem_nil)
  | @skipped id q hphase hq hid =>
      obtain ⟨hmem, hyielded⟩ := hready (by simp [hphase])
      rw [hq] at hmem
      have hne : shellTask ≠ id := fun heq => hid (heq ▸ h.live)
      exact ⟨h.live, Or.inl (List.mem_of_ne_of_mem hne hmem),
        fun hy => absurd hy (by simp [hyielded]), Or.inl hphase⟩
  | @polled id q hphase hq hid =>
      obtain ⟨hmem, hyielded⟩ := hready (by simp [hphase])
      rw [hq] at hmem
      refine ⟨h.live, ?_, fun hy => absurd hy (by simp [hyielded]), Or.inr ⟨id, rfl⟩⟩
      rcases List.mem_cons.mp hmem with rfl | hmem
      · exact Or.inr rfl
      · exact Or.inl hmem
  | suspended hphase hpc hq =>
      obtain ⟨hmem, hyielded⟩ := hready (by simp [hphase, shellTask, keyboardTask])
      exact ⟨h.live, Or.inl hmem, fun hy => absurd hy (by simp [hyielded]), Or.inl rfl⟩
  | initialised | missed | delivered | registered => exact h.frame rfl rfl id
  | masked hphase | halted hphase | unmasked hphase =>
      rcases h.running with hrun | ⟨id, hrun⟩ <;> exact absurd (hphase.symm.trans hrun) (by simp)

lemma Awake.step {i : KernelInput} (h : k.Awake) (hstep : machine.step k i = .ok (o, k')) :
    k'.Awake := by
  cases i with
  | interrupt c =>
      obtain ⟨s, hs, rfl⟩ := lift_eq_ok hstep
      clear hstep
      cases hs with
      | dropped | accepted => exact h.frame rfl h.resume id
      | acceptedWake => exact h.frame rfl h.resume fun hmem => List.mem_append_left _ hmem
  | timer =>
      obtain ⟨s, hs, rfl⟩ := lift_eq_ok hstep
      clear hstep
      cases hs
      exact h.frame rfl h.resume id
  | cpu =>
      obtain ⟨s, hs, rfl⟩ := lift_eq_ok hstep
      exact h.cpu hs
  | yieldNow =>
      simp only [machine, Kernel.step] at hstep
      split_ifs at hstep with hpoll
      obtain ⟨s, hs, rfl⟩ := lift_eq_ok hstep
      clear hstep
      cases hs
      have hmem : shellTask ∈ k.sys.exec.taskQueue ++ [shellTask] := by simp
      exact ⟨h.live, Or.inl hmem, fun _ => ⟨hpoll.1, hmem⟩, h.running⟩
  | suspend =>
      simp only [machine, Kernel.step] at hstep
      split_ifs at hstep with hy
      obtain ⟨s, hs, rfl⟩ := lift_eq_ok hstep
      clear hstep
      cases hs
      exact ⟨h.live, Or.inl (h.yielded hy).2, fun hy => absurd hy (by simp), Or.inl rfl⟩

/-- **The kernel never sleeps.**  With the two tasks that `kernel_main` spawns, in every
interleaving, the executor is about to take a task from its queue or polls one: the shell task
calls its own waker each time before it suspends, so `sleep_if_idle` is never reached. -/
theorem never_sleeps {is : List KernelInput} {os : List Output}
    (hrun : machine.run start is = .ok (os, k)) :
    (k.sys.phase = .ready ∨ ∃ id, k.sys.phase = .polling id) ∧
      (shellTask ∈ k.sys.exec.taskQueue ∨ k.sys.phase = .polling shellTask) := by
  have hstart : start.Awake := ⟨by decide, by decide, by decide, Or.inl rfl⟩
  have hend := machine.run_history (J := fun _ k => Awake k) (fun _ _ _ _ _ h hs => h.step hs)
    hstart hrun
  exact ⟨hend.running, hend.ready⟩

/-- Both tasks have been polled once, and the shell task is the next one again. -/
theorem never_sleeps_first_round :
    ∃ k os, machine.run start [.cpu, .cpu, .cpu, .cpu, .cpu, .cpu, .yieldNow, .suspend] =
        .ok (os, k) ∧ k.sys.phase = .ready ∧
      (shellTask ∈ k.sys.exec.taskQueue ∨ k.sys.phase = .polling shellTask) := by
  have hrun : ∃ k os, machine.run start
      [.cpu, .cpu, .cpu, .cpu, .cpu, .cpu, .yieldNow, .suspend] = .ok (os, k) ∧
      k.sys.phase = .ready := ⟨_, _, rfl, rfl⟩
  obtain ⟨k, os, hrun, hphase⟩ := hrun
  exact ⟨k, os, hrun, hphase, (never_sleeps hrun).2⟩

end Kernel

end SilOS.Task
