/-
# From the keyboard to the commands

The way of a keystroke through the kernel.  The interrupt handler puts a scancode into
`SCANCODE_QUEUE`; the task `print_keypresses` takes it out, gives it to its `pc_keyboard` decoder
and puts the key event that comes of it into `KEY_EVENT_QUEUE`; `shell_task` takes the events out
with `pop_key`, gives them to a decoder of its own, edits its line with the keys and, when the
queue is empty, runs the line if Enter was among them.  A command such as `pong` or `eden` reads
the same queue while the shell waits for it.

The machine below takes these steps one at a time over the machine of `Task.ReadyQueue`, so that
an interrupt may come between any two of them.  What holds of every interleaving is that nothing
is lost, doubled or put out of order between the scancodes that were accepted and the events that
were read, and that the shell works as the batch-wise `ShellTask.commandsRun` does, on batches
that are cut out of what was typed.  The commands are those that were typed if no batch has a
character behind Enter: the shell runs a line only when it has read the whole batch.
-/
import SilOS.Task.ReadyQueue
import SilOS.Shell.Task

namespace SilOS.Task

open Lib

/-- The two stages of `pc_keyboard`, for a decoder with states `δ` and key events `ε`:
`add_byte` gives an event or none, `process_keyevent` a key or none. -/
structure Decoder (δ ε : Type) where
  addByte : δ → UInt8 → Option ε × δ
  processKeyevent : δ → ε → Option DecodedKey × δ

/-- Where `shell_task` is. -/
inductive ShellPc where
  /-- In the loop that takes events from the queue. -/
  | reading
  /-- Behind that loop: a command is running, or the task is about to yield. -/
  | command
deriving DecidableEq

/-- The kernel's tasks with what they keep. -/
structure Console (δ ε : Type) where
  kernel : Kernel
  /-- The decoder of `print_keypresses`. -/
  scancodeDecoder : δ
  /-- A scancode that `next` has returned and that is not decoded yet. -/
  inHand : Option UInt8
  /-- `KEY_EVENT_QUEUE`. -/
  events : List ε
  /-- The decoder of `shell_task`. -/
  eventDecoder : δ
  task : ShellTask
  pc : ShellPc

inductive ConsoleInput where
  | interrupt (scancode : UInt8)
  | timer
  /-- The next step of the executor or of `print_keypresses`. -/
  | cpu
  /-- `shell_task` calls `pop_key` and does what follows. -/
  | popKey
  /-- The command that the shell waits for calls `pop_key`.  It takes the first event of the same
  queue, and the shell never sees this event. -/
  | commandPopKey
  /-- `yield_now` calls the waker of the shell task. -/
  | yieldNow
  /-- `yield_now` returns `Pending`: the one at the end of the shell's loop, or one of the
  command's. -/
  | suspend (endOfLoop : Bool)
deriving DecidableEq

inductive ConsoleOutput (ε : Type) where
  | system (o : Output)
  /-- The shell has taken an event. -/
  | read (event : ε)
  /-- The shell has found the queue empty and runs the command, if there is one. -/
  | command (args : Option (List (List Char)))
  /-- A command has called `pop_key`. -/
  | commandRead (event : Option ε)

namespace Console

variable {δ ε : Type} (D : Decoder δ ε)

/-- A step of the kernel that leaves the rest alone. -/
def lift (c : Console δ ε) (i : KernelInput) : Except Refusal (ConsoleOutput ε × Console δ ε) :=
  (c.kernel.step i).map fun (o, k) => (.system o, { c with kernel := k })

/-- The body of the loop of `print_keypresses`. -/
def decode (c : Console δ ε) (scancode : UInt8) : Console δ ε :=
  { c with
    scancodeDecoder := (D.addByte c.scancodeDecoder scancode).2
    inHand := none
    events := c.events ++ (D.addByte c.scancodeDecoder scancode).1.toList }

/-- The next step of the executor or of `print_keypresses`, which decodes a scancode as soon as
it has got it. -/
def cpuStep (c : Console δ ε) : Except Refusal (ConsoleOutput ε × Console δ ε) :=
  match c.inHand with
  | some scancode =>
      if c.kernel.sys.phase = .polling keyboardTask then
        .ok (.system .quiet, c.decode D scancode)
      else .error .disabled
  | none =>
      (c.kernel.step .cpu).map fun (o, k) =>
        (.system o, { c with kernel := k, inHand := o.deliveredCode })

/-- A step of the shell task, which is being polled and has not yielded yet. -/
def shellStep (c : Console δ ε) (pc : ShellPc)
    (r : Except Refusal (ConsoleOutput ε × Console δ ε)) :
    Except Refusal (ConsoleOutput ε × Console δ ε) :=
  if c.kernel.sys.phase = .polling shellTask ∧ c.kernel.yielded = false ∧ c.pc = pc then r
  else .error .disabled

/-- `pop_key` in the shell's loop: a key goes into the line; with the queue empty, the loop ends
and the command is taken from the line. -/
def popKey (c : Console δ ε) : ConsoleOutput ε × Console δ ε :=
  match c.events with
  | event :: events =>
      (.read event, { c with
        events := events
        eventDecoder := (D.processKeyevent c.eventDecoder event).2
        task :=
          (D.processKeyevent c.eventDecoder event).1.toList.foldl ShellTask.handleKey c.task })
  | [] => (.command c.task.takeCommand.1, { c with task := c.task.takeCommand.2, pc := .command })

/-- One step. -/
def step (c : Console δ ε) : ConsoleInput → Except Refusal (ConsoleOutput ε × Console δ ε)
  | .interrupt scancode => c.lift (.interrupt scancode)
  | .timer => c.lift .timer
  | .cpu => c.cpuStep D
  | .popKey => c.shellStep .reading (.ok (c.popKey D))
  | .commandPopKey =>
      c.shellStep .command (.ok (.commandRead c.events.head?, { c with events := c.events.tail }))
  | .yieldNow => c.shellStep .command (c.lift .yieldNow)
  | .suspend endOfLoop =>
      ({ c with pc := if endOfLoop then .reading else c.pc } : Console δ ε).lift .suspend

/-- The console as a machine. -/
def machine : Machine (Console δ ε) ConsoleInput (ConsoleOutput ε) Refusal := ⟨step D⟩

/-- The console when `Executor::run` is entered; `Keyboard::new` gives the decoders. -/
def start (new : δ) : Console δ ε := ⟨.start, new, none, [], new, .start, .reading⟩

end Console

/-! ### What can be seen of a run -/

namespace ConsoleOutput

variable {ε : Type}

def acceptedCode : ConsoleOutput ε → Option UInt8
  | .system o => o.acceptedCode
  | _ => none

/-- The event that was taken from `KEY_EVENT_QUEUE`. -/
def takenEvent : ConsoleOutput ε → Option ε
  | .read event => some event
  | .commandRead event => event
  | _ => none

def readEvent : ConsoleOutput ε → Option ε
  | .read event => some event
  | _ => none

def commandArgs : ConsoleOutput ε → Option (List (List Char))
  | .command args => args
  | _ => none

/-- The scancodes whose push into `SCANCODE_QUEUE` succeeded. -/
def acceptedScancodes (os : List (ConsoleOutput ε)) : List UInt8 := os.filterMap acceptedCode

/-- The events that the shell and its commands have taken. -/
def takenEvents (os : List (ConsoleOutput ε)) : List ε := os.filterMap takenEvent

/-- The events that the shell has taken. -/
def readEvents (os : List (ConsoleOutput ε)) : List ε := os.filterMap readEvent

/-- The argument vectors passed to `run_cmd`. -/
def commands (os : List (ConsoleOutput ε)) : List (List (List Char)) := os.filterMap commandArgs

end ConsoleOutput

namespace Console

open ConsoleOutput

variable {δ ε : Type} {D : Decoder δ ε}

/-! ### What a step can do -/

lemma kernel_step_cases {k k' : Kernel} {i : KernelInput} {o : Output}
    (h : k.step i = .ok (o, k')) :
    ∃ j, System.Step k.sys j o k'.sys ∧ (j = .cpu → i = .cpu) := by
  cases i with
  | interrupt c =>
      obtain ⟨s, hs, rfl⟩ := Kernel.lift_eq_ok h
      exact ⟨_, hs, by simp⟩
  | timer =>
      obtain ⟨s, hs, rfl⟩ := Kernel.lift_eq_ok h
      exact ⟨_, hs, by simp⟩
  | cpu =>
      obtain ⟨s, hs, rfl⟩ := Kernel.lift_eq_ok h
      exact ⟨_, hs, by simp⟩
  | yieldNow =>
      rw [Kernel.step] at h
      split_ifs at h
      obtain ⟨s, hs, rfl⟩ := Kernel.lift_eq_ok h
      exact ⟨_, hs, by simp⟩
  | suspend =>
      rw [Kernel.step] at h
      split_ifs at h
      obtain ⟨s, hs, rfl⟩ := Kernel.lift_eq_ok h
      exact ⟨_, hs, by simp⟩

/-- Only the keyboard task gets scancodes delivered. -/
lemma deliveredCode_eq_none {s s' : System} {i : Input} {o : Output} (h : System.Step s i o s')
    (hi : i ≠ .cpu) : o.deliveredCode = none := by
  cases h <;> first | rfl | exact absurd rfl hi

/-- What a step of the console can do to the two queues, the decoders and the shell. -/
inductive Step (D : Decoder δ ε) (c : Console δ ε) : ConsoleOutput ε → Console δ ε → Prop
  | system {o : Output} {k : Kernel} {pc : ShellPc} (hdelivered : o.deliveredCode = none)
      (hpending : k.sys.pending = c.kernel.sys.pending ++ o.acceptedCode.toList) :
      Step D c (.system o) { c with kernel := k, pc := pc }
  | cpu {o : Output} {k : Kernel} (hhand : c.inHand = none)
      (hpending : o.deliveredCode.toList ++ k.sys.pending =
        c.kernel.sys.pending ++ o.acceptedCode.toList) :
      Step D c (.system o) { c with kernel := k, inHand := o.deliveredCode }
  | decode {scancode : UInt8} (hhand : c.inHand = some scancode) :
      Step D c (.system .quiet) (c.decode D scancode)
  | popKey (hpc : c.pc = .reading) : Step D c (c.popKey D).1 (c.popKey D).2
  | commandPopKey :
      Step D c (.commandRead c.events.head?) { c with events := c.events.tail }

lemma lift_cases {c c' : Console δ ε} {i : KernelInput} {o : ConsoleOutput ε} (pc : ShellPc)
    (hi : i ≠ .cpu) (h : ({ c with pc := pc } : Console δ ε).lift i = .ok (o, c')) :
    Step D c o c' := by
  obtain ⟨⟨o₁, k⟩, hk, heq⟩ := map_eq_ok.mp h
  obtain ⟨rfl, rfl⟩ := Prod.mk.inj heq
  obtain ⟨j, hj, hcpu⟩ := kernel_step_cases hk
  have hnone := deliveredCode_eq_none hj fun h => hi (hcpu h)
  have hmove := System.pending_step hj
  rw [hnone] at hmove
  exact .system hnone hmove

lemma shellStep_cases {c : Console δ ε} {pc : ShellPc}
    {r : Except Refusal (ConsoleOutput ε × Console δ ε)} {x : ConsoleOutput ε × Console δ ε}
    (h : c.shellStep pc r = .ok x) : c.pc = pc ∧ r = .ok x := by
  rw [shellStep] at h
  split_ifs at h with hc
  exact ⟨hc.2.2, h⟩

lemma step_cases {c c' : Console δ ε} {i : ConsoleInput} {o : ConsoleOutput ε}
    (h : (machine D).step c i = .ok (o, c')) : Step D c o c' := by
  cases i with
  | interrupt scancode => exact lift_cases c.pc (by simp) h
  | timer => exact lift_cases c.pc (by simp) h
  | cpu =>
      simp only [machine, step, cpuStep] at h
      split at h
      · rename_i scancode hhand
        split_ifs at h
        obtain ⟨rfl, rfl⟩ := Prod.mk.inj (Except.ok.inj h)
        exact .decode hhand
      · rename_i hhand
        obtain ⟨⟨o₁, k⟩, hk, heq⟩ := map_eq_ok.mp h
        obtain ⟨rfl, rfl⟩ := Prod.mk.inj heq
        obtain ⟨j, hj, -⟩ := kernel_step_cases hk
        exact .cpu hhand (System.pending_step hj)
  | popKey =>
      obtain ⟨hpc, heq⟩ := shellStep_cases h
      obtain ⟨rfl, rfl⟩ := Prod.mk.inj (Except.ok.inj heq)
      exact .popKey hpc
  | commandPopKey =>
      obtain ⟨-, heq⟩ := shellStep_cases h
      obtain ⟨rfl, rfl⟩ := Prod.mk.inj (Except.ok.inj heq)
      exact .commandPopKey
  | yieldNow => exact lift_cases c.pc (by simp) (shellStep_cases h).2
  | suspend endOfLoop => exact lift_cases _ (by simp) h

/-! ### The events -/

/-- The scancodes that are not decoded yet. -/
def waiting (c : Console δ ε) : List UInt8 := c.inHand.toList ++ c.kernel.sys.pending

/-- How the outputs so far account for the queues: the accepted scancodes are those that have
been decoded, and then those that wait; decoding has given the events that were taken and then
those in the queue. -/
def Accounts (D : Decoder δ ε) (new : δ) (os : List (ConsoleOutput ε)) (c : Console δ ε) : Prop :=
  ∃ done, acceptedScancodes os = done ++ c.waiting ∧
    transduce D.addByte new done = (takenEvents os ++ c.events, c.scancodeDecoder)

lemma filterMap_snoc {α β : Type} (f : α → Option β) (l : List α) (a : α) :
    (l ++ [a]).filterMap f = l.filterMap f ++ (f a).toList := by
  cases h : f a <;> simp [h]

lemma Accounts.step {new : δ} {os : List (ConsoleOutput ε)} {c c' : Console δ ε}
    {o : ConsoleOutput ε} (h : Accounts D new os c) (hstep : Step D c o c') :
    Accounts D new (os ++ [o]) c' := by
  obtain ⟨done, hcodes, hevents⟩ := h
  have hcodes' : acceptedScancodes (os ++ [o]) =
      done ++ (c.waiting ++ o.acceptedCode.toList) := by
    rw [acceptedScancodes, filterMap_snoc, ← acceptedScancodes, hcodes, List.append_assoc]
  have htaken : takenEvents (os ++ [o]) = takenEvents os ++ o.takenEvent.toList :=
    filterMap_snoc _ _ _
  cases hstep with
  | @system o k pc hdelivered hpending =>
      refine ⟨done, ?_, ?_⟩
      · rw [hcodes']
        simp [waiting, acceptedCode, hpending]
      · rw [hevents, htaken]
        simp [takenEvent]
  | @cpu o k hhand hpending =>
      refine ⟨done, ?_, ?_⟩
      · rw [hcodes']
        simp [waiting, acceptedCode, hpending, hhand]
      · rw [hevents, htaken]
        simp [takenEvent]
  | @decode scancode hhand =>
      refine ⟨done ++ [scancode], ?_, ?_⟩
      · rw [hcodes']
        simp [waiting, acceptedCode, Output.acceptedCode, decode, hhand]
      · rw [transduce_append, hevents, transduce_singleton, htaken]
        simp [takenEvent, decode]
  | popKey hpc =>
      -- an event goes from the queue to those that were taken, or the queue is empty
      refine ⟨done, ?_, ?_⟩
      · rw [hcodes']
        rcases hq : c.events with _ | ⟨event, events⟩ <;> simp [popKey, hq, waiting, acceptedCode]
      · rw [hevents, htaken]
        rcases hq : c.events with _ | ⟨event, events⟩ <;> simp [popKey, hq, takenEvent]
  | commandPopKey =>
      refine ⟨done, ?_, ?_⟩
      · rw [hcodes']
        simp [waiting, acceptedCode]
      · rw [hevents, htaken]
        rcases hq : c.events with _ | ⟨event, events⟩ <;> simp [takenEvent]

/-! ### The commands -/

/-- The keys that the shell has read, cut where it found the queue empty. -/
structure Batches (δ : Type) where
  complete : List (List DecodedKey)
  /-- The keys read since. -/
  current : List DecodedKey
  decoder : δ

namespace Batches

def add (D : Decoder δ ε) (b : Batches δ) : ConsoleOutput ε → Batches δ
  | .read event =>
      { b with
        current := b.current ++ (D.processKeyevent b.decoder event).1.toList
        decoder := (D.processKeyevent b.decoder event).2 }
  | .command _ => { b with complete := b.complete ++ [b.current], current := [] }
  | _ => b

/-- The batches that show in the outputs of a run. -/
def of (D : Decoder δ ε) (new : δ) (os : List (ConsoleOutput ε)) : Batches δ :=
  os.foldl (add D) ⟨[], [], new⟩

lemma of_snoc (new : δ) (os : List (ConsoleOutput ε)) (o : ConsoleOutput ε) :
    of D new (os ++ [o]) = (of D new os).add D o := by
  simp [of]

/-- The state of the shell task after the batches. -/
def task (b : Batches δ) : ShellTask :=
  (b.complete.foldl (fun t batch => (t.iteration batch).2) ShellTask.start).drain b.current

/-- Cutting leaves the keys and their order as they are. -/
lemma transduce_readEvents (new : δ) (os : List (ConsoleOutput ε)) :
    transduce D.processKeyevent new (readEvents os) =
      ((of D new os).complete.flatten ++ (of D new os).current, (of D new os).decoder) := by
  induction os using List.reverseRecOn with
  | nil => rfl
  | append_singleton os o ih =>
      rw [readEvents, filterMap_snoc, ← readEvents, transduce_append, ih, of_snoc]
      cases o <;> simp [readEvent, add, transduce_singleton]

end Batches

lemma commandsRun_snoc (t : ShellTask) (batches : List (List DecodedKey))
    (batch : List DecodedKey) :
    t.commandsRun (batches ++ [batch]) = t.commandsRun batches ++
      ((batches.foldl (fun t batch => (t.iteration batch).2) t).iteration batch).1.toList := by
  induction batches generalizing t with
  | nil => simp [ShellTask.commandsRun]
  | cons b batches ih =>
      rw [List.cons_append, ShellTask.commandsRun, ih, ShellTask.commandsRun, List.append_assoc,
        List.foldl_cons]

/-- The shell is where the batches in the outputs so far bring it, and has run their commands. -/
structure Batched (D : Decoder δ ε) (new : δ) (os : List (ConsoleOutput ε)) (c : Console δ ε) :
    Prop where
  decoder : c.eventDecoder = (Batches.of D new os).decoder
  task : c.task = (Batches.of D new os).task
  commands : commands os = ShellTask.start.commandsRun (Batches.of D new os).complete

lemma Batched.frame {new : δ} {os : List (ConsoleOutput ε)} {c c' : Console δ ε}
    {o : ConsoleOutput ε} (h : Batched D new os c)
    (hadd : ∀ b : Batches δ, b.add D o = b) (hcommand : o.commandArgs = none)
    (hdecoder : c'.eventDecoder = c.eventDecoder) (htask : c'.task = c.task) :
    Batched D new (os ++ [o]) c' := by
  have hof : Batches.of D new (os ++ [o]) = Batches.of D new os := by
    rw [Batches.of_snoc, hadd]
  refine ⟨?_, ?_, ?_⟩
  · rw [hof, hdecoder, h.decoder]
  · rw [hof, htask, h.task]
  · rw [hof, ← h.commands, ConsoleOutput.commands, filterMap_snoc, hcommand, Option.toList_none,
      List.append_nil]
    rfl

lemma Batched.popKey {new : δ} {os : List (ConsoleOutput ε)} {c : Console δ ε}
    (h : Batched D new os c) : Batched D new (os ++ [(c.popKey D).1]) (c.popKey D).2 := by
  have htask := h.task
  rw [Batches.task] at htask
  rcases hq : c.events with _ | ⟨event, events⟩
  · -- the batch is complete
    refine ⟨?_, ?_, ?_⟩
    · simp [Batches.of_snoc, Batches.add, Console.popKey, hq, h.decoder]
    · simp [Batches.of_snoc, Batches.add, Batches.task, Console.popKey, hq, htask,
        ShellTask.iteration, ShellTask.drain]
    · rw [ConsoleOutput.commands, filterMap_snoc, ← ConsoleOutput.commands, h.commands]
      simp [Batches.of_snoc, Batches.add, Console.popKey, hq, commandArgs, htask,
        commandsRun_snoc, ShellTask.iteration]
  · refine ⟨?_, ?_, ?_⟩
    · simp [Batches.of_snoc, Batches.add, Console.popKey, hq, h.decoder]
    · simp [Batches.of_snoc, Batches.add, Batches.task, Console.popKey, hq, htask, h.decoder,
        ShellTask.drain]
    · rw [ConsoleOutput.commands, filterMap_snoc, ← ConsoleOutput.commands, h.commands]
      simp [Batches.of_snoc, Batches.add, Console.popKey, hq, commandArgs]

lemma Batched.step {new : δ} {os : List (ConsoleOutput ε)} {c c' : Console δ ε}
    {o : ConsoleOutput ε} (h : Batched D new os c) (hstep : Step D c o c') :
    Batched D new (os ++ [o]) c' := by
  cases hstep with
  | popKey => exact h.popKey
  | system | cpu | decode | commandPopKey => exact h.frame (fun _ => rfl) rfl rfl rfl

/-! ### Whole runs -/

lemma accounts_of_run {new : δ} {is : List ConsoleInput} {os : List (ConsoleOutput ε)}
    {c : Console δ ε} (hrun : (machine D).run (start new) is = .ok (os, c)) :
    Accounts D new os c :=
  (machine D).run_history (J := Accounts D new) (fun _ _ _ _ _ h hstep => h.step (step_cases hstep))
    ⟨[], rfl, rfl⟩ hrun

lemma batched_of_run {new : δ} {is : List ConsoleInput} {os : List (ConsoleOutput ε)}
    {c : Console δ ε} (hrun : (machine D).run (start new) is = .ok (os, c)) :
    Batched D new os c :=
  (machine D).run_history (J := Batched D new) (fun _ _ _ _ _ h hstep => h.step (step_cases hstep))
    ⟨rfl, rfl, rfl⟩ hrun

/-- The keys in the shell's batches fit into a byte. -/
lemma fitsByte_of_complete
    (hfits : ∀ d event key, (D.processKeyevent d event).1 = some key → ShellTask.FitsByte key)
    (new : δ) (os : List (ConsoleOutput ε)) :
    ∀ batch ∈ (Batches.of D new os).complete, ∀ key ∈ batch, ShellTask.FitsByte key := by
  intro batch hbatch key hkey
  have hmem : key ∈ (transduce D.processKeyevent new (readEvents os)).1 := by
    rw [Batches.transduce_readEvents]
    exact List.mem_append_left _ (List.mem_flatten_of_mem hbatch hkey)
  obtain ⟨d, event, hd⟩ := exists_of_mem_transduce D.processKeyevent hmem
  exact hfits d event key hd

/-- **From the keyboard to the commands.**  In every interleaving of interrupts with the steps of
the two tasks, the key events of the accepted scancodes are those that were taken from the queue,
those in the queue and those still to be decoded, in this order.  The keys of the events that the
shell has read are those of its batches, in order; as long as no command has taken an event, these
are the first keys that were typed.  The shell has run the commands of the keys with each batch
settled, that is, with the Enters of the batch behind its other keys and as one; if in every batch
only Enter and keys without a character come after Enter, these are the commands of the keys as they
are.  The history is the list of these commands. -/
theorem commands_of_keystrokes
    (hfits : ∀ d event key, (D.processKeyevent d event).1 = some key → ShellTask.FitsByte key)
    {new : δ} {is : List ConsoleInput} {os : List (ConsoleOutput ε)} {c : Console δ ε}
    (hrun : (machine D).run (start new) is = .ok (os, c)) :
    (transduce D.addByte new (acceptedScancodes os)).1 =
        takenEvents os ++ c.events ++ (transduce D.addByte c.scancodeDecoder c.waiting).1 ∧
      (transduce D.processKeyevent new (readEvents os)).1 =
        (Batches.of D new os).complete.flatten ++ (Batches.of D new os).current ∧
      (takenEvents os = readEvents os →
        (Batches.of D new os).complete.flatten ++ (Batches.of D new os).current <+:
          (transduce D.processKeyevent new
            (transduce D.addByte new (acceptedScancodes os)).1).1) ∧
      commands os =
        ShellTask.typedCommands [] ((Batches.of D new os).complete.flatMap ShellTask.settle) ∧
      ((∀ batch ∈ (Batches.of D new os).complete, ShellTask.EnterLast batch) →
        commands os = ShellTask.typedCommands [] (Batches.of D new os).complete.flatten) ∧
      c.task.shell.pastCmd = commands os := by
  obtain ⟨done, hcodes, hevents⟩ := accounts_of_run hrun
  have hbatched := batched_of_run hrun
  have hkeys := Batches.transduce_readEvents (D := D) new os
  have haccepted : (transduce D.addByte new (acceptedScancodes os)).1 =
      takenEvents os ++ c.events ++ (transduce D.addByte c.scancodeDecoder c.waiting).1 := by
    rw [hcodes, transduce_append, hevents]
  have hcommands : commands os =
      ShellTask.typedCommands [] ((Batches.of D new os).complete.flatMap ShellTask.settle) :=
    hbatched.commands.trans (ShellTask.commandsRun_eq rfl (fitsByte_of_complete hfits new os))
  refine ⟨haccepted, by rw [hkeys], fun hshell => ?_, hcommands, fun hlast => ?_, ?_⟩
  · rw [haccepted, hshell, List.append_assoc, transduce_append, hkeys]
    exact List.prefix_append _ _
  · rw [hcommands, ShellTask.typedCommands_flatMap_settle hlast]
  · rw [hbatched.task, Batches.task, ShellTask.pastCmd_drain, ShellTask.pastCmd_eq_commandsRun,
      hbatched.commands]
    rfl

/-- A decoder that makes of every byte an event, and of every event the character with its
number. -/
def plainDecoder : Decoder Unit UInt8 where
  addByte _ scancode := (some scancode, ())
  processKeyevent _ event := (some (.unicode (Char.ofNat event.toNat)), ())

lemma fitsByte_plainDecoder (d : Unit) (event : UInt8) (key : DecodedKey)
    (h : (plainDecoder.processKeyevent d event).1 = some key) : ShellTask.FitsByte key := by
  obtain rfl := Option.some.inj h
  have hlt : event.toNat < 256 := event.toNat_lt
  have hvalid : event.toNat.isValidChar := Or.inl (by omega)
  simpa [ShellTask.FitsByte, Char.ofNat, hvalid, Char.toNat, Char.ofNatAux] using hlt

/-- `l`, Enter and `s` are typed, the last one while the shell is reading. -/
def typeAhead : List ConsoleInput :=
  [.cpu, .cpu, .interrupt 108, .interrupt 10, .cpu, .cpu, .cpu, .cpu, .cpu, .cpu, .cpu, .cpu,
    .popKey, .interrupt 115, .popKey, .popKey]

/-- What shows of `typeAhead`: the command `l` is run, and `s` waits for the keyboard task. -/
theorem commands_of_keystrokes_typeAhead :
    ∃ os c, (machine plainDecoder).run (start ()) typeAhead = .ok (os, c) ∧
      c.kernel.sys.pending = [115] ∧ c.task.shell.pastCmd = commands os ∧
      commands os = [["l".toList]] := by
  have hrun : ∃ os c, (machine plainDecoder).run (start ()) typeAhead = .ok (os, c) ∧
      c.kernel.sys.pending = [115] ∧ commands os = [["l".toList]] := ⟨_, _, rfl, rfl, rfl⟩
  obtain ⟨os, c, hrun, hpending, hcommands⟩ := hrun
  exact ⟨os, c, hrun, hpending,
    (commands_of_keystrokes fitsByte_plainDecoder hrun).2.2.2.2.2, hcommands⟩

/-! ### One poll of the shell -/

/-- The shell task is being polled and takes events from the queue. -/
structure Reading (c : Console δ ε) : Prop where
  polled : c.kernel.sys.phase = .polling shellTask
  yielded : c.kernel.yielded = false
  pc : c.pc = .reading

/-- An interrupt comes back to the shell. -/
lemma Reading.interrupted {c : Console δ ε} {s : System} (h : c.Reading)
    (hphase : s.phase = c.kernel.sys.phase.resume) :
    Reading { c with kernel := ⟨s, c.kernel.yielded⟩ } :=
  ⟨hphase.trans (LoopPhase.resume_eq_polling.mpr h.polled), h.yielded, h.pc⟩

/-- A step while the shell is reading: nothing is put into the queue. -/
lemma Reading.step {c c' : Console δ ε} {i : ConsoleInput} {o : ConsoleOutput ε} (h : c.Reading)
    (hstep : (machine D).step c i = .ok (o, c')) :
    (c'.Reading ∧ o.readEvent.toList ++ c'.events = c.events ∧ ∀ args, o ≠ .command args) ∨
      (∃ args, o = .command args) ∧ c.events = [] := by
  have hne : shellTask ≠ keyboardTask := by decide
  cases i with
  | interrupt scancode =>
      obtain ⟨⟨o₁, k⟩, hk, heq⟩ := map_eq_ok.mp hstep
      obtain ⟨rfl, rfl⟩ := Prod.mk.inj heq
      obtain ⟨s, hs, rfl⟩ := Kernel.lift_eq_ok hk
      have hphase : s.phase = c.kernel.sys.phase.resume := by
        clear hk hstep heq
        cases hs <;> rfl
      exact Or.inl ⟨h.interrupted hphase, rfl, by simp⟩
  | timer =>
      obtain ⟨⟨o₁, k⟩, hk, heq⟩ := map_eq_ok.mp hstep
      obtain ⟨rfl, rfl⟩ := Prod.mk.inj heq
      obtain ⟨s, hs, rfl⟩ := Kernel.lift_eq_ok hk
      have hphase : s.phase = c.kernel.sys.phase.resume := by
        clear hk hstep heq
        cases hs
        rfl
      exact Or.inl ⟨h.interrupted hphase, rfl, by simp⟩
  | cpu =>
      -- the processor is with the shell task
      exfalso
      have hpolled := h.polled
      simp only [machine, Console.step, cpuStep] at hstep
      split at hstep
      · simp [hpolled, hne] at hstep
      · simp [Kernel.step, Kernel.lift, System.step, System.cpuStep, hpolled, hne, Except.map]
          at hstep
  | popKey =>
      obtain ⟨-, heq⟩ := shellStep_cases hstep
      obtain ⟨rfl, rfl⟩ := Prod.mk.inj (Except.ok.inj heq)
      rcases hq : c.events with _ | ⟨event, events⟩
      · exact Or.inr ⟨⟨c.task.takeCommand.1, rfl⟩, rfl⟩
      · exact Or.inl ⟨⟨h.polled, h.yielded, h.pc⟩, rfl, by simp⟩
  | commandPopKey | yieldNow =>
      have hpc := (shellStep_cases hstep).1
      rw [h.pc] at hpc
      exact absurd hpc (by simp)
  | suspend endOfLoop =>
      have hyielded := h.yielded
      simp [machine, Console.step, lift, Kernel.step, hyielded, Except.map] at hstep

/-- What a run from a state in which the shell reads has done so far: up to the first command, the
events read and those left are the queue at the start. -/
structure ReadFrom (queue : List ε) (os : List (ConsoleOutput ε)) (c : Console δ ε) : Prop where
  reading : (∀ args, .command args ∉ os) → c.Reading ∧ readEvents os ++ c.events = queue
  batch : ∀ os₁ args os₂, os = os₁ ++ .command args :: os₂ → (∀ args, .command args ∉ os₁) →
    readEvents os₁ = queue

lemma ReadFrom.step {queue : List ε} {os : List (ConsoleOutput ε)} {c c' : Console δ ε}
    {i : ConsoleInput} {o : ConsoleOutput ε} (h : ReadFrom queue os c)
    (hstep : (machine D).step c i = .ok (o, c')) : ReadFrom queue (os ++ [o]) c' := by
  constructor
  · intro hnone
    obtain ⟨hreading, hqueue⟩ := h.reading fun args hmem => hnone args (by simp [hmem])
    rcases hreading.step hstep with ⟨hnext, hevents, -⟩ | ⟨⟨args, rfl⟩, -⟩
    · refine ⟨hnext, ?_⟩
      rw [readEvents, filterMap_snoc, ← readEvents, List.append_assoc, hevents, hqueue]
    · exact absurd (by simp) (hnone args)
  · intro os₁ args os₂ hsplit hfirst
    rcases List.eq_nil_or_concat os₂ with rfl | ⟨os₂, o₂, rfl⟩
    · -- the command is the output of this step
      obtain ⟨rfl, hlast⟩ := List.append_inj' hsplit rfl
      obtain ⟨hreading, hqueue⟩ := h.reading hfirst
      rcases hreading.step hstep with ⟨-, -, hne⟩ | ⟨-, hempty⟩
      · exact absurd (List.singleton_inj.mp hlast) (hne args)
      · rwa [hempty, List.append_nil] at hqueue
    · have hsplit' : os ++ [o] = (os₁ ++ .command args :: os₂) ++ [o₂] := by simpa using hsplit
      exact h.batch os₁ args os₂ (List.append_inj' hsplit' rfl).1 hfirst

/-- **A batch is the queue.**  Whatever interrupts come while the shell reads, the events it takes
before it finds the queue empty are those that were in the queue at the start, in order. -/
theorem batch_eq_queue {c c' : Console δ ε} {is : List ConsoleInput}
    {os os' : List (ConsoleOutput ε)} {args : Option (List (List Char))} (hreading : c.Reading)
    (hrun : (machine D).run c is = .ok (os ++ .command args :: os', c'))
    (hfirst : ∀ args, .command args ∉ os) : readEvents os = c.events := by
  have hstart : ReadFrom c.events [] c :=
    ⟨fun _ => ⟨hreading, rfl⟩, fun os₁ args os₂ h => absurd h (by simp)⟩
  have hend := (machine D).run_history (J := ReadFrom c.events) (fun _ _ _ _ _ h hs => h.step hs)
    hstart hrun
  exact hend.batch os args os' rfl hfirst

/-- The shell is being polled, with `l` and Enter in the queue. -/
def lineTyped : Console Unit UInt8 :=
  ⟨⟨⟨⟨{shellTask, keyboardTask}, [], {keyboardTask, shellTask}⟩, .polling shellTask, some [],
    some keyboardTask, .suspended⟩, false⟩, (), none, [108, 10], (), .start, .reading⟩

/-- The character typed while the shell reads is not part of the batch. -/
theorem batch_eq_queue_typeAhead :
    readEvents [.read (108 : UInt8), .system (.accepted 115), .read 10] = lineTyped.events := by
  have hrun : ∃ c', (machine plainDecoder).run lineTyped
      [.popKey, .interrupt 115, .popKey, .popKey] =
      .ok ([.read 108, .system (.accepted 115), .read 10] ++ [.command (some ["l".toList])], c') :=
    ⟨_, rfl⟩
  obtain ⟨c', hrun⟩ := hrun
  exact batch_eq_queue ⟨rfl, rfl, rfl⟩ hrun (by simp)

end Console

end SilOS.Task
