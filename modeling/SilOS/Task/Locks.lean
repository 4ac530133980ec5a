/-
# The locks of the kernel

The state of the kernel is in statics behind spin locks, and the kernel runs on one processor.  A
task that takes a lock which it already holds, or which was held by another task when that one
yielded, or an interrupt handler that takes a lock of the task under it, waits for ever.

The functions of the kernel are gone through here for their locks alone: where a guard is taken and
dropped, where interrupts are masked, where a task yields.  `kernel_goes_on`: in every interleaving
of interrupts with the tasks, whatever commands and programs are run, the kernel goes on until
`quit` halts it, with one exception.  The screen is locked by the handler of the keyboard when it
warns that the queue of scancodes is full, so whoever else locks it masks interrupts meanwhile; the
command `clear` does not, and `clear_hangs` is what then can happen.

Left out are the lock of the heap, which no handler takes and in which no other lock is taken, and
panics and exceptions, which end in printing and halting.
-/
import SilOS.Lib.Locks
import SilOS.Shell.Commands

namespace SilOS.Locks

open Lib.Locks

/-- The statics behind locks. -/
inductive Lock where
  | shell | fs | ide | writer | commands | keyEventQueue | pics
deriving DecidableEq

/-- What a command runs: a function of `src/commands.rs`, or the closure of `bind`. -/
inductive Proc where
  | handler (f : Handler)
  | wrapper
deriving DecidableEq

abbrev KernelCode := Code Lock Proc

open Code

/-! ### The screen and the keyboard -/

/-- `_print`, `_backspace`, `write_char_at` and `clear_screen` of `src/vga_buffer.rs`. -/
def onScreen : KernelCode := masked (locked .writer work)

/-- `print!` and `println!` -/
def print : KernelCode := onScreen

/-- `pop_key` of `src/input.rs` -/
def popKey : KernelCode := locked .keyEventQueue work

/-! ### The file system -/

/-- A function that takes `IDE` for as long as it runs: `get_fat_entry`, `find_free_cluster`,
`set_fat_entry`, `find_empty_root_slot`, `find_file_location` and `find_file`. -/
def onDrive : KernelCode := locked .ide work

def getFatEntry : KernelCode := onDrive

def findFreeCluster : KernelCode := onDrive

def setFatEntry : KernelCode := onDrive

def findEmptyRootSlot : KernelCode := onDrive

def findFileLocation : KernelCode := onDrive

def findFile : KernelCode := onDrive

/-- `read_file`: the sectors of a cluster are read one by one. -/
def readFile : KernelCode := loop (seq (loop onDrive) (either work getFatEntry))

/-- The loop of `write_new_file` and `overwrite_file`, and what comes after it: it ends with a full
disk, or the directory is written. -/
def writeClusters : KernelCode :=
  seq (loop (block [findFreeCluster, setFatEntry, either work setFatEntry, onDrive]))
    (either findFreeCluster onDrive)

def writeNewFile : KernelCode := seq findEmptyRootSlot (either work writeClusters)

def freeClusterChain : KernelCode := loop (seq getFatEntry setFatEntry)

def overwriteFile : KernelCode :=
  seq findFileLocation (either work (seq (either work freeClusterChain) writeClusters))

/-- `format_drive` prints before it gives back the drive. -/
def formatDrive : KernelCode := locked .ide (seq work print)

/-- `fat16::init` takes `FS` while it has the drive; everyone else takes them the other way
around. -/
def fatInit : KernelCode := locked .ide (either print (seq print (locked .fs work)))

/-! ### The commands -/

section Commands

/-- The functions that the commands of the table may run. -/
def procs (cmds : List Handler) : List Proc := .wrapper :: cmds.map .handler

variable (cmds : List Handler)

/-- `run_cmd`, and the future that it returns. -/
def runCmd : KernelCode := seq (locked .commands work) (either work (call (procs cmds)))

/-- `interpret`: the list of commands is read, and a program runs commands and prints what they
return. -/
def interpret : KernelCode :=
  either work (seq (locked .commands work) (loop (seq (runCmd cmds) (either work print))))

/-- `PongGame::run`: the canvas is written to without a lock. -/
def pong : KernelCode := loop (seq (loop popKey) (either work yield))

/-- `clear` does not mask interrupts. -/
def clear : KernelCode := locked .writer work

def history : KernelCode := locked .shell (loop print)

def echo : KernelCode := either work print

def parseCmd : KernelCode := either work (interpret cmds)

def bind : KernelCode := either work (locked .commands work)

def read : KernelCode := either work (seq onDrive (loop print))

def readAsString : KernelCode := either work (seq onDrive print)

def write : KernelCode := either work onDrive

def makeFile : KernelCode := either work (locked .fs (either work writeNewFile))

def catFile : KernelCode :=
  either work (locked .fs (either work
    (seq findFile (either work (seq readFile (either work (block [print, print, print])))))))

/-- `run_file` gives back the file system before the program runs. -/
def runFile : KernelCode :=
  either work (seq (locked .fs (either work (seq findFile (either work readFile))))
    (either work (interpret cmds)))

def edit : KernelCode := either work (locked .fs (either work overwriteFile))

/-- `Editor::draw` -/
def draw : KernelCode := seq onScreen (loop onScreen)

/-- `run_editor`: the file is read, keys are taken and the text is drawn, and it is written back. -/
def runEdit : KernelCode :=
  block [locked .fs (either work (seq findFile (either work readFile))), draw,
    loop (block [loop popKey, either work draw, yield]), loop popKey, onScreen,
    locked .fs (either work (seq findFile (either overwriteFile writeNewFile)))]

/-- `quit` with `shutdown`: both locks are waited for, and interrupts stay disabled. -/
def quit : KernelCode :=
  block [print, locked .fs work, onDrive, masked (block [print, halt])]

def body : Proc → KernelCode
  | .handler .pong => pong
  | .handler .clear => clear
  | .handler .history => history
  | .handler .echo => echo
  | .handler .parseCmd => parseCmd cmds
  | .handler .bind => bind
  | .handler .read => read
  | .handler .write => write
  | .handler .readAsString => readAsString
  | .handler .formatDisk => formatDrive
  | .handler .makeFile => makeFile
  | .handler .catFile => catFile
  | .handler .runFile => runFile cmds
  | .handler .edit => edit
  | .handler .runEdit => runEdit
  | .handler .quit => quit
  | .wrapper => interpret cmds

end Commands

/-! ### The tasks and the handlers -/

/-- The tasks of the executor, and `kernel_main`, which runs the executor. -/
inductive TaskName where
  | kernelMain | printKeypresses | shellTask
deriving DecidableEq

/-- `print_keypresses`: without a scancode it waits. -/
def printKeypresses : KernelCode :=
  loop (seq (either work yield) (either work (locked .keyEventQueue work)))

/-- `shell_task` -/
def shellTask (cmds : List Handler) : KernelCode :=
  loop (block
    [loop (seq popKey (either work (either (seq print (locked .shell work)) print))),
      either work (block [locked .shell work, either work (seq (runCmd cmds) (either work print)),
        print]),
      yield])

/-- `kernel_main`: it sets up the interrupt controllers, the file system and the commands, writes a
file, and runs the executor, which masks interrupts before it sleeps. -/
def kernelMain : KernelCode :=
  block [masked (locked .pics work), fatInit, locked .commands work, locked .fs writeNewFile, print,
    loop (seq yield (masked work))]

def tasks (cmds : List Handler) : TaskName → KernelCode
  | .kernelMain => kernelMain
  | .printKeypresses => printKeypresses
  | .shellTask => shellTask cmds

/-- `timer_interrupt_handler` and `ata_interrupt_handler` -/
def endOfInterrupt : KernelCode := locked .pics work

/-- `keyboard_interrupt_handler`: `add_scancode` prints if the queue is full or not there yet. -/
def keyboardInterruptHandler : KernelCode := seq (either work print) endOfInterrupt

/-- The interrupt handlers, in the order of `InterruptIndex`. -/
def handlers : List KernelCode := [endOfInterrupt, keyboardInterruptHandler, endOfInterrupt]

/-- The kernel in which the commands `cmds` are run. -/
def kernel (cmds : List Handler) :
    Lib.Machine (Cpu Lock Proc TaskName) (Event TaskName) Unit (Refusal Lock) :=
  Cpu.machine (body cmds) handlers

def start (cmds : List Handler) : Cpu Lock Proc TaskName := Cpu.start (tasks cmds) .kernelMain

/-! ### The discipline of the kernel -/

/-- The handlers take the interrupt controllers and the screen.  The tasks mask interrupts when they
take them, if `clear` is not among the commands.  The processor is halted only by `quit`. -/
def discipline (cmds : List Handler) : Discipline Lock Proc where
  guarded l := l = .pics ∨ l = .writer ∧ .clear ∉ cmds
  ofHandlers l := l = .pics ∨ l = .writer
  callable p := p ∈ procs cmds
  halts := .quit ∈ cmds

/-- What most functions keep to: they mask interrupts for both locks, run no commands and do not
halt. -/
def strict : Discipline Lock Proc where
  guarded l := l = .pics ∨ l = .writer
  ofHandlers _ := False
  callable _ := False
  halts := False

instance : DecidablePred strict.guarded := fun l =>
  inferInstanceAs (Decidable (l = .pics ∨ l = .writer))

instance : DecidablePred strict.ofHandlers := fun _ => inferInstanceAs (Decidable False)

instance : DecidablePred strict.callable := fun _ => inferInstanceAs (Decidable False)

instance : Decidable strict.halts := inferInstanceAs (Decidable False)

variable {cmds : List Handler} {c : KernelCode} {own : List Lock} {m : Bool}

lemma disciplined_of_strict (h : c.Disciplined strict .task own m) :
    c.Disciplined (discipline cmds) .task own m := by
  refine h.mono (fun l hl => ?_) (fun _ => False.elim) False.elim
  exact hl.imp_right And.left

lemma disciplined_runCmd : (runCmd cmds).Disciplined (discipline cmds) .task [] false :=
  ⟨disciplined_of_strict (by decide), trivial, rfl, rfl, by simp [procs], fun _ hp => hp⟩

lemma disciplined_interpret : (interpret cmds).Disciplined (discipline cmds) .task [] false :=
  ⟨trivial, disciplined_of_strict (by decide), disciplined_runCmd,
    disciplined_of_strict (by decide)⟩

lemma disciplined_handler {f : Handler} (hf : f ∈ cmds) :
    (body cmds (.handler f)).Disciplined (discipline cmds) .task [] false := by
  cases f with
  | clear =>
      -- the screen is locked with interrupts enabled
      refine ⟨by simp, ?_, trivial⟩
      rintro (hpics | ⟨-, hclear⟩)
      · exact absurd hpics (by decide)
      · exact absurd hf hclear
  | parseCmd => exact ⟨trivial, disciplined_interpret⟩
  | runFile => exact ⟨trivial, disciplined_of_strict (by decide), trivial, disciplined_interpret⟩
  | quit =>
      exact ⟨disciplined_of_strict (by decide), disciplined_of_strict (by decide),
        disciplined_of_strict (by decide), disciplined_of_strict (by decide), hf⟩
  | _ => exact disciplined_of_strict (by dsimp only [body]; decide)

lemma bodiesOk : BodiesOk (discipline cmds) (body cmds) := by
  rintro (f | _) hp
  · have hf : f ∈ cmds := by simpa [discipline, procs] using hp
    exact disciplined_handler hf
  · exact disciplined_interpret

lemma disciplined_tasks (i : TaskName) :
    (tasks cmds i).Disciplined (discipline cmds) .task [] false := by
  cases i with
  | kernelMain => exact disciplined_of_strict (by dsimp only [tasks]; decide)
  | printKeypresses => exact disciplined_of_strict (by dsimp only [tasks]; decide)
  | shellTask =>
      exact ⟨disciplined_of_strict (by decide),
        ⟨trivial, disciplined_of_strict (by decide), ⟨trivial, disciplined_runCmd,
          disciplined_of_strict (by decide)⟩, disciplined_of_strict (by decide)⟩, rfl, rfl⟩

lemma disciplined_handlers :
    ∀ h ∈ handlers, h.Disciplined (discipline cmds) .handler [] true := by
  simp [handlers, keyboardInterruptHandler, endOfInterrupt, print, onScreen, Code.Disciplined,
    Discipline.Allows, discipline]

/-! ### Runs of the kernel -/

variable {es : List (Event TaskName)} {us : List Unit} {s : Cpu Lock Proc TaskName}

/-- **The kernel goes on.**  In every interleaving of interrupts and tasks, whatever commands are
run: nobody waits for a lock, and the handler or the task that is running goes on, returns or
yields, without an interrupt having to come, unless `quit` has halted the processor.  The only
exception is that `clear` is among the commands and a handler waits for the screen; then nothing
happens any more. -/
theorem kernel_goes_on (hrun : (kernel cmds).run (start cmds) es = .ok (us, s)) :
    ((∀ l, ¬ s.Spinning l) ∧
      ((∃ e s', (∀ n, e ≠ .interrupt n) ∧ (kernel cmds).step s e = .ok ((), s')) ∨
        (.quit ∈ cmds ∧ s.Halted))) ∨
      (.clear ∈ cmds ∧ s.handler.isSome ∧ s.Spinning .writer ∧
        ∀ e, ∃ r, (kernel cmds).step s e = .error r) := by
  have hok : s.Ok (discipline cmds) :=
    ok_of_run bodiesOk disciplined_handlers disciplined_tasks hrun
  by_cases hspin : ∃ l, s.Spinning l
  · obtain ⟨l, hspin⟩ := hspin
    obtain ⟨hsome, hmasked, hl, hguarded⟩ := hok.spinning hspin
    rcases hl with rfl | rfl
    · exact absurd (Or.inl rfl) hguarded
    · have hclear : .clear ∈ cmds := by
        by_contra hclear
        exact hguarded (Or.inr ⟨rfl, hclear⟩)
      exact Or.inr ⟨hclear, hsome, hspin, Cpu.step_of_spinning (body cmds) handlers hspin hmasked⟩
  · push Not at hspin
    refine Or.inl ⟨hspin, ?_⟩
    by_cases hhalt : s.Halted
    · exact Or.inr ⟨hok.halts hhalt, hhalt⟩
    · exact Or.inl (hok.goes_on (body cmds) handlers hspin hhalt)

/-- From the boot to the shell, which runs `clear` up to the point where it has the screen. -/
def clearRun : List (Event TaskName) :=
  List.replicate 31 (.exec 1) ++ .exec 0 :: List.replicate 13 (.exec 1) ++
    [.switch .shellTask, .exec 1, .exec 1, .exec 0] ++ List.replicate 16 (.exec 1)

lemma run_clearRun : ∃ us s, (kernel [.clear]).run (start [.clear]) clearRun = .ok (us, s) ∧
    s.handler = none ∧ s.masked = false ∧ .writer ∈ s.held := by
  have hend : ((kernel [.clear]).run (start [.clear]) clearRun).toOption.map
      (fun r => (r.2.handler.isNone, r.2.masked, decide (.writer ∈ r.2.held))) =
      some (true, false, true) := by
    decide +kernel
  cases hrun : (kernel [.clear]).run (start [.clear]) clearRun with
  | error e =>
      rw [hrun] at hend
      exact absurd hend (by simp [Except.toOption])
  | ok r =>
      rw [hrun, Except.toOption, Option.map_some, Option.some.injEq, Prod.mk.injEq,
        Prod.mk.injEq] at hend
      exact ⟨r.1, r.2, rfl, Option.isNone_iff_eq_none.mp hend.1, hend.2.1,
        of_decide_eq_true hend.2.2⟩

/-- While `clear` has the screen nobody waits yet. -/
theorem kernel_goes_on_clearRun :
    ∃ us s, (kernel [.clear]).run (start [.clear]) clearRun = .ok (us, s) ∧ .writer ∈ s.held ∧
      (∀ l, ¬ s.Spinning l) ∧
      ∃ e s', (∀ n, e ≠ .interrupt n) ∧ (kernel [.clear]).step s e = .ok ((), s') := by
  obtain ⟨us, s, hrun, hnone, -, hheld⟩ := run_clearRun
  rcases kernel_goes_on hrun with ⟨hspin, hgo | ⟨hquit, -⟩⟩ | ⟨-, hsome, -⟩
  · exact ⟨us, s, hrun, hheld, hspin, hgo⟩
  · exact absurd hquit (by decide)
  · rw [hnone] at hsome
    exact absurd hsome (by decide)

/-- The handler of the keyboard, before it takes the screen. -/
def warning (s : Cpu Lock Proc TaskName) : Cpu Lock Proc TaskName :=
  { s with
    masked := true
    handler := some [.code (locked .writer work), .restore true, .code endOfInterrupt] }

lemma run_warning (cmds : List Handler) (hnone : s.handler = none) (hopen : s.masked = false) :
    (kernel cmds).run s [.interrupt 1, .exec 0, .exec 1, .exec 0] =
      .ok ([(), (), (), ()], warning s) := by
  have hinterrupt : (kernel cmds).step s (.interrupt 1) = .ok ((), { s with
      masked := true, handler := some [.code keyboardInterruptHandler] }) := by
    rw [kernel, Cpu.machine]
    dsimp only
    rw [Cpu.step, hnone, hopen]
    rfl
  rw [Lib.Machine.run_cons_of_step _ hinterrupt]
  rfl

/-- **`clear` can hang the kernel.**  Whenever the screen is locked by a task that has not masked
interrupts, a keyboard interrupt that finds the queue of scancodes full comes to the lock in its
handler, where it waits: the lock is still held, and nothing happens any more.  The events are the
interrupt and three steps of its handler, of which the second one finds the queue full. -/
theorem clear_hangs (cmds : List Handler) (hnone : s.handler = none) (hopen : s.masked = false)
    (hheld : .writer ∈ s.held) :
    ∃ us s', (kernel cmds).run s [.interrupt 1, .exec 0, .exec 1, .exec 0] = .ok (us, s') ∧
      s'.handler.isSome ∧ s'.held = s.held ∧ s'.Spinning .writer ∧
      ∀ e, ∃ r, (kernel cmds).step s' e = .error r := by
  have hspin : (warning s).Spinning .writer := ⟨work, _, rfl, hheld⟩
  exact ⟨_, warning s, run_warning cmds hnone hopen, rfl, rfl, hspin,
    Cpu.step_of_spinning (body cmds) handlers hspin rfl⟩

/-- It does so from the shell, right after the boot. -/
theorem clear_hangs_clearRun :
    ∃ us s', (kernel [.clear]).run (start [.clear])
        (clearRun ++ [.interrupt 1, .exec 0, .exec 1, .exec 0]) = .ok (us, s') ∧
      s'.Spinning .writer ∧ ∀ e, ∃ r, (kernel [.clear]).step s' e = .error r := by
  obtain ⟨us, s, hrun, hnone, hopen, hheld⟩ := run_clearRun
  obtain ⟨us', s', hrun', -, -, hspin, hstuck⟩ := clear_hangs [.clear] hnone hopen hheld
  refine ⟨us ++ us', s', ?_, hspin, hstuck⟩
  rw [Lib.Machine.run_append _ hrun, hrun']
  rfl

end SilOS.Locks
