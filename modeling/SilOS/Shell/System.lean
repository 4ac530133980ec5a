/-
# The shell with its commands

`shell_task` of `src/commands.rs` with all commands that it can run, closed with the interpreter:
a program can run every command, and `parse`, `run` and the bound commands run programs.  The
recursion between the two is given a bound; a command that uses it up, one that panics and one that
waits for a user who does not come does not return.

What the commands do with the drive is a parameter (`FileOps`), so that the same shell can be run on
the drive and on a model of it.  The keys for the editor and the ends of the games are part of the
state, as what the user is going to do, and so is a record of what `write` and `bind` were run on.
-/
import SilOS.Risp.Worlds
import SilOS.Shell.Commands
import SilOS.Shell.Task

namespace SilOS

open Lib Comp Fat16 Risp

/-! ### The state -/

/-- How `pong` ends. -/
inductive GameEnd where
  | exited | player1 | player2
deriving DecidableEq

/-- The text of the result of `pong`. -/
def GameEnd.text : GameEnd → String
  | .exited => "Game Exited"
  | .player1 => "player 1 wins!"
  | .player2 => "player 2 wins!"

/-- What is sent to `WRITER`. -/
inductive Output where
  | text (s : String)
  | backspace
  | clear
deriving DecidableEq

/-- What the commands use of a drive with the state `M`. -/
structure FileOps (M : Type) where
  handle : M → Command → Except Fault (Outcome × M)
  /-- The lines that `cat` prints. -/
  catPrints : M → List Str → Except Fault (List String)
  readSector : M → UInt32 → Sector × M
  writeSector : M → UInt32 → Sector → M

/-- The state of the shell and of what its commands reach. -/
structure World (M : Type) where
  files : M
  commands : Commands
  task : ShellTask
  /-- What was sent to `WRITER`, the last one first. -/
  output : List Output
  /-- The keys of the coming sessions of the editor, each up to Escape. -/
  edits : List (List Editor.Op)
  /-- The ends of the coming games. -/
  games : List GameEnd
  /-- The sectors that `write` has written, the last one first. -/
  written : List UInt32
  /-- The arguments with which `bind` was run, the last ones first. -/
  binds : List (List Str)

namespace World

variable {M : Type}

def emit (w : World M) (out : Output) : World M := { w with output := out :: w.output }

/-- `print!`. -/
def print (w : World M) (s : String) : World M := w.emit (.text s)

/-- `println!`. -/
def println (w : World M) (s : String) : World M := w.print (s ++ "\n")

end World

/-- The result of a command as the interpreter sees it. -/
def commandOutcome : Except ProcessError Success → CommandOutcome
  | .ok success => .success success.successCode success.printCode
  | .error error => .failed error.errorCode

/-! ### The handlers -/

/-- A decimal digit. -/
def isDigit (c : Char) : Bool := '0'.toNat ≤ c.toNat ∧ c.toNat ≤ '9'.toNat

/-- `str::parse::<u32>`. -/
def parseU32 (s : Str) : Option UInt32 :=
  let digits := if s.head? = some '+' then s.tail else s
  let value := digits.foldl (fun n c => 10 * n + (c.toNat - '0'.toNat)) 0
  if digits ≠ [] ∧ digits.all isDigit ∧ value < 2 ^ 32 then some (UInt32.ofNat value) else none

/-- What `Shell::history` prints for a command. -/
def historyLine (cmd : List Str) : String :=
  String.ofList (cmd.flatMap (· ++ [' ']) ++ ['\n'])

section Handlers

variable {M : Type} (ops : FileOps M)
  (program : List Str → World M → Option CommandOutcome × World M)

/-- A command that goes through the file system.  `run` goes on with a program.  If the command
panics, the drive is left as it was before it: on a well-formed volume a panic comes before anything
is written (`Mount.Sound.fault`). -/
def fileCommand (cmd : Command) (w : World M) : Option CommandOutcome × World M :=
  match ops.handle w.files cmd with
  | .error _ => (none, w)
  | .ok (.done result, files) => (some (commandOutcome result), { w with files := files })
  | .ok (.interpret expr, files) => program expr { w with files := files }

/-- What `read` and `read_as_string` have in common. -/
def sectorCommand (args : List Str) (w : World M)
    (found : Sector → World M → Option CommandOutcome × World M) :
    Option CommandOutcome × World M :=
  if args.length ≠ 2 then (some (.failed "Needs 2 parameters"), w)
  else
    match parseU32 (args.getD 1 []) with
    | none => (some (.failed "needs a number"), w)
    | some loc =>
        let (buffer, files) := ops.readSector w.files loc
        found buffer { w with files := files }

/-- `write`. -/
def writeSectorCommand (args : List Str) (w : World M) : Option CommandOutcome × World M :=
  if args.length < 3 then (some (.failed "Usage: write <sector_index> <string_data>"), w)
  else
    match parseU32 (args.getD 1 []) with
    | none => (some (.failed "Sector index must be a valid u32 number"), w)
    | some loc =>
        let data := encodeUtf8 (joinFrom args 2)
        if 512 < data.length then
          (some (.failed ("Data too large: " ++ toString data.length ++ " bytes (max 512)")), w)
        else
          (some (.success "Sector written successfully" false),
            { w with
              files := ops.writeSector w.files loc ((Bytes.zeros 512).copyFromSlice 0 data)
              written := loc :: w.written })

/-- The functions of `src/commands.rs`, where `program` is `interpret`. -/
def Handler.run (args : List Str) (w : World M) : Handler → Option CommandOutcome × World M
  | .pong =>
      match w.games with
      | [] => (none, w)
      | game :: games => (some (.success game.text true), { w with games := games })
  | .clear => (some (.success "worked" false), w.emit .clear)
  | .history =>
      (some (.success "worked" false),
        w.task.shell.pastCmd.foldl (fun w cmd => w.print (historyLine cmd)) w)
  | .echo =>
      if args.length < 2 then (some (.failed "Not enough arguments!"), w)
      else (some (.success "worked" false), w.println (String.ofList (joinFrom args 1)))
  | .parseCmd =>
      if args.length < 2 then (some (.failed "expected at least two params"), w)
      else program [args.headD [], joinFrom args 1] w
  | .bind =>
      let (result, commands) := Commands.bind args w.commands
      (some (commandOutcome result), { w with commands := commands, binds := args :: w.binds })
  | .read => sectorCommand ops args w fun buffer w =>
      (some (.success "worked" false),
        buffer.toList.foldl (fun w b => w.print (toString b.toNat ++ " ")) w)
  | .write => writeSectorCommand ops args w
  | .readAsString => sectorCommand ops args w fun buffer w =>
      match decodeUtf8 buffer.toList with
      | none => (none, w)
      | some text =>
          (some (.success "Worked" false), w.println (String.ofList (Mount.trimNul text)))
  | .formatDisk => fileCommand ops program .formatd (w.println "Formatted drive!")
  | .makeFile => fileCommand ops program (.mkdir args) w
  | .catFile =>
      match ops.catPrints w.files args with
      | .error _ => (none, w)
      | .ok lines => fileCommand ops program (.cat args) (lines.foldl World.println w)
  | .runFile => fileCommand ops program (.run args) w
  | .edit => fileCommand ops program (.edit args) w
  | .runEdit =>
      match w.edits with
      | [] => (none, w)
      | keys :: edits => fileCommand ops program (.eden args keys) { w with edits := edits }
  | .quit => (none, w.println "Shutting down...")

end Handlers

/-! ### Commands and programs -/

section Run

variable {F M : Type} (floats : FloatOps F) (ops : FileOps M)

/-- A program in the system in which `runCmd` runs a command. -/
def programIn (runCmd : List Str → World M → Option CommandOutcome × World M) (fuel : ℕ)
    (expr : List Str) (w : World M) : Option CommandOutcome × World M :=
  let host : Host F (World M) :=
    ⟨floats, runCmd, fun s w => w.println s, Commands.getCommandList w.commands⟩
  let r := (interpret host fuel expr).exec ⟨[], w, [], []⟩
  (r.1.toOption.map commandOutcome, r.2.world)

/-- The name under which programs are run. -/
def execName : Str := ['e', 'x', 'e', 'c']

/-- `run_cmd` and the command that it returns, with a bound on the depth of programs in commands. -/
def runCmd : ℕ → List Str → World M → Option CommandOutcome × World M
  | 0, _, w => (none, w)
  | _ + 1, [], w => (some (.success "" false), w)
  | fuel + 1, name :: args, w =>
      match w.commands.lookup name with
      | none => (some (.notFound ("'" ++ String.ofList name ++ "' command not found")), w)
      | some (.handler f) => f.run ops (programIn floats (runCmd fuel) fuel) (name :: args) w
      | some (.wrapper lispCode) =>
          programIn floats (runCmd fuel) fuel (execName :: lispCode :: args) w

/-- `interpret`, called by a command. -/
def program (fuel : ℕ) : List Str → World M → Option CommandOutcome × World M :=
  programIn floats (runCmd floats ops fuel) fuel

/-! ### The shell -/

/-- What is shown of a key that is typed. -/
def echoKey : DecodedKey → List Output
  | .unicode character =>
      if character = '\x08' then [.backspace] else [.text (String.singleton character)]
  | .rawKey => []

/-- What the shell prints at the end of a command. -/
def World.report (w : World M) : CommandOutcome → World M
  | .success successCode printCode => if printCode then w.println successCode else w
  | .failed errorCode | .notFound errorCode => w.println ("Error: " ++ errorCode)

/-- The keys of a batch are taken from the queue. -/
def World.drain (w : World M) (batch : List DecodedKey) : World M :=
  { w with
    task := w.task.drain batch
    output := (batch.flatMap echoKey).reverse ++ w.output }

/-- The second half of an iteration: if Enter was pressed, the line is run.  The error is the state
in which a command does not return. -/
def World.runLine (fuel : ℕ) (w : World M) : Except (World M) (Option CommandOutcome × World M) :=
  if w.task.commandPending then
    let (cmd, task) := w.task.takeCommand
    match cmd with
    | none => .ok (none, { w with task := task }.print "> ")
    | some cmdVec =>
        match runCmd floats ops fuel cmdVec { w with task := task } with
        | (none, w) => .error w
        | (some outcome, w) => .ok (some outcome, (w.report outcome).print "> ")
  else .ok (none, w)

/-- `shell_task`: one iteration of the outer loop for each batch of keys. -/
def shellTask (fuel : ℕ) :
    Machine (World M) (List DecodedKey) (Option CommandOutcome) (World M) where
  step w batch := (w.drain batch).runLine floats ops fuel

end Run

/-! ### The drive -/

namespace Mount

/-- The lines that `cat_file` prints. -/
def catPrints (m : Mount) (args : List Str) : Except Fault (List String) :=
  match resolveNameExt args 1, m.fs with
  | some (name, ext, _), some fs => do
      match ← contents fs m.disk (upperField 8 name) (upperField 3 ext) with
      | none => return []
      | some fileData =>
          match decodeUtf8 fileData with
          | none => return []
          | some text =>
              return ["--- " ++ String.ofList name ++ " ---", String.ofList text, "------------"]
  | _, _ => .ok []

/-- The drive and the file system that is mounted on it.  The driver passes on the lower 28 bits of
a sector number. -/
def fileOps : FileOps Mount where
  handle := handle
  catPrints := catPrints
  readSector m loc := (Fat16.readSector m.disk (loc.toNat % 2 ^ 28), m)
  writeSector m loc bytes :=
    { m with disk := writeSectorBytes m.disk (loc.toNat % 2 ^ 28) bytes }

end Mount

/-- The state after `init_cmds`, when the shell task is started. -/
def World.start {M : Type} (files : M) (edits : List (List Editor.Op)) (games : List GameEnd) :
    World M where
  files := files
  commands := Commands.initCmds
  task := ShellTask.start
  output := []
  edits := edits
  games := games
  written := []
  binds := []

/-- The keys of a line. -/
def World.typed (line : List Char) : List DecodedKey := line.map .unicode ++ [ShellTask.enter]

/-- `quit` -/
def World.quitLine : List Char := ['q', 'u', 'i', 't']

end SilOS
