/-
# The file commands

The handlers of `formatd`, `mkdir`, `edit`, `eden`, `cat` and `run` in `src/commands.rs`, and what
the kernel does with the drive at boot.  `FS` is set once, at boot; the handlers look at the drive
through the file system that was mounted then.

A handler ends with a result for the shell.  `run` ends with the call of `interpret` on the script
it has read: the interpreter reaches the drive only through the commands that the script runs, and
these are further steps.
-/
import SilOS.Editor.Model
import SilOS.Fat16.Format
import SilOS.Risp.Interpret

namespace SilOS

open Lib Fat16 Risp

/-- The drive and `FS`. -/
structure Mount where
  disk : Disk
  fs : Option Fat16FileSystem

/-- How a handler ends. -/
inductive Outcome where
  | done (result : Except ProcessError Success)
  | interpret (expr : List Str)
deriving DecidableEq

namespace Outcome

/-- `Err(ProcessError { .. })`. -/
def error (msg : String) : Outcome := .done (.error ⟨msg⟩)

/-- `Ok(Success { .. })`. -/
def success (msg : String) (printCode : Bool) : Outcome := .done (.ok ⟨msg, printCode⟩)

end Outcome

/-! ### Names of files in commands -/

/-- The string before and after its first point. -/
def splitPoint (s : Str) : Option (Str × Str) :=
  if '.' ∈ s then some (s.takeWhile (· ≠ '.'), (s.dropWhile (· ≠ '.')).tail) else none

/-- `resolve_name_ext`. -/
def resolveNameExt (args : List Str) (idx : ℕ) : Option (Str × Str × ℕ) := do
  let first ← args[idx]?
  match splitPoint first with
  | some (name, ext) => return (name, ext, idx + 1)
  | none => return (first, ← args[idx + 1]?, idx + 2)

/-- `to_ascii_uppercase` of a string, and its first bytes in a field that is filled up with
blanks. -/
def upperField (n : ℕ) (s : Str) : Bytes n :=
  Bytes.copyFromSlice (Vector.replicate n 0x20) 0 ((encodeUtf8 (s.map Char.toUpper)).take n)

/-- `u8::to_ascii_uppercase`. -/
def upperByte (b : UInt8) : UInt8 := if 0x61 ≤ b ∧ b ≤ 0x7a then b - 0x20 else b

/-- `format_fat16_name`. -/
def formatFat16Name (name ext : Str) : Bytes 8 × Bytes 3 :=
  (Bytes.copyFromSlice (Vector.replicate 8 0x20) 0 (((encodeUtf8 name).take 8).map upperByte),
   Bytes.copyFromSlice (Vector.replicate 3 0x20) 0 (((encodeUtf8 ext).take 3).map upperByte))

/-- The name and the extension that `run_editor` takes from its arguments. -/
def editorName (args : List Str) : Str × Str :=
  match args[1]? with
  | some tok => (splitPoint tok).getD (tok, args[2]?.getD ['T', 'X', 'T'])
  | none => (['U', 'N', 'N', 'A', 'M', 'E', 'D'], ['T', 'X', 'T'])

/-- `args[idx..].join(" ")`. -/
def joinFrom (args : List Str) (idx : ℕ) : Str := List.intercalate [' '] (args.drop idx)

/-! ### The handlers -/

namespace Mount

variable (m : Mount) (args : List Str)

/-- `format_disk`. -/
def formatDisk : Outcome × Mount :=
  (.success "format worked!" true, { m with disk := formatDrive m.disk })

/-- What `make_file` and `edit` have in common: the name is resolved, the other arguments are
joined, and a call of the file system is made with them. -/
def writeCommand (usage notMounted : String) (call : Bytes 8 → Bytes 3 → List UInt8 → Call)
    (report : Str → Str → List UInt8 → Except FsError Unit → Outcome) :
    Except Fault (Outcome × Mount) :=
  match resolveNameExt args 1 with
  | none => .ok (.error usage, m)
  | some (name, ext, next) =>
      if args.length ≤ next then .ok (.error usage, m)
      else
        let data := encodeUtf8 (joinFrom args next)
        match m.fs with
        | none => .ok (.error notMounted, m)
        | some fs => do
            let (result, disk) ←
              fs.machine.step m.disk (call (upperField 8 name) (upperField 3 ext) data)
            return (report name ext data result, { m with disk := disk })

/-- `make_file`. -/
def makeFile : Except Fault (Outcome × Mount) :=
  m.writeCommand args "Usage: mkdir <NAME.EXT | NAME EXT> <data to write>"
    "File system not mounted! Did you run fs::init()?" .writeNewFile fun name ext data result =>
      match result with
      | .ok () => .success ("Created " ++ String.ofList name ++ "." ++ String.ofList ext ++ " (" ++
          toString data.length ++ " bytes)") true
      | .error e => .error ("FS Error: " ++ e.message)

/-- `edit`. -/
def edit : Except Fault (Outcome × Mount) :=
  m.writeCommand args "Usage: edit <NAME.EXT | NAME EXT> <data>" "File system not mounted!"
    .overwriteFile fun _ _ _ result =>
      match result with
      | .ok () => .success "Worked" false
      | .error e => .error e.message

/-- The contents of a file, if there is one. -/
def contents (fs : Fat16FileSystem) (disk : Disk) (filename : Bytes 8) (ext : Bytes 3) :
    Except Fault (Option (List UInt8)) := do
  match ← fs.findFile disk filename ext with
  | none => return none
  | some entry => return some (← fs.readFile disk entry)

/-- What `cat_file` and `run_file` have in common: the name is resolved and the file with it is
read as text, for which `found` is given the number of the next argument. -/
def readCommand (usage kind invalid : String) (found : ℕ → Str → Outcome) :
    Except Fault (Outcome × Mount) :=
  match resolveNameExt args 1 with
  | none => .ok (.error usage, m)
  | some (name, ext, next) =>
      match m.fs with
      | none => .ok (.error "File system not mounted!", m)
      | some fs => do
          match ← contents fs m.disk (upperField 8 name) (upperField 3 ext) with
          | none => return (.error (kind ++ " " ++ String.ofList name ++ "." ++ String.ofList ext ++
              " not found"), m)
          | some fileData =>
              match decodeUtf8 fileData with
              | some text => return (found next text, m)
              | none => return (.error invalid, m)

/-- `cat_file`. -/
def catFile : Except Fault (Outcome × Mount) :=
  m.readCommand args "Usage: cat <NAME.EXT | NAME EXT>" "File"
    "File contains invalid UTF-8 (might be a binary file)" fun _ _ =>
      .success "File read successfully" false

/-- `trim_matches('\0')`. -/
def trimNul (s : Str) : Str := (s.dropWhile (· = '\x00')).rdropWhile (· = '\x00')

/-- `run_file`. -/
def runFile : Except Fault (Outcome × Mount) :=
  m.readCommand args "Usage: run <NAME.EXT | NAME EXT> [args...]" "Script"
    "Script contains invalid text formatting" fun next text =>
      .interpret (['e', 'x', 'e', 'c'] :: trimNul text :: args.drop next)

/-- The editor that `run_editor` opens. -/
def openEditor (filename : Bytes 8) (ext : Bytes 3) : Except Fault Editor :=
  match m.fs with
  | none => .ok (Editor.new [])
  | some fs => do
      match ← contents fs m.disk filename ext with
      | none => return Editor.new []
      | some fileBytes => return Editor.load fileBytes

/-- What `run_editor` does at Escape: the result of the call is dropped. -/
def saveEditor (editor : Editor) (filename : Bytes 8) (ext : Bytes 3) : Except Fault Mount :=
  match m.fs with
  | none => .ok m
  | some fs => do
      let bytesToWrite := encodeUtf8 (List.intercalate ['\n'] editor.lines)
      let (_, disk) ← match ← fs.findFile m.disk filename ext with
        | some _ => fs.overwriteFile m.disk filename ext bytesToWrite
        | none => fs.writeNewFile m.disk filename ext bytesToWrite
      return { m with disk := disk }

/-- `run_edit`: the keys are those that are pressed before Escape. -/
def runEdit (keys : List Editor.Op) : Except Fault (Outcome × Mount) := do
  let (filename, ext) := formatFat16Name (editorName args).1 (editorName args).2
  let editor ← m.openEditor filename ext
  let (_, editor) ← Editor.machine.run editor keys
  let m ← m.saveEditor editor filename ext
  return (.success "Worked" false, m)

end Mount

/-! ### Boot and commands -/

/-- `b"test    "`. -/
def testName : Bytes 8 :=
  (Bytes.zeros 8).copyFromSlice 0 [0x74, 0x65, 0x73, 0x74, 0x20, 0x20, 0x20, 0x20]

/-- `b"txt"`. -/
def testExt : Bytes 3 := (Bytes.zeros 3).copyFromSlice 0 [0x74, 0x78, 0x74]

/-- What `kernel_main` does with the drive: it mounts it and creates a file.  It stops if the drive
cannot be mounted. -/
def boot (disk : Disk) : Except Fault Mount :=
  match Fat16.init disk with
  | none => .error .panic
  | some fs => do
      let (_, disk) ← fs.writeNewFile disk testName testExt [12, 12, 15]
      return ⟨disk, some fs⟩

/-- The commands that go through the file system, with their arguments. -/
inductive Command where
  | formatd
  | mkdir (args : List Str)
  | edit (args : List Str)
  | eden (args : List Str) (keys : List Editor.Op)
  | cat (args : List Str)
  | run (args : List Str)

namespace Mount

/-- The handler of a command. -/
def handle (m : Mount) : Command → Except Fault (Outcome × Mount)
  | .formatd => .ok m.formatDisk
  | .mkdir args => m.makeFile args
  | .edit args => m.edit args
  | .eden args keys => m.runEdit args keys
  | .cat args => m.catFile args
  | .run args => m.runFile args

/-- The kernel after boot, as far as the drive goes. -/
def machine : Machine Mount Command Outcome Fault where
  step := handle

end Mount

end SilOS
