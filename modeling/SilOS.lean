import SilOS.Lib.Checked
import SilOS.Lib.Machine
import SilOS.Lib.Scan
import SilOS.Lib.Chain
import SilOS.Lib.Walk
import SilOS.Lib.Block
import SilOS.Lib.Utf8
import SilOS.Lib.Lines
import SilOS.Lib.Words
import SilOS.Lib.Wrap
import SilOS.Lib.Brackets
import SilOS.Lib.Assoc
import SilOS.Lib.Comp
import SilOS.Lib.Coupling
import SilOS.Lib.Below
import SilOS.Lib.Locks
import SilOS.Fat16.Disk
import SilOS.Fat16.Layout
import SilOS.Fat16.FileSystem
import SilOS.Fat16.Fat
import SilOS.Fat16.Release
import SilOS.Fat16.Read
import SilOS.Fat16.Directory
import SilOS.Fat16.Regions
import SilOS.Fat16.Alloc
import SilOS.Fat16.Volume
import SilOS.Fat16.Calls
import SilOS.Fat16.Frame
import SilOS.Fat16.Format
import SilOS.Fat16.Entries
import SilOS.Fat16.Arithmetic
import SilOS.Fat16.Runs
import SilOS.Fat16.Files
import SilOS.Fat16.Slots
import SilOS.Fat16.Walk
import SilOS.Fat16.Names
import SilOS.Fat16.Space
import SilOS.Fat16.Failure
import SilOS.Fat16.Mirror
import SilOS.Fat16.Extent
import SilOS.Fat16.Leak
import SilOS.Fat16.Catalogue
import SilOS.Fat16.PowerLoss
import SilOS.Ide.Drive
import SilOS.Risp.Reader
import SilOS.Risp.Scanner
import SilOS.Risp.Tokens
import SilOS.Risp.Parse
import SilOS.Risp.Rendering
import SilOS.Risp.Grammar
import SilOS.Risp.Builtins
import SilOS.Risp.Eval
import SilOS.Risp.Discipline
import SilOS.Risp.Frame
import SilOS.Risp.Interpret
import SilOS.Risp.Whole
import SilOS.Risp.Statements
import SilOS.Risp.Code
import SilOS.Risp.Recursion
import SilOS.Risp.Alike
import SilOS.Risp.Symbols
import SilOS.Risp.TwoRuns
import SilOS.Risp.Seeding
import SilOS.Risp.Relations
import SilOS.Risp.Worlds
import SilOS.Risp.Bound
import SilOS.Editor.Model
import SilOS.Editor.Cursor
import SilOS.Editor.Buffer
import SilOS.Shell.Task
import SilOS.Shell.Files
import SilOS.Shell.Names
import SilOS.Shell.Eden
import SilOS.Shell.Mount
import SilOS.Shell.Commands
import SilOS.Shell.System
import SilOS.Shell.Sessions
import SilOS.Shell.Stores
import SilOS.Shell.Ideal
import SilOS.Shell.Bound
import SilOS.Shell.RoundTrips
import SilOS.Screen.Writer
import SilOS.Screen.Prompt
import SilOS.Editor.Draw
import SilOS.Pong.Game
import SilOS.Pong.Rally
import SilOS.Pong.Collision
import SilOS.Memory.Frames
import SilOS.Task.Executor
import SilOS.Task.Keyboard
import SilOS.Task.ReadyQueue
import SilOS.Shell.Console
import SilOS.Task.Locks
import SilOS.Memory.Heap
