import Montage.CommandLine

/-!
# The program

`main` connects the command line program to the machine that it runs on.  It reads the files that
the arguments and the script name into a file tree, runs the program on it, and writes back what the
program has added to the tree.  No other program can be started here.
-/

namespace Montage.Program

/-- The tree with a file of the machine, when it can be read. -/
def fetch (read : String → IO ByteArray) (files : FileTree) (path : Path) : IO FileTree := do
  try return files.place path (.file (.ofBytes (← read path.text).toList))
  catch _ => return files

/-- The tree with a script of the machine. -/
def fetchScript : FileTree → Path → IO FileTree := fetch fun path => IO.FS.readBinFile path

/-- The tree with a source file of the machine, of which only the beginning counts. -/
def fetchSource : FileTree → Path → IO FileTree :=
  fetch fun path => IO.FS.withFile path .read fun h => h.read 64

/-- The files that an invocation reads. -/
def gather : Option Invocation → IO FileTree
  | some (.parse script _) => fetchScript .empty script
  | some (.check script _) => fetchScript .empty script
  | some (.run script _ _) => do
    let files ← fetchScript .empty script
    match (Script.load files script).steps with
    | .error _ => return files
    | .ok steps =>
      let sources := steps.filterMap (Script.source? (Script.directory script))
      sources.foldlM fetchSource files
  | _ => return .empty

/-- Writes a file or directory to the machine. -/
def store : Path × Node → IO Unit
  | (path, .directory) => IO.FS.createDirAll path.text
  | (path, .file (.bytes b)) => IO.FS.writeBinFile path.text ⟨b.toArray⟩
  | _ => pure ()

end Montage.Program

open Montage in
/-- Runs the program. -/
def main (arguments : List String) : IO UInt32 := do
  let files ← Program.gather (Invocation.ofArguments? arguments)
  let ending := CommandLine.run .bare arguments files
  (ending.files.added files).forM Program.store
  IO.print ending.output
  match ending.messages with
  | some messages => messages.forM fun m => IO.eprintln m.text
  | none => IO.eprintln CommandLine.usage
  return ending.status.toUInt32
