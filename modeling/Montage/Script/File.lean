import Montage.FileTree
import Montage.Script

/-!
# Script files

`Script.load` reads a script from a file.  The paths in a script are seen from the directory of its
file, `Script.directory`.
-/

namespace Montage.Script

/-- Reads a script file. -/
def load (files : FileTree) (script : Path) : Reading :=
  match files.readText script with
  | .error e => ⟨.error (.scriptUnreadable script e), []⟩
  | .ok text => read text

/-- The directory that the paths of a script file are seen from. -/
def directory (script : Path) : Path := script.parent?.getD .empty

/-- The source file of a step, seen from a directory. -/
def source? (base : Path) (step : Step) : Option Path :=
  match step.operation with
  | .define d => some (base.join d.source)
  | _ => none

end Montage.Script
