import Montage.Script.Build

/-!
# Scripts

`Script.read` turns the text of a script into its steps.  The blocks are read in order and the first
block that stands for no operation ends the reading with its error.
-/

namespace Montage.Script

/-- What reading a script gives: its steps or the first error, and what there is to report. -/
structure Reading where
  steps : Except Error (List Step)
  events : List Event

/-- The report on a block that the script does not close. -/
def closingEvents (b : Block) : List Event :=
  if b.terminated then [] else [.unclosedBlock b.line b.kind]

/-- The steps of a list of blocks. -/
def readBlocks : List Block → Reading
  | [] => ⟨.ok [], []⟩
  | b :: bs =>
    match Step.ofBlock b with
    | .error e => ⟨.error e, closingEvents b⟩
    | .ok (step, events) =>
      let rest := readBlocks bs
      ⟨rest.steps.map (step :: ·), closingEvents b ++ events ++ rest.events⟩

/-- The report on a script that was read to its end. -/
def parsedEvents : Except Error (List Step) → List Event
  | .ok steps => [.parsedScript steps.length]
  | .error _ => []

/-- The steps of a script. -/
def read (text : String) : Reading :=
  let reading := readBlocks (Block.ofText text)
  { reading with events := reading.events ++ parsedEvents reading.steps }

end Montage.Script
