import Montage.Text.Blank
import Montage.Text.Lines

/-!
# Blocks

A script is a sequence of lines.  A line that begins with `#do` opens a block and names its kind;
the block runs to the first later line that begins with `#end`, or to the end of the script.  Inside
a block, blank lines and lines that begin with `//` carry nothing, and outside of blocks every line
is free commentary.  `Block.readAll` finds the blocks of a list of lines.
-/

namespace Montage

/-- A line of a script, with its number. -/
structure Line where
  /-- The number of the line in the script; the first line has number 1. -/
  number : Nat
  text : String
  deriving DecidableEq, Repr

/-- The part of a script that stands for one operation. -/
structure Block where
  /-- The word after the opening mark. -/
  kind : String
  /-- The number of the line that opens the block. -/
  line : Nat
  /-- The lines inside the block that carry something. -/
  lines : List Line
  /-- The block has a closing line. -/
  terminated : Bool
  deriving DecidableEq, Repr

namespace Line

/-- The word that a line opens a block with, if it opens one. -/
def opening? (l : Line) : Option String :=
  match l.text.toList with
  | '#' :: 'd' :: 'o' :: rest => some (String.ofList (Text.trim rest))
  | _ => none

/-- A line that begins with `#end` closes a block. -/
def closes (l : Line) : Bool :=
  match l.text.toList with
  | '#' :: 'e' :: 'n' :: 'd' :: _ => true
  | _ => false

/-- Blank lines and comments carry nothing. -/
def carriesNothing (l : Line) : Bool :=
  match Text.trimStart l.text.toList with
  | [] => true
  | '/' :: '/' :: _ => true
  | _ => false

/-- The lines of a text, numbered from 1. -/
def ofText (text : String) : List Line :=
  ((Text.lines text.toList).zipIdx 1).map fun l => ⟨l.2, String.ofList l.1⟩

end Line

namespace Block

/-- The lines before the one that closes a block. -/
def interior (ls : List Line) : List Line := ls.takeWhile fun l => !l.closes

/-- The line that closes a block, and what follows it; nothing when the block is not closed. -/
def ending (ls : List Line) : List Line := ls.dropWhile fun l => !l.closes

/-- The end of a block is no longer than what it is looked for in. -/
theorem length_ending_le (ls : List Line) : (ending ls).length ≤ ls.length :=
  (List.dropWhile_sublist _).length_le

/-- The blocks of a list of lines, in order. -/
def readAll : List Line → List Block
  | [] => []
  | l :: ls =>
    match l.opening? with
    | none => readAll ls
    | some kind =>
      { kind := kind
        line := l.number
        lines := (interior ls).filter fun l => !l.carriesNothing
        terminated := !(ending ls).isEmpty } :: readAll (ending ls).tail
  termination_by ls => ls.length
  decreasing_by
    · simp
    · have := length_ending_le ls
      simp only [List.length_tail, List.length_cons]
      omega

/-- The blocks of a script. -/
def ofText (text : String) : List Block := readAll (Line.ofText text)

end Block

end Montage
