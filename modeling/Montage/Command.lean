import Montage.Text.Blank

/-!
# Commands

A command is a program with its arguments.  `Command.display` shows it on one line: an argument that
holds a blank or a semicolon stands in single quotes.
-/

namespace Montage

/-- A program with its arguments. -/
structure Command where
  program : String
  arguments : List String
  deriving DecidableEq, Repr

namespace Command

/-- An argument is quoted when it holds a blank or a semicolon. -/
def needsQuotes (argument : String) : Bool :=
  argument.toList.any fun c => Text.isBlank c || c = ';'

/-- An argument as it is shown. -/
def displayArgument (argument : String) : String :=
  if needsQuotes argument then "'" ++ argument ++ "'" else argument

/-- The command on one line. -/
def display (c : Command) : String :=
  " ".intercalate (c.program :: c.arguments.map displayArgument)

end Command

end Montage
