import Montage.Seconds.Text
import Montage.Text.Visible

/-!
# Inspection texts

Values are shown to people who read a log or check a script in one notation: quoted strings,
optional values as `Some(x)` or `None`, lists in square brackets, and records with their field
names.  `quoted` writes every character so that it can be seen: what is not visible is escaped.
-/

namespace Montage.Inspect

/-- A character as it stands inside a quoted string. -/
def escaped (c : Char) : String :=
  match c with
  | '"' => "\\\""
  | '\\' => "\\\\"
  | '\n' => "\\n"
  | '\r' => "\\r"
  | '\t' => "\\t"
  | '\x00' => "\\0"
  | c =>
    if Text.isVisible c then String.singleton c
    else "\\u\x7b" ++ String.ofList (Nat.toDigits 16 c.toNat) ++ "\x7d"

/-- A string in quotes. -/
def quoted (s : String) : String := "\"" ++ String.join (s.toList.map escaped) ++ "\""

/-- An optional value. -/
def optional {α : Type} (item : α → String) : Option α → String
  | none => "None"
  | some a => "Some(" ++ item a ++ ")"

/-- A list. -/
def list {α : Type} (item : α → String) (as : List α) : String :=
  "[" ++ ", ".intercalate (as.map item) ++ "]"

/-- A record: its name, and its fields with their names. -/
def record (name : String) (fields : List (String × String)) : String :=
  name ++ " \x7b " ++ ", ".intercalate (fields.map fun f => f.1 ++ ": " ++ f.2) ++ " \x7d"

end Montage.Inspect
