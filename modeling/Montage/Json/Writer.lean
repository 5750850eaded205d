import Montage.Json

/-!
# Writing JSON

`Json.pretty` writes a value over several lines: each item of an array and each field of an object
stands on a line of its own, two spaces further in than what holds it.
-/

namespace Montage.Json

/-- A control character as an escape with four hexadecimal digits. -/
def controlEscape (c : Char) : String :=
  "\\u00" ++ String.ofList [Nat.digitChar (c.toNat / 16), Nat.digitChar (c.toNat % 16)]

/-- A character as it stands inside a string. -/
def escaped (c : Char) : String :=
  match c with
  | '"' => "\\\""
  | '\\' => "\\\\"
  | '\n' => "\\n"
  | '\r' => "\\r"
  | '\t' => "\\t"
  | '\x08' => "\\b"
  | '\x0c' => "\\f"
  | c => if c.toNat < 0x20 then controlEscape c else String.singleton c

/-- A string in quotes. -/
def quoted (s : String) : String := "\"" ++ String.join (s.toList.map escaped) ++ "\""

/-- The blanks at the beginning of a line. -/
def indent (depth : Nat) : String := String.ofList (List.replicate (2 * depth) ' ')

/-- Lines between an opening and a closing mark, separated by commas. -/
def enclosed (opening closing : String) (depth : Nat) (lines : List String) : String :=
  if lines.isEmpty then opening ++ closing
  else
    opening ++ "\n" ++ ",\n".intercalate (lines.map fun l => indent (depth + 1) ++ l) ++ "\n" ++
      indent depth ++ closing

mutual

/-- A value on several lines; `depth` is how deep it stands in other values. -/
def write (depth : Nat) : Json String → String
  | .null => "null"
  | .bool b => toString b
  | .number literal => literal
  | .string s => quoted s
  | .array items => enclosed "[" "]" depth (writeItems (depth + 1) items)
  | .object fields => enclosed "\x7b" "\x7d" depth (writeFields (depth + 1) fields)

/-- The items of an array. -/
def writeItems (depth : Nat) : List (Json String) → List String
  | [] => []
  | j :: js => write depth j :: writeItems depth js

/-- The fields of an object. -/
def writeFields (depth : Nat) : List (String × Json String) → List String
  | [] => []
  | (k, j) :: fields => (quoted k ++ ": " ++ write depth j) :: writeFields depth fields

end

/-- A value on several lines. -/
def pretty (j : Json String) : String := write 0 j

end Montage.Json
