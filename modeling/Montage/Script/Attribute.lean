import Montage.Error
import Montage.Script.Block
import Montage.Text.Word

/-!
# Attributes

A line inside a block assigns a value to a key.  `Attribute.split?` is the grammar of such a line:
one equals sign, a key of word characters before it, and after it a value made of words of value
characters.  The key decides the type of the value, and `Attribute.readValue` reads the value of
that type.  `Attribute.ofLine` puts the two together.
-/

namespace Montage

/-- The value of an attribute. -/
inductive Value where
  | flag (b : Bool)
  | count (n : UInt64)
  | time (t : Timestamp)
  | text (s : String)
  deriving DecidableEq, Repr

/-- The name of the type of a value. -/
def Value.typeWord : Value → String
  | .flag _ => "boolean"
  | .count _ => "integer"
  | .time _ => "timestamp"
  | .text _ => "text"

/-- A key with its value, and the line that assigns it. -/
structure Attribute where
  key : String
  value : Value
  line : Nat
  deriving DecidableEq, Repr

namespace Attribute

/-! ### The grammar of a line -/

/-- The key and the value of a line, as written and without the blanks around them. -/
def split? (cs : List Char) : Option (List Char × List Char) :=
  let body := Text.trimStart cs
  let key := body.takeWhile Text.isWord
  match Text.trimStart (body.dropWhile Text.isWord) with
  | '=' :: rest =>
    let raw := Text.trim rest
    if key ≠ [] ∧ raw ≠ [] ∧ raw.all (fun c => Text.isValueChar c || Text.isBlank c) then
      some (key, raw)
    else none
  | _ => none

/-! ### Reading values -/

/-- The types of values. -/
inductive ValueType where
  | flag
  | count
  | time
  | text
  deriving DecidableEq, Repr

/-- The keys whose values are not plain text. -/
def typedKeys : List (String × ValueType) :=
  [("hasaudio", .flag), ("duration", .count), ("height", .count), ("width", .count), ("x", .count),
   ("y", .count), ("size", .count), ("opacity", .count), ("red", .count), ("green", .count),
   ("blue", .count), ("fps", .count), ("threads", .count), ("start", .time), ("end", .time)]

/-- The type of the values of a key. -/
def valueType (key : String) : ValueType := (typedKeys.lookup key).getD .text

/-- A number: one or more decimal digits of ASCII, with a value below `2 ^ 64`. -/
def readCount? (raw : List Char) : Option UInt64 :=
  let n := Nat.ofDigitChars 10 raw 0
  if raw ≠ [] ∧ raw.all Char.isDigit ∧ n < UInt64.size then some (UInt64.ofNat n) else none

/-- A timestamp: three numbers, separated by colons. -/
def readTime? (raw : List Char) : Option Timestamp :=
  match Text.splitAll (· = ':') raw with
  | [hours, minutes, seconds] => do
    return ⟨← readCount? hours, ← readCount? minutes, ← readCount? seconds⟩
  | _ => none

/-- The value that a key gets from a text. -/
def readValue (key raw : String) : Except Fault Value :=
  match valueType key with
  | .flag =>
    if raw = "1" then .ok (.flag true)
    else if raw = "0" then .ok (.flag false)
    else .error (.badBoolean key raw)
  | .count =>
    match readCount? raw.toList with
    | some n => .ok (.count n)
    | none => .error (.badInteger key raw)
  | .time =>
    match readTime? raw.toList with
    | some t => .ok (.time t)
    | none => .error (.badTimestamp key raw)
  | .text => .ok (.text raw)

/-- The attribute that a line assigns. -/
def ofLine (l : Line) : Except Error Attribute :=
  match split? l.text.toList with
  | none => .error (.badLine l.number (.notAssignment (Text.trimmed l.text)))
  | some (key, raw) =>
    match readValue (String.ofList key) (String.ofList raw) with
    | .ok value => .ok ⟨String.ofList key, value, l.number⟩
    | .error fault => .error (.badLine l.number fault)

end Attribute

end Montage
