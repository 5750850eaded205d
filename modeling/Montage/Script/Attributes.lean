import Montage.Script.Attribute

/-!
# The attributes of a block

`Attributes` holds what the lines of one block assign.  An operation is built by a `Builder`, which
takes the attributes it needs out of them, by key and type; of several assignments to one key the
last one counts.  What is left when the operation is built was not used.
-/

namespace Montage

/-- The assignments of a block, in order, with the kind and line of the block. -/
structure Attributes where
  kind : String
  line : Nat
  entries : List Attribute
  deriving DecidableEq, Repr

namespace Attributes

/-- The assignments that the lines of a block make; the first line that cannot be used is the
error. -/
def ofBlock (b : Block) : Except Error Attributes := do
  return ⟨b.kind, b.line, ← b.lines.mapM Attribute.ofLine⟩

/-- The last assignment to a key. -/
def find? (key : String) (as : Attributes) : Option Attribute :=
  as.entries.reverse.find? fun a => a.key == key

/-- What is left without the assignments to a key. -/
def erase (key : String) (as : Attributes) : Attributes :=
  { as with entries := as.entries.filter fun a => !(a.key == key) }

/-- The keys that are assigned to, each once, in the order of their characters. -/
def keys (as : Attributes) : List String :=
  (as.entries.map (·.key)).eraseDups.mergeSort fun a b => decide (a ≤ b)

end Attributes

/-- A builder takes attributes out of a block and makes something of them. -/
abbrev Builder (α : Type) := StateT Attributes (Except Error) α

namespace Builder

/-- Takes a key out, and gives its last assignment. -/
def take (key : String) : Builder (Option Attribute) := fun as =>
  .ok (as.find? key, as.erase key)

/-- Fails because the value of a key has an unexpected type. -/
def wrongType {α : Type} (a : Attribute) (expected : String) : Builder α := fun as =>
  .error (.badLine a.line (.wrongType a.key as.kind expected a.value.typeWord))

/-- An optional text. -/
def text (key : String) : Builder (Option String) := do
  match ← take key with
  | none => return none
  | some ⟨_, .text s, _⟩ => return some s
  | some other => wrongType other "text"

/-- An optional list of words. -/
def list (key : String) : Builder (Option (List String)) := do
  return (← text key).map fun s => (Text.words s.toList).map String.ofList

/-- An optional truth value. -/
def flag (key : String) : Builder (Option Bool) := do
  match ← take key with
  | none => return none
  | some ⟨_, .flag b, _⟩ => return some b
  | some other => wrongType other "a boolean"

/-- An optional timestamp. -/
def time (key : String) : Builder (Option Timestamp) := do
  match ← take key with
  | none => return none
  | some ⟨_, .time t, _⟩ => return some t
  | some other => wrongType other "a timestamp"

/-- An optional number below `limit`, turned into another type of numbers. -/
def countBelow {α : Type} (limit : Nat) (make : UInt64 → α) (key : String) :
    Builder (Option α) := do
  match ← take key with
  | none => return none
  | some ⟨_, .count n, line⟩ =>
    if n.toNat < limit then return some (make n)
    else throw (.badLine line (.outOfRange key n.toNat))
  | some other => wrongType other "an integer"

/-- An optional number of 64 bits. -/
def count64 : String → Builder (Option UInt64) := countBelow UInt64.size id

/-- An optional number of 32 bits. -/
def count32 : String → Builder (Option UInt32) := countBelow UInt32.size UInt64.toUInt32

/-- An optional number of eight bits. -/
def count8 : String → Builder (Option UInt8) := countBelow UInt8.size UInt64.toUInt8

/-- Fails because a block lacks a key. -/
def missing {α : Type} (key : String) : Builder α := fun as =>
  .error (.missingField as.kind key as.line)

/-- Turns an optional attribute into a required one. -/
def required {α : Type} (read : String → Builder (Option α)) (key : String) : Builder α := do
  match ← read key with
  | some a => return a
  | none => missing key

end Builder

end Montage
