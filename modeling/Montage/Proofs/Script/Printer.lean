import Montage.Script

/-!
# Writing scripts

`Script.print` writes operations as the text of a script: a block for each, which opens with its
kind, assigns each of its fields on a line of its own, and is closed.  `Operation.table` is the
table of what a block assigns; a field without a value gets no line.

Not every operation can be written in this way, because a line can only assign a text of one line
that is made of value characters and blanks, with no blank at its ends.  `Operation.Expressible`
says that all the texts of an operation are of this form.  `placed` gives each operation the line on
which its block opens.
-/

namespace Montage

/-! ### Values -/

namespace Value

/-- The type of a value. -/
def type : Value → Attribute.ValueType
  | .flag _ => .flag
  | .count _ => .count
  | .time _ => .time
  | .text _ => .text

/-- A value as a line assigns it: truth values as 0 and 1, numbers in decimal, timestamps as their
parts. -/
def written : Value → String
  | .flag b => if b then "1" else "0"
  | .count n => toString n.toNat
  | .time t => t.text
  | .text s => s

/-- A list of words, separated by single spaces. -/
def ofWords (ws : List String) : Value := .text (" ".intercalate ws)

end Value

/-! ### Fields -/

/-- The fields of an effect. -/
def Effect.table : Effect → List (String × Option Value)
  | .margin m =>
    [("size", m.size.map fun n => .count n.toUInt64),
     ("opacity", m.opacity.map fun n => .count n.toUInt64),
     ("red", m.red.map fun n => .count n.toUInt64),
     ("green", m.green.map fun n => .count n.toUInt64),
     ("blue", m.blue.map fun n => .count n.toUInt64)]
  | .position x y =>
    [("x", x.map fun n => .count n.toUInt64), ("y", y.map fun n => .count n.toUInt64)]
  | .resize height width =>
    [("height", height.map fun n => .count n.toUInt64),
     ("width", width.map fun n => .count n.toUInt64)]

/-- The fields of a combination. -/
def Mix.table : Mix → List (String × Option Value)
  | .concatenate clips => [("clips", some (.ofWords clips))]
  | .composite clips size =>
    [("clips", some (.ofWords clips)),
     ("width", size.map fun c => .count c.width.toUInt64),
     ("height", size.map fun c => .count c.height.toUInt64)]
  | .setAudio picture sound => [("clip", some (.text picture)), ("audio", some (.text sound))]

namespace Operation

/-- What a block assigns: the key of each field, and its value if it has one. -/
def table : Operation → List (String × Option Value)
  | .define d =>
    [("name", some (.text d.name)),
     ("type", some (.text d.medium.token)),
     ("source", some (.text d.source.text)),
     ("hasaudio", some (.flag d.hasAudio)),
     ("duration", d.duration.map .count),
     ("duration_from", d.durationFrom.map .text)]
  | .effect input output e =>
    ("clip", some (.text input)) :: ("out", some (.text output)) :: e.table
  | .mix output m => ("out", some (.text output)) :: m.table
  | .subclip s =>
    [("clip", some (.text s.input)),
     ("start", some (.time s.start)),
     ("end", s.stop.map .time),
     ("out", some (.text s.output))]
  | .deliver d =>
    [("clip", some (.text d.input)),
     ("out", some (.text d.destination.text)),
     ("fps", some (.count d.fps.toUInt64)),
     ("codec", some (.text d.codec)),
     ("preset", some (.text d.preset)),
     ("threads", d.threads.map fun n => .count n.toUInt64),
     ("params", if d.params = [] then none else some (.ofWords d.params))]

/-- The fields that have a value. -/
def assignments (op : Operation) : List (String × Value) :=
  op.table.filterMap fun f => f.2.map fun v => (f.1, v)

/-- The line that opens the block of an operation. -/
def openingLine (op : Operation) : String := "#do " ++ op.kind.token

/-- The line that assigns a value to a key. -/
def assignmentLine (a : String × Value) : String := a.1 ++ " = " ++ a.2.written

/-- The lines of the block that asks for an operation. -/
def lines (op : Operation) : List String :=
  op.openingLine :: (op.assignments.map assignmentLine ++ ["#end"])

end Operation

/-! ### Scripts -/

namespace Script

/-- The text of a script that asks for operations, each line ended by a line feed. -/
def print (ops : List Operation) : String :=
  String.join ((ops.flatMap Operation.lines).map fun l => l ++ "\n")

/-- The operations with the lines on which their blocks open, when the first one opens on the given
line. -/
def placed (first : Nat) : List Operation → List Step
  | [] => []
  | op :: ops => ⟨first, op⟩ :: placed (first + op.lines.length) ops

end Script

/-! ### What can be written -/

/-- A line can assign the text: it is not empty, it has no line feed, it is made of value characters
and blanks, and it begins and ends with a value character. -/
structure Text.Assignable (s : String) : Prop where
  nonempty : s ≠ ""
  oneLine : '\n' ∉ s.toList
  made : ∀ c ∈ s.toList, Text.isValueChar c = true ∨ Text.isBlank c = true
  first : ∀ c ∈ s.toList.head?, Text.isValueChar c = true
  last : ∀ c ∈ s.toList.getLast?, Text.isValueChar c = true

/-- A list can have the text as a word: it is not empty, and is made of value characters. -/
structure Text.Listable (s : String) : Prop where
  nonempty : s ≠ ""
  made : ∀ c ∈ s.toList, Text.isValueChar c = true

namespace Text

/-- Whether a line can assign a text can be computed. -/
instance : DecidablePred Assignable := fun s =>
  decidable_of_iff (s ≠ "" ∧ '\n' ∉ s.toList ∧
      s.toList.all (fun c => isValueChar c || isBlank c) = true ∧
      s.toList.head?.all isValueChar = true ∧ s.toList.getLast?.all isValueChar = true)
    ⟨fun ⟨hne, hline, hmade, hfirst, hlast⟩ => ⟨hne, hline, by simpa using hmade,
        by simpa [Option.all_eq_true] using hfirst, by simpa [Option.all_eq_true] using hlast⟩,
      fun h => ⟨h.nonempty, h.oneLine, by simpa using h.made,
        by simpa [Option.all_eq_true] using h.first, by simpa [Option.all_eq_true] using h.last⟩⟩

/-- Whether a list can have a text as a word can be computed. -/
instance : DecidablePred Listable := fun s =>
  decidable_of_iff (s ≠ "" ∧ s.toList.all isValueChar = true)
    ⟨fun ⟨hne, hmade⟩ => ⟨hne, by simpa using hmade⟩,
      fun h => ⟨h.nonempty, by simpa using h.made⟩⟩

end Text

/-- The texts of a combination can be written. -/
def Mix.Expressible : Mix → Prop
  | .concatenate clips => clips ≠ [] ∧ ∀ c ∈ clips, Text.Listable c
  | .composite clips _ => clips ≠ [] ∧ ∀ c ∈ clips, Text.Listable c
  | .setAudio picture sound => Text.Assignable picture ∧ Text.Assignable sound

/-- Whether a combination can be written can be computed. -/
instance : DecidablePred Mix.Expressible
  | .concatenate clips => inferInstanceAs (Decidable (clips ≠ [] ∧ ∀ c ∈ clips, Text.Listable c))
  | .composite clips _ => inferInstanceAs (Decidable (clips ≠ [] ∧ ∀ c ∈ clips, Text.Listable c))
  | .setAudio picture sound =>
    inferInstanceAs (Decidable (Text.Assignable picture ∧ Text.Assignable sound))

/-- The texts of an operation can be written. -/
def Operation.Expressible : Operation → Prop
  | .define d => Text.Assignable d.name ∧ Text.Assignable d.source.text ∧
      ∀ name ∈ d.durationFrom, Text.Assignable name
  | .effect input output _ => Text.Assignable input ∧ Text.Assignable output
  | .mix output m => Text.Assignable output ∧ m.Expressible
  | .subclip s => Text.Assignable s.input ∧ Text.Assignable s.output
  | .deliver d => Text.Assignable d.input ∧ Text.Assignable d.destination.text ∧
      Text.Assignable d.codec ∧ Text.Assignable d.preset ∧ ∀ p ∈ d.params, Text.Listable p

/-- Whether an operation can be written can be computed. -/
instance : DecidablePred Operation.Expressible
  | .define d => inferInstanceAs (Decidable (Text.Assignable d.name ∧
      Text.Assignable d.source.text ∧ ∀ name ∈ d.durationFrom, Text.Assignable name))
  | .effect input output _ =>
    inferInstanceAs (Decidable (Text.Assignable input ∧ Text.Assignable output))
  | .mix output m => inferInstanceAs (Decidable (Text.Assignable output ∧ m.Expressible))
  | .subclip s => inferInstanceAs (Decidable (Text.Assignable s.input ∧ Text.Assignable s.output))
  | .deliver d => inferInstanceAs (Decidable (Text.Assignable d.input ∧
      Text.Assignable d.destination.text ∧ Text.Assignable d.codec ∧ Text.Assignable d.preset ∧
      ∀ p ∈ d.params, Text.Listable p))

end Montage
