import Montage.Json.Record
import Montage.Operation

/-!
# Steps in JSON

`Step.toJson` writes a step as one object: the line, the tag `op`, and the fields of the operation.
An effect and a combination are objects of their own, with the tag `kind`.  Every field is written,
an absent one as `null`.  `Step.ofJson?` reads this form back; fields may come in any order, absent
optional fields may be left out and unknown fields are ignored.

Within a step a tag may also be given as a number, its place among the tags of its kind.  An effect
that stands alone, `Effect.ofJson?`, has its tag as a word.
-/

namespace Montage

open Json

/-! ### Numbers -/

/-- A number of 64 bits. -/
def Json.word64? (j : Json String) : Option UInt64 := (j.natBelow? UInt64.size).map UInt64.ofNat

/-- A number of 32 bits. -/
def Json.word32? (j : Json String) : Option UInt32 := (j.natBelow? UInt32.size).map UInt32.ofNat

/-- A number of eight bits. -/
def Json.word8? (j : Json String) : Option UInt8 := (j.natBelow? UInt8.size).map UInt8.ofNat

/-- A number of 64 bits as JSON. -/
def Json.word64 (n : UInt64) : Json String := .nat n.toNat

/-- A number of 32 bits as JSON. -/
def Json.word32 (n : UInt32) : Json String := .nat n.toNat

/-- A number of eight bits as JSON. -/
def Json.word8 (n : UInt8) : Json String := .nat n.toNat

/-! ### The parts of operations -/

namespace Timestamp

/-- A timestamp as JSON. -/
def toJson (t : Timestamp) : Json String :=
  .object [("hours", word64 t.hours), ("minutes", word64 t.minutes), ("seconds", word64 t.seconds)]

/-- The timestamp of a JSON value. -/
def ofJson? (j : Json String) : Option Timestamp := do
  let fields ← record? ["hours", "minutes", "seconds"] j
  return ⟨← required? fields "hours" word64?, ← required? fields "minutes" word64?,
    ← required? fields "seconds" word64?⟩

end Timestamp

namespace Canvas

/-- A size as JSON. -/
def toJson (c : Canvas) : Json String :=
  .object [("width", word32 c.width), ("height", word32 c.height)]

/-- The size of a JSON value. -/
def ofJson? (j : Json String) : Option Canvas := do
  let fields ← record? ["width", "height"] j
  return ⟨← required? fields "width" word32?, ← required? fields "height" word32?⟩

end Canvas

/-- A value that says nothing: `null` or an object without fields. -/
def Json.isVoid : Json String → Bool
  | .null => true
  | .object [] => true
  | _ => false

/-- A medium, by its word; the word may also be the name of a single field that says nothing. -/
def Medium.ofJson? : Json String → Option Medium
  | .string word => Medium.ofToken? word
  | .object [(word, j)] => if j.isVoid then Medium.ofToken? word else none
  | _ => none

/-- One of several words. -/
def Json.oneOf? (words : List String) : Json String → Option String
  | .string word => if words.contains word then some word else none
  | _ => none

/-- One of several words, by itself or by its place among them, counted from zero. -/
def Json.choice? (words : List String) : Json String → Option String
  | .string word => if words.contains word then some word else none
  | j => j.nat?.bind fun place => words[place]?

/-- The tag of a value: its field `kind`, or the first item of an array. -/
def Json.tag? : Json String → Option (Json String)
  | .object fields => lookupLast "kind" fields
  | .array (tag :: _) => some tag
  | _ => none

namespace Effect

/-- An effect as JSON. -/
def toJson : Effect → Json String
  | .margin m =>
    .object [("kind", .string "margin"), ("size", optional word32 m.size),
      ("opacity", optional word32 m.opacity), ("red", optional word8 m.red),
      ("green", optional word8 m.green), ("blue", optional word8 m.blue)]
  | .position x y =>
    .object [("kind", .string "position"), ("x", optional word32 x), ("y", optional word32 y)]
  | .resize height width =>
    .object [("kind", .string "resize"), ("height", optional word32 height),
      ("width", optional word32 width)]

/-- The border of a JSON value. -/
def marginOfJson? (j : Json String) : Option Effect := do
  let fields ← record? ["kind", "size", "opacity", "red", "green", "blue"] j
  let size ← omitted? fields "size" word32?
  let opacity ← omitted? fields "opacity" word32?
  let red ← omitted? fields "red" word8?
  let green ← omitted? fields "green" word8?
  let blue ← omitted? fields "blue" word8?
  return .margin ⟨size, opacity, red, green, blue⟩

/-- The placement of a JSON value. -/
def positionOfJson? (j : Json String) : Option Effect := do
  let fields ← record? ["kind", "x", "y"] j
  return .position (← omitted? fields "x" word32?) (← omitted? fields "y" word32?)

/-- The new size of a JSON value. -/
def resizeOfJson? (j : Json String) : Option Effect := do
  let fields ← record? ["kind", "height", "width"] j
  return .resize (← omitted? fields "height" word32?) (← omitted? fields "width" word32?)

/-- Every tag. -/
def tags : List String := ["margin", "position", "resize"]

/-- The effect of a JSON value with the given tag. -/
def ofTagged? (tag : String) (j : Json String) : Option Effect :=
  if tag = "margin" then marginOfJson? j
  else if tag = "position" then positionOfJson? j
  else if tag = "resize" then resizeOfJson? j
  else none

/-- The effect of a JSON value that stands alone; its tag is a word. -/
def ofJson? (j : Json String) : Option Effect := do
  let tag ← tag? j
  ofTagged? (← oneOf? tags tag) j

/-- The effect of a JSON value within a step; its tag is a word or the place of a word. -/
def ofPart? (j : Json String) : Option Effect := do
  let tag ← tag? j
  ofTagged? (← choice? tags tag) j

end Effect

namespace Mix

/-- A combination as JSON. -/
def toJson : Mix → Json String
  | .concatenate clips =>
    .object [("kind", .string "concatenate"), ("input_clips", strings clips)]
  | .composite clips size =>
    .object [("kind", .string "composite"), ("input_clips", strings clips),
      ("size", optional Canvas.toJson size)]
  | .setAudio picture sound =>
    .object [("kind", .string "set_audio"), ("input_clip", .string picture),
      ("audio_clip_name", .string sound)]

/-- The sequence of clips of a JSON value. -/
def concatenateOfJson? (j : Json String) : Option Mix := do
  let fields ← record? ["kind", "input_clips"] j
  return .concatenate (← required? fields "input_clips" strings?)

/-- The composition of a JSON value. -/
def compositeOfJson? (j : Json String) : Option Mix := do
  let fields ← record? ["kind", "input_clips", "size"] j
  return .composite (← required? fields "input_clips" strings?)
    (← omitted? fields "size" Canvas.ofJson?)

/-- The new sound of a JSON value. -/
def setAudioOfJson? (j : Json String) : Option Mix := do
  let fields ← record? ["kind", "input_clip", "audio_clip_name"] j
  return .setAudio (← required? fields "input_clip" string?)
    (← required? fields "audio_clip_name" string?)

/-- Every tag. -/
def tags : List String := ["concatenate", "composite", "set_audio"]

/-- The combination of a JSON value with the given tag. -/
def ofTagged? (tag : String) (j : Json String) : Option Mix :=
  if tag = "concatenate" then concatenateOfJson? j
  else if tag = "composite" then compositeOfJson? j
  else if tag = "set_audio" then setAudioOfJson? j
  else none

/-- The combination of a JSON value within a step; its tag is a word or the place of a word. -/
def ofPart? (j : Json String) : Option Mix := do
  let tag ← tag? j
  ofTagged? (← choice? tags tag) j

end Mix

/-! ### Operations and steps -/

namespace Operation

/-- The tag of an operation. -/
def tag : Operation → String
  | .define _ => "define"
  | .effect .. => "effect"
  | .mix .. => "mix"
  | .subclip _ => "subclip"
  | .deliver _ => "export"

/-- Every tag. -/
def tags : List String := ["define", "effect", "mix", "subclip", "export"]

/-- The fields of an operation. -/
def fields : Operation → List (String × Json String)
  | .define d =>
    [("name", .string d.name), ("media_type", .string d.medium.token),
     ("source_path", .string d.source.text), ("has_audio", .bool d.hasAudio),
     ("duration", optional word64 d.duration), ("duration_from", optional .string d.durationFrom)]
  | .effect input output e =>
    [("input_clip", .string input), ("output_name", .string output), ("effect", e.toJson)]
  | .mix output m => [("output_name", .string output), ("kind", m.toJson)]
  | .subclip s =>
    [("input_clip", .string s.input), ("start", s.start.toJson),
     ("end", optional Timestamp.toJson s.stop), ("output_name", .string s.output)]
  | .deliver d =>
    [("input_clip", .string d.input), ("destination_path", .string d.destination.text),
     ("fps", word32 d.fps), ("codec", .string d.codec), ("preset", .string d.preset),
     ("threads", optional word32 d.threads), ("extra_params", strings d.params)]

/-- The definition with the given fields. -/
def defineOfFields? (f : String → Option (Json String)) : Option Operation := do
  let name ← required? f "name" string?
  let medium ← required? f "media_type" Medium.ofJson?
  let source ← required? f "source_path" string?
  let hasAudio ← required? f "has_audio" bool?
  let duration ← omitted? f "duration" word64?
  let durationFrom ← omitted? f "duration_from" string?
  return .define ⟨name, medium, ⟨source⟩, hasAudio, duration, durationFrom⟩

/-- The effect with the given fields. -/
def effectOfFields? (f : String → Option (Json String)) : Option Operation := do
  return .effect (← required? f "input_clip" string?) (← required? f "output_name" string?)
    (← required? f "effect" Effect.ofPart?)

/-- The combination with the given fields. -/
def mixOfFields? (f : String → Option (Json String)) : Option Operation := do
  return .mix (← required? f "output_name" string?) (← required? f "kind" Mix.ofPart?)

/-- The part of a clip with the given fields. -/
def subclipOfFields? (f : String → Option (Json String)) : Option Operation := do
  let input ← required? f "input_clip" string?
  let start ← required? f "start" Timestamp.ofJson?
  let stop ← omitted? f "end" Timestamp.ofJson?
  return .subclip ⟨input, start, stop, ← required? f "output_name" string?⟩

/-- The file to be written with the given fields. -/
def deliverOfFields? (f : String → Option (Json String)) : Option Operation := do
  let input ← required? f "input_clip" string?
  let destination ← required? f "destination_path" string?
  let fps ← required? f "fps" word32?
  let codec ← required? f "codec" string?
  let preset ← required? f "preset" string?
  let threads ← omitted? f "threads" word32?
  let params ← required? f "extra_params" strings?
  return .deliver ⟨input, ⟨destination⟩, fps, codec, preset, threads, params⟩

/-- The operation with the given tag and fields. -/
def ofFields? (tag : String) (f : String → Option (Json String)) : Option Operation :=
  if tag = "define" then defineOfFields? f
  else if tag = "effect" then effectOfFields? f
  else if tag = "mix" then mixOfFields? f
  else if tag = "subclip" then subclipOfFields? f
  else if tag = "export" then deliverOfFields? f
  else none

end Operation

namespace Step

/-- A step as JSON. -/
def toJson (s : Step) : Json String :=
  .object (("line", .nat s.line) :: ("op", .string s.operation.tag) :: s.operation.fields)

/-- The step of a JSON object. -/
def ofJson? : Json String → Option Step
  | .object fields => do
    let f := fun name => lookupLast name fields
    let line ← required? f "line" (natBelow? UInt64.size)
    let tag ← required? f "op" (choice? Operation.tags)
    return ⟨line, ← Operation.ofFields? tag f⟩
  | _ => none

end Step

end Montage
