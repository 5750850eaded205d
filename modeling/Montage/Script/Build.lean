import Montage.Event
import Montage.Script.Attributes

/-!
# Operations from blocks

Each kind of block has its table of keys.  `Operation.builder` takes the keys of a kind out of the
attributes of a block, in a fixed order, which decides the error of a block with several faults.
`Step.ofBlock` builds the whole step and reports the keys that the kind did not use.
-/

namespace Montage

open Builder

namespace Operation

/-- The preset of the encoder when a block names none. -/
def defaultPreset : String := "medium"

/-- The medium of a source, from the word that names it. -/
def readMedium (token : String) : Builder Medium := fun as =>
  match Medium.ofToken? token with
  | some medium => .ok (medium, as)
  | none => .error (.unknownKind token as.line)

/-- The keys of a definition. -/
def buildDefinition : Builder Operation := do
  let name ← required text "name"
  let medium ← readMedium (← required text "type")
  let source ← required text "source"
  let hasAudio ← flag "hasaudio"
  let duration ← count64 "duration"
  let durationFrom ← text "duration_from"
  return .define ⟨name, medium, ⟨source⟩, hasAudio.getD false, duration, durationFrom⟩

/-- The keys that every effect has, followed by its own. -/
def buildEffect (own : Builder Effect) : Builder Operation := do
  let input ← required text "clip"
  let output ← required text "out"
  return .effect input output (← own)

/-- The keys of a new size. -/
def buildResize : Builder Effect := do
  return .resize (← count32 "height") (← count32 "width")

/-- The keys of a placement. -/
def buildPosition : Builder Effect := do
  return .position (← count32 "x") (← count32 "y")

/-- The keys of a border. -/
def buildMargin : Builder Effect := do
  let size ← count32 "size"
  let opacity ← count32 "opacity"
  let red ← count8 "red"
  let green ← count8 "green"
  let blue ← count8 "blue"
  return .margin ⟨size, opacity, red, green, blue⟩

/-- The keys of a sequence of clips. -/
def buildConcatenation : Builder Operation := do
  let output ← required text "out"
  return .mix output (.concatenate (← required list "clips"))

/-- A canvas has both sides or none. -/
def readCanvas : Builder (Option Canvas) := do
  match ← count32 "width", ← count32 "height" with
  | some width, some height => return some ⟨width, height⟩
  | none, none => return none
  | some _, none => missing "height"
  | none, some _ => missing "width"

/-- The keys of a composition. -/
def buildComposition : Builder Operation := do
  let output ← required text "out"
  let clips ← required list "clips"
  return .mix output (.composite clips (← readCanvas))

/-- The keys of a new sound. -/
def buildSetAudio : Builder Operation := do
  let output ← required text "out"
  let picture ← required text "clip"
  return .mix output (.setAudio picture (← required text "audio"))

/-- The keys of a part of a clip. -/
def buildSubclip : Builder Operation := do
  let input ← required text "clip"
  let start ← required time "start"
  let stop ← time "end"
  return .subclip ⟨input, start, stop, ← required text "out"⟩

/-- The keys of a file to be written. -/
def buildDelivery : Builder Operation := do
  let input ← required text "clip"
  let destination ← required text "out"
  let fps ← required count32 "fps"
  let codec ← required text "codec"
  let preset ← text "preset"
  let threads ← count32 "threads"
  let params ← list "params"
  return .deliver
    ⟨input, ⟨destination⟩, fps, codec, preset.getD defaultPreset, threads, params.getD []⟩

/-- The operation that a block of a kind stands for. -/
def builder : Kind → Builder Operation
  | .define => buildDefinition
  | .resize => buildEffect buildResize
  | .position => buildEffect buildPosition
  | .margin => buildEffect buildMargin
  | .concatenate => buildConcatenation
  | .compose => buildComposition
  | .setAudio => buildSetAudio
  | .subclip => buildSubclip
  | .deliver => buildDelivery

end Operation

/-- The report on the attributes that are left of a block; nothing is said when none are. -/
def Attributes.unusedEvents (left : Attributes) : List Event :=
  if left.entries.isEmpty then [] else [.unusedAttributes left.kind left.line left.keys]

/-- The step that a block stands for, with what there is to report about it. -/
def Step.ofBlock (b : Block) : Except Error (Step × List Event) :=
  match Kind.ofToken? b.kind with
  | none => .error (.unknownKind b.kind b.line)
  | some kind => do
    let (operation, left) ← Operation.builder kind (← Attributes.ofBlock b)
    return (⟨b.line, operation⟩, left.unusedEvents)

end Montage
