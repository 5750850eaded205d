import Montage.Frame
import Montage.Json.Reader
import Montage.Seconds.Text
import Montage.Text.Blank

/-!
# Probe documents

The prober describes a media file as a JSON document: a list of streams and a format.  A `Probe` is
what matters of it.  `Probe.ofBytes?` reads a document; each of its three records may be an object
or an array of its fields in order, unknown fields are skipped, and a known field may not be
repeated.
-/

namespace Montage

open Json

/-- What matters of a media file. -/
structure Probe where
  /-- The length in seconds, when the file names a proper one. -/
  duration : Option Seconds
  /-- The size of the first video stream, when it names both sides. -/
  size : Option Canvas
  hasVideo : Bool
  hasAudio : Bool
  deriving DecidableEq, Repr

namespace Probe

/-- A stream, as far as it matters. -/
structure Track where
  codecType : Option String
  width : Option UInt32
  height : Option UInt32
  deriving DecidableEq, Repr

/-! ### Records -/

/-- The fields of an object by name, if every name is a text. -/
def namedFields? (fields : List (Bytes × Json Bytes)) : Option (List (String × Json Bytes)) :=
  fields.mapM fun f => do return (← textOf? f.1, f.2)

/-- The fields of a record with the given names.  No name may be repeated. -/
def fields? (names : List String) : Json Bytes → Option (List (String × Json Bytes))
  | .object fields => do
    let named ← namedFields? fields
    if names.all fun name => (named.filter fun f => f.1 == name).length ≤ 1 then some named
    else none
  | .array items => if items.length = names.length then some (names.zip items) else none
  | _ => none

/-- An optional field, which may be missing or `null`. -/
def field? {α : Type} (fields : List (String × Json Bytes)) (name : String)
    (item : Json Bytes → Option α) : Option (Option α) :=
  match fields.lookup name with
  | none => some none
  | some j => optional? item j

/-- A string that is a text. -/
def text? (j : Json Bytes) : Option String := j.string?.bind textOf?

/-- A number of 32 bits. -/
def side? (j : Json Bytes) : Option UInt32 := (j.natBelow? UInt32.size).map UInt32.ofNat

/-! ### The document -/

/-- A stream of the document. -/
def track? (j : Json Bytes) : Option Track := do
  let fields ← fields? ["codec_type", "width", "height"] j
  let codecType ← field? fields "codec_type" text?
  let width ← field? fields "width" side?
  let height ← field? fields "height" side?
  return ⟨codecType, width, height⟩

/-- The streams of the document; there may be none. -/
def tracks? (fields : List (String × Json Bytes)) : Option (List Track) :=
  match fields.lookup "streams" with
  | none => some []
  | some j => j.items?.bind fun items => items.mapM track?

/-- The text of the length in the format of the document. -/
def durationText? (j : Json Bytes) : Option (Option String) := do
  let fields ← fields? ["duration"] j
  field? fields "duration" text?

/-- The length that a text names, when it is finite and not below zero. -/
def length? (text : String) : Option Seconds :=
  (Seconds.ofText? (Text.trim text.toList)).filter Seconds.isLength

/-- What the streams and the length of a document come to. -/
def ofTracks (tracks : List Track) (duration : Option String) : Probe :=
  let video := tracks.find? fun t => t.codecType = some "video"
  { duration := duration.bind length?
    size := video.bind fun t => do return ⟨← t.width, ← t.height⟩
    hasVideo := video.isSome
    hasAudio := tracks.any fun t => t.codecType = some "audio" }

/-- What a document says. -/
def ofJson? (j : Json Bytes) : Option Probe := do
  let fields ← fields? ["streams", "format"] j
  let tracks ← tracks? fields
  let duration ← field? fields "format" durationText?
  return ofTracks tracks (duration.getD none)

/-- Reads a document. -/
def ofBytes? (document : Bytes) : Option Probe := (read? document).bind ofJson?

end Probe

end Montage
