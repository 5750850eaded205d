import Montage.Recorder

/-!
# Recorded calls as text

Each call of the recorder is shown on one line in the notation of inspection texts, under the name
of the call and with the names of its fields.
-/

namespace Montage

open Inspect

/-- A truth value. -/
def Inspect.truth (b : Bool) : String := toString b

/-- A medium. -/
def Medium.inspect : Medium → String
  | .audio => "Audio"
  | .image => "Image"
  | .video => "Video"

/-- A timestamp. -/
def Timestamp.inspect (t : Timestamp) : String :=
  record "Timestamp" [("hours", toString t.hours), ("minutes", toString t.minutes),
    ("seconds", toString t.seconds)]

/-- A source. -/
def Source.inspect (s : Source) : String :=
  record "ClipSource" [("kind", s.medium.inspect), ("path", quoted s.path.text),
    ("duration", optional Seconds.detailed s.duration), ("has_audio", truth s.hasAudio)]

/-- An effect. -/
def Effect.inspect : Effect → String
  | .margin m =>
    "Margin(" ++ record "Margin" [("size", optional toString m.size),
      ("opacity", optional toString m.opacity), ("red", optional toString m.red),
      ("green", optional toString m.green), ("blue", optional toString m.blue)] ++ ")"
  | .position x y => record "Position" [("x", optional toString x), ("y", optional toString y)]
  | .resize height width =>
    record "Resize" [("height", optional toString height), ("width", optional toString width)]

/-- An encoding. -/
def Encoding.inspect (e : Encoding) : String :=
  record "EncodeRequest" [("destination", quoted e.destination.text), ("fps", toString e.fps),
    ("codec", quoted e.codec), ("preset", quoted e.preset),
    ("threads", optional toString e.threads), ("extra_params", Inspect.list quoted e.params)]

/-- A recorded call. -/
def RecordedCall.inspect : RecordedCall → String
  | .made id recipe =>
    match recipe with
    | .source s => record "Construct" [("id", toString id), ("source", s.inspect)]
    | .effect input e =>
      record "Effect" [("id", toString id), ("input", toString input), ("effect", e.inspect)]
    | .concatenate clips =>
      record "Concatenate" [("id", toString id), ("inputs", Inspect.list toString clips)]
    | .composite layers size =>
      record "Composite" [("id", toString id), ("layers", Inspect.list toString layers),
        ("size", optional Canvas.inspect size)]
    | .attachAudio picture sound =>
      record "AttachAudio" [("id", toString id), ("clip", toString picture),
        ("audio", toString sound)]
    | .extractRange input start stop =>
      record "ExtractRange" [("id", toString id), ("input", toString input),
        ("start", start.inspect), ("end", optional Timestamp.inspect stop)]
  | .encoded clip encoding =>
    record "Encode" [("clip", toString clip), ("request", encoding.inspect)]

end Montage
