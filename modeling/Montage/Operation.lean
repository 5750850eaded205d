import Montage.Frame
import Montage.Path
import Montage.Timestamp

/-!
# Operations

A script is a list of operations on named clips.  `Operation` says what one block asks for, and
`Step` adds the line of the block.  `Operation.inputs` lists the names that an operation reads and
`Operation.output?` is the name that it binds; nothing else ties operations together.
-/

namespace Montage

/-! ### Kinds of blocks -/

/-- The kinds of blocks. -/
inductive Kind where
  | define
  | resize
  | position
  | margin
  | concatenate
  | compose
  | setAudio
  | subclip
  | deliver
  deriving DecidableEq, Repr

namespace Kind

/-- Every kind. -/
def all : List Kind :=
  [.define, .resize, .position, .margin, .concatenate, .compose, .setAudio, .subclip, .deliver]

/-- The word that names a kind in scripts. -/
def token : Kind → String
  | .define => "define"
  | .resize => "resize"
  | .position => "position"
  | .margin => "margin"
  | .concatenate => "concatenate"
  | .compose => "composition"
  | .setAudio => "setaudio"
  | .subclip => "subclip"
  | .deliver => "export"

/-- The kind that a word names, if any. -/
def ofToken? (token : String) : Option Kind := all.find? fun k => k.token == token

/-- A kind is read back from its own word. -/
theorem ofToken?_token (k : Kind) : ofToken? k.token = some k := by
  cases k <;> decide

/-- Only the word of a kind names it. -/
theorem token_of_ofToken? {token : String} {k : Kind} (h : ofToken? token = some k) :
    k.token = token := by
  simpa using List.find?_some h

end Kind

/-- The media that a source file can hold. -/
inductive Medium where
  | audio
  | image
  | video
  deriving DecidableEq, Repr

namespace Medium

/-- Every medium. -/
def all : List Medium := [.audio, .image, .video]

/-- The word that names a medium in scripts. -/
def token : Medium → String
  | .audio => "audio"
  | .image => "image"
  | .video => "video"

/-- The medium that a word names, if any. -/
def ofToken? (token : String) : Option Medium := all.find? fun m => m.token == token

/-- A medium is read back from its own word. -/
theorem ofToken?_token (m : Medium) : ofToken? m.token = some m := by
  cases m <;> decide

end Medium

/-! ### The operations -/

/-- A new clip made from a source file. -/
structure Definition where
  name : String
  medium : Medium
  source : Path
  /-- The sound of a video source is kept. -/
  hasAudio : Bool
  /-- The length in seconds; it wins over `durationFrom`. -/
  duration : Option UInt64
  /-- The clip whose length is taken when none is given. -/
  durationFrom : Option String
  deriving DecidableEq, Repr

/-- A coloured border around a picture.  What is not given is left to the backend. -/
structure Margin where
  size : Option UInt32
  opacity : Option UInt32
  red : Option UInt8
  green : Option UInt8
  blue : Option UInt8
  deriving DecidableEq, Repr

/-- A change of one clip. -/
inductive Effect where
  /-- A border. -/
  | margin (m : Margin)
  /-- The place of the clip on a canvas. -/
  | position (x y : Option UInt32)
  /-- A new size; a missing side follows from the aspect ratio. -/
  | resize (height width : Option UInt32)
  deriving DecidableEq, Repr

/-- The kind of block that asks for an effect. -/
def Effect.kind : Effect → Kind
  | .margin _ => .margin
  | .position .. => .position
  | .resize .. => .resize

/-- A combination of several clips. -/
inductive Mix where
  /-- The clips one after another, in list order. -/
  | concatenate (clips : List String)
  /-- The clips on one canvas, the first one at the bottom. -/
  | composite (clips : List String) (size : Option Canvas)
  /-- The picture of one clip with the sound of another. -/
  | setAudio (picture sound : String)
  deriving DecidableEq, Repr

namespace Mix

/-- The kind of block that asks for a combination. -/
def kind : Mix → Kind
  | .concatenate _ => .concatenate
  | .composite .. => .compose
  | .setAudio .. => .setAudio

/-- The clips that are combined. -/
def inputs : Mix → List String
  | .concatenate clips => clips
  | .composite clips _ => clips
  | .setAudio picture sound => [picture, sound]

end Mix

/-- The part of a clip between two positions; without an end it runs to the end of the clip. -/
structure Subclip where
  input : String
  start : Timestamp
  stop : Option Timestamp
  output : String
  deriving DecidableEq, Repr

/-- A clip written to a file. -/
structure Delivery where
  input : String
  destination : Path
  fps : UInt32
  codec : String
  preset : String
  threads : Option UInt32
  /-- Further arguments of the encoder, passed on as they are. -/
  params : List String
  deriving DecidableEq, Repr

/-- What one block asks for. -/
inductive Operation where
  | define (d : Definition)
  | effect (input output : String) (effect : Effect)
  | mix (output : String) (mix : Mix)
  | subclip (s : Subclip)
  | deliver (d : Delivery)
  deriving DecidableEq, Repr

namespace Operation

/-- The kind of block that asks for an operation. -/
def kind : Operation → Kind
  | .define _ => .define
  | .effect _ _ e => e.kind
  | .mix _ m => m.kind
  | .subclip _ => .subclip
  | .deliver _ => .deliver

/-- The names that an operation reads, in the order in which they are looked up. -/
def inputs : Operation → List String
  | .define d =>
    match d.duration with
    | some _ => []
    | none => d.durationFrom.toList
  | .effect input _ _ => [input]
  | .mix _ m => m.inputs
  | .subclip s => [s.input]
  | .deliver d => [d.input]

/-- The name that an operation binds, if any. -/
def output? : Operation → Option String
  | .define d => some d.name
  | .effect _ output _ => some output
  | .mix output _ => some output
  | .subclip s => some s.output
  | .deliver _ => none

end Operation

/-- An operation with the line on which its block opens. -/
structure Step where
  line : Nat
  operation : Operation
  deriving DecidableEq, Repr

end Montage
