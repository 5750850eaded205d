import Montage.Error
import Montage.Event

/-!
# Backends

A backend makes clips, knows how long they are and encodes them.  What a clip is, and what the
backend keeps between calls, is its own affair: `Backend σ γ` has states of type `σ` and clips of
type `γ`.  A call gives a `Reply` with the next state, whether it succeeds or fails.

`Recipe` says how a clip is made from a source file or from other clips, and `Encoding` how a clip
is written.  `Exchange` is one call with its outcome; a list of exchanges is the trace of a session.
-/

namespace Montage

/-- What a backend needs to open a source file. -/
structure Source where
  medium : Medium
  path : Path
  /-- The length in seconds, when the script gives one. -/
  duration : Option Seconds
  /-- The sound of a video source is kept. -/
  hasAudio : Bool
  deriving DecidableEq, Repr

/-- What a backend needs to encode a clip. -/
structure Encoding where
  destination : Path
  fps : UInt32
  codec : String
  preset : String
  threads : Option UInt32
  params : List String
  deriving DecidableEq, Repr

/-- How a clip is made. -/
inductive Recipe (γ : Type) where
  | source (s : Source)
  | effect (input : γ) (e : Effect)
  | concatenate (clips : List γ)
  | composite (layers : List γ) (size : Option Canvas)
  | attachAudio (picture sound : γ)
  | extractRange (input : γ) (start : Timestamp) (stop : Option Timestamp)
  deriving DecidableEq, Repr

/-- The same recipe with other clips. -/
def Recipe.map {γ δ : Type} (f : γ → δ) : Recipe γ → Recipe δ
  | .source s => .source s
  | .effect input e => .effect (f input) e
  | .concatenate clips => .concatenate (clips.map f)
  | .composite layers size => .composite (layers.map f) size
  | .attachAudio picture sound => .attachAudio (f picture) (f sound)
  | .extractRange input start stop => .extractRange (f input) start stop

/-- The answer to a call: its outcome, the state after it, and what there is to report. -/
structure Reply (σ α : Type) where
  outcome : Except Error α
  state : σ
  events : List Event

/-- An interface to whatever makes, measures and encodes clips. -/
structure Backend (σ γ : Type) where
  /-- Makes a clip. -/
  make : Recipe γ → σ → Reply σ γ
  /-- The length of a clip in seconds, when it is known. -/
  duration : γ → σ → Reply σ (Option Seconds)
  /-- Writes a clip to a file. -/
  encode : γ → Encoding → σ → Reply σ Unit

/-- A call of a backend with its outcome. -/
inductive Exchange (γ : Type) where
  | made (recipe : Recipe γ) (outcome : Except Error γ)
  | measured (clip : γ) (outcome : Except Error (Option Seconds))
  | encoded (clip : γ) (encoding : Encoding) (outcome : Except Error Unit)

end Montage
