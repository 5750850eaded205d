import Montage.Backend

/-!
# The recorder

The recorder is a backend that touches no media.  It numbers the clips that it is asked to make,
keeps account of their lengths, and remembers every call.  A script is checked by running it against
the recorder.
-/

namespace Montage

/-- A clip of the recorder: its number, and its length in seconds when that is known. -/
structure NumberedClip where
  id : Nat
  duration : Option Seconds
  deriving DecidableEq, Repr

/-- A call that the recorder has accepted. -/
inductive RecordedCall where
  /-- A clip was made from other clips, given by their numbers. -/
  | made (id : Nat) (recipe : Recipe Nat)
  /-- A clip was written. -/
  | encoded (clip : Nat) (encoding : Encoding)
  deriving DecidableEq, Repr

/-- What the recorder remembers. -/
structure Recorder where
  /-- The calls, in order. -/
  calls : List RecordedCall
  /-- The number of the next clip. -/
  nextId : Nat
  deriving DecidableEq, Repr

/-- The length of a clip that is made from other clips. -/
def Recipe.recordedDuration : Recipe NumberedClip → Option Seconds
  | .source s => s.duration
  | .effect input _ => input.duration
  | .concatenate clips => Seconds.sumKnown (clips.map (·.duration))
  | .composite layers _ => Seconds.maximumKnown (layers.map (·.duration))
  | .attachAudio picture _ => picture.duration
  | .extractRange input start stop =>
    match stop with
    | some stop => some (stop.toSeconds.sub start.toSeconds).clampZero
    | none => input.duration.map fun total => (total.sub start.toSeconds).clampZero

namespace Recorder

/-- A recorder without calls. -/
def empty : Recorder := ⟨[], 0⟩

/-- Takes down how a clip is made, and gives it a number. -/
def make (recipe : Recipe NumberedClip) (r : Recorder) : Reply Recorder NumberedClip :=
  let call : RecordedCall := .made r.nextId (recipe.map (·.id))
  ⟨.ok ⟨r.nextId, recipe.recordedDuration⟩, ⟨r.calls ++ [call], r.nextId + 1⟩, []⟩

/-- Takes down that a clip is written, unless its destination is to be refused. -/
def encode (refused : Option Path) (clip : NumberedClip) (encoding : Encoding) (r : Recorder) :
    Reply Recorder Unit :=
  if refused.any fun path => path.sameAs encoding.destination then
    ⟨.error (.backend (.cannotWrite encoding.destination)), r, []⟩
  else ⟨.ok (), { r with calls := r.calls ++ [.encoded clip.id encoding] }, []⟩

/-- The recorder as a backend; `refused` is a destination that it fails to write. -/
def backend (refused : Option Path) : Backend Recorder NumberedClip where
  make := make
  duration clip r := ⟨.ok clip.duration, r, []⟩
  encode := encode refused

/-- The destination of a call that writes a clip. -/
def destination? : RecordedCall → Option Path
  | .encoded _ encoding => some encoding.destination
  | .made .. => none

/-- The destinations that were written, in order. -/
def encoded (r : Recorder) : List Path := r.calls.filterMap destination?

end Recorder

end Montage
