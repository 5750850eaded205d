import Montage.Clip
import Montage.Filtergraph

/-!
# From clips to filtergraphs

`assemble` walks the tree of a clip and emits the chains that compute it, inner nodes first.  A walk
demands a picture stream, a sound stream or both, and passes a demand on only for streams that a
clip has.  Inputs and labels are numbered in the order of the walk; each visit of a clip emits
chains of its own, so a clip that is used twice shares no label.

A `Cursor` says how many inputs and labels there are already, and the `Fragment` that a walk gives
holds only what it adds.  `Filtergraph.ofClip` closes the fragment of a whole clip with the labels
of the streams that leave the graph.
-/

namespace Montage.Filtergraph

/-! ### Demands, cursors and fragments -/

/-- The streams that a walk is to compute. -/
structure Demand where
  picture : Bool
  sound : Bool
  deriving DecidableEq, Repr

namespace Demand

/-- The part of a demand that a clip can meet. -/
def within (d : Demand) (t : Traits) : Demand := ⟨d.picture && t.hasPicture, d.sound && t.hasSound⟩

/-- A demand for a picture alone. -/
def pictureOnly : Demand := ⟨true, false⟩

/-- A demand for sound alone. -/
def soundOnly : Demand := ⟨false, true⟩

end Demand

/-- How many inputs and labels there are already. -/
structure Cursor where
  inputs : Nat
  labels : Nat
  deriving DecidableEq, Repr

/-- What a walk adds to a graph. -/
structure Fragment where
  inputs : List Input
  chains : List Chain
  /-- The number of new labels. -/
  issued : Nat
  /-- The label of the picture stream, when there is one. -/
  picture : Option Label
  /-- The label of the sound stream, when there is one. -/
  sound : Option Label
  deriving DecidableEq, Repr

namespace Fragment

/-- A fragment that adds nothing. -/
def empty : Fragment := ⟨[], [], 0, none, none⟩

/-- The cursor after a fragment. -/
def after (f : Fragment) (start : Cursor) : Cursor :=
  ⟨start.inputs + f.inputs.length, start.labels + f.issued⟩

/-- The next label after a fragment. -/
def next (f : Fragment) (start : Cursor) (stream : Stream) : Label :=
  .link stream (f.after start).labels

/-- The fragment with one more chain, whose output has the next label. -/
def emit (f : Fragment) (start : Cursor) (stream : Stream) (inputs : List Label)
    (filter : Filter) : Fragment :=
  { f with
    chains := f.chains ++ [⟨inputs, filter, f.next start stream⟩]
    issued := f.issued + 1 }

/-- Passes the picture stream, if there is one, through a filter. -/
def viaPicture (f : Fragment) (start : Cursor) (filter : Filter) : Fragment :=
  match f.picture with
  | none => f
  | some label =>
    { f.emit start .picture [label] filter with picture := some (f.next start .picture) }

/-- Passes the sound stream, if there is one, through a filter. -/
def viaSound (f : Fragment) (start : Cursor) (filter : Filter) : Fragment :=
  match f.sound with
  | none => f
  | some label =>
    { f.emit start .sound [label] filter with sound := some (f.next start .sound) }

/-- Makes a picture stream out of other streams. -/
def withPicture (f : Fragment) (start : Cursor) (inputs : List Label) (filter : Filter) :
    Fragment :=
  { f.emit start .picture inputs filter with picture := some (f.next start .picture) }

/-- Makes a sound stream out of other streams. -/
def withSound (f : Fragment) (start : Cursor) (inputs : List Label) (filter : Filter) : Fragment :=
  { f.emit start .sound inputs filter with sound := some (f.next start .sound) }

/-- What two fragments add together, one after the other, with streams to be chosen. -/
def append (f g : Fragment) (picture sound : Option Label) : Fragment :=
  ⟨f.inputs ++ g.inputs, f.chains ++ g.chains, f.issued + g.issued, picture, sound⟩

end Fragment

/-- What the walks over several clips add, with the streams of each clip. -/
structure Bundle where
  inputs : List Input
  chains : List Chain
  issued : Nat
  pictures : List Label
  sounds : List Label
  deriving DecidableEq, Repr

namespace Bundle

/-- A bundle that adds nothing. -/
def empty : Bundle := ⟨[], [], 0, [], []⟩

/-- A fragment followed by a bundle; the fragment gives the given streams. -/
def cons (f : Fragment) (pictures sounds : List Label) (b : Bundle) : Bundle :=
  ⟨f.inputs ++ b.inputs, f.chains ++ b.chains, f.issued + b.issued, pictures ++ b.pictures,
    sounds ++ b.sounds⟩

/-- A bundle as a fragment that gives no stream yet. -/
def toFragment (b : Bundle) : Fragment := ⟨b.inputs, b.chains, b.issued, none, none⟩

end Bundle

/-! ### Steps of the walk -/

/-- The streams of a source file. -/
def sourceFragment (d : Demand) (medium : Medium) (path : Path) (limit : Option Seconds)
    (start : Cursor) : Fragment where
  inputs := [⟨path, medium == .image, limit⟩]
  chains := []
  issued := 0
  picture := if d.picture then some (.pad start.inputs .picture) else none
  sound := if d.sound then some (.pad start.inputs .sound) else none

/-- Scales a picture; without a new side it stays as it is. -/
def scaleFragment (width height : Option UInt32) (start : Cursor) (f : Fragment) : Fragment :=
  if width.isNone && height.isNone then f else f.viaPicture start (.scale width height)

/-- Gives a part of a sequence silence where sound is demanded and the part has none. -/
def fillSilence (d : Demand) (duration : Option Seconds) (start : Cursor) (f : Fragment) :
    Except Fault Fragment :=
  if d.sound && f.sound.isNone then
    match duration with
    | none => .error .unknownSilenceLength
    | some duration => .ok (f.withSound start [] (.silence duration))
  else .ok f

/-- Joins the streams of a sequence. -/
def joinBundle (d : Demand) (start : Cursor) (b : Bundle) : Fragment :=
  let f := b.toFragment
  let f :=
    if d.picture then f.withPicture start b.pictures (.concat b.pictures.length .picture) else f
  if d.sound then f.withSound start b.sounds (.concat b.sounds.length .sound) else f

/-- The black picture at the bottom of a composition. -/
def canvasFragment (d : Demand) (size : Canvas) (duration : Option Seconds) (start : Cursor) :
    Except Fault Fragment :=
  if d.picture then
    match duration with
    | none => .error .unknownCompositionLength
    | some duration => .ok (Fragment.empty.withPicture start [] (.black size duration))
  else .ok .empty

/-- Puts a layer on top of the picture below it. -/
def overlayFragment (below : Option Label) (offset : Placement) (start : Cursor) (f : Fragment) :
    Fragment :=
  match below, f.picture with
  | some below, some picture => f.withPicture start [below, picture] (.overlay offset)
  | below, _ => { f with picture := below }

/-- Plays the sounds of the layers together.  A single sound stays as it is. -/
def mixSounds (d : Demand) (start : Cursor) (sounds : List Label) (f : Fragment) : Fragment :=
  if d.sound then
    match sounds with
    | [sound] => { f with sound := some sound }
    | sounds => f.withSound start sounds (.mix sounds.length)
  else f

/-- Ends a sound where the picture that it goes with ends, when that is known. -/
def limitSound (duration : Option Seconds) (start : Cursor) (f : Fragment) : Fragment :=
  match duration with
  | none => f
  | some duration => f.viaSound start (.limit duration)

/-! ### The walk -/

mutual

/-- The chains that compute the demanded streams of a clip. -/
def assemble : Clip → Demand → Cursor → Except Fault Fragment
  | .source t medium path limit, d, start =>
    .ok (sourceFragment (d.within t) medium path limit start)
  | .resized t input width height, d, start => do
    return scaleFragment width height start (← assemble input (d.within t) start)
  | .framed t input margin color opacity, d, start => do
    return (← assemble input (d.within t) start).viaPicture start (.pad margin color opacity)
  | .placed t input, d, start => assemble input (d.within t) start
  | .joined t parts, d, start => do
    return joinBundle (d.within t) start (← assembleParts parts (d.within t) start)
  | .layered t layers size, d, start => do
    let canvas ← canvasFragment (d.within t) size t.duration start
    let (stack, sounds) ← assembleLayers layers (d.within t) canvas.picture (canvas.after start)
    return mixSounds (d.within t) start sounds (canvas.append stack stack.picture none)
  | .scored t picture sound, d, start => do
    let p ← if (d.within t).picture then assemble picture .pictureOnly start else .ok .empty
    let s ← if (d.within t).sound then assemble sound .soundOnly (p.after start) else .ok .empty
    let s := limitSound picture.duration (p.after start) s
    return p.append s p.picture s.sound
  | .trimmed t input begins stop, d, start => do
    let f ← assemble input (d.within t) start
    let f := f.viaPicture start (.trim .picture begins stop)
    return f.viaSound start (.trim .sound begins stop)

/-- The chains of the parts of a sequence, one after another. -/
def assembleParts : List Clip → Demand → Cursor → Except Fault Bundle
  | [], _, _ => .ok .empty
  | c :: cs, d, start => do
    let f ← fillSilence d c.duration start (← assemble c d start)
    let rest ← assembleParts cs d (f.after start)
    return .cons f f.picture.toList f.sound.toList rest

/-- The chains of the layers of a composition, from the bottom up, on top of a picture; and the
sounds of the layers. -/
def assembleLayers :
    List Clip → Demand → Option Label → Cursor → Except Fault (Fragment × List Label)
  | [], _, below, _ => .ok ({ Fragment.empty with picture := below }, [])
  | c :: cs, d, below, start => do
    let f := overlayFragment below c.offset start (← assemble c d start)
    let (stack, sounds) ← assembleLayers cs d f.picture (f.after start)
    return (f.append stack stack.picture none, f.sound.toList ++ sounds)

end

end Filtergraph

open Filtergraph

/-- The chain that gives a stream the label under which it leaves the graph. -/
def Filtergraph.exit (stream : Stream) (label : Label) : Chain :=
  ⟨[label], .copy stream, .final stream⟩

/-- The graph that computes all streams of a clip. -/
def Filtergraph.ofClip (c : Clip) : Except Fault Filtergraph := do
  let f ← assemble c ⟨c.hasPicture, c.hasSound⟩ ⟨0, 0⟩
  return {
    inputs := f.inputs
    chains := f.chains ++ (f.picture.map (exit .picture)).toList ++
      (f.sound.map (exit .sound)).toList
    picture := f.picture.map fun _ => .final .picture
    sound := f.sound.map fun _ => .final .sound }

end Montage
