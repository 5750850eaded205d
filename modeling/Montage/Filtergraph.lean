import Montage.Frame
import Montage.Path
import Montage.Seconds.Text

/-!
# Filtergraphs

A filtergraph says how the streams of some input files become one picture stream and one sound
stream.  It is a list of chains; each chain reads the streams with some labels, passes them through
a filter and gives the result a label of its own.  The structures here are the graph itself, and
their `text` functions are the only place where it is put into the words of the encoder.
-/

namespace Montage

/-- The two kinds of streams. -/
inductive Stream where
  | picture
  | sound
  deriving DecidableEq, Repr

/-- The letter of a kind of streams. -/
def Stream.letter : Stream → String
  | .picture => "v"
  | .sound => "a"

namespace Filtergraph

/-- The name of a stream in a graph. -/
inductive Label where
  /-- The first stream of its kind in an input file. -/
  | pad (input : Nat) (stream : Stream)
  /-- A stream inside the graph. -/
  | link (stream : Stream) (number : Nat)
  /-- A stream that leaves the graph. -/
  | final (stream : Stream)
  deriving DecidableEq, Repr

/-- The text of a label, without brackets. -/
def Label.text : Label → String
  | .pad input stream => toString input ++ ":" ++ stream.letter ++ ":0"
  | .link stream number => stream.letter ++ toString number
  | .final stream => stream.letter ++ "out"

/-- The text of a label in brackets. -/
def Label.bracketed (l : Label) : String := "[" ++ l.text ++ "]"

/-- What a chain does to its streams. -/
inductive Filter where
  /-- Scales a picture; a missing side keeps the aspect ratio. -/
  | scale (width height : Option UInt32)
  /-- Puts a border around a picture. -/
  | pad (margin : UInt32) (color : Color) (opacity : UInt32)
  /-- Plays streams one after another. -/
  | concat (count : Nat) (stream : Stream)
  /-- Makes a black picture. -/
  | black (size : Canvas) (duration : Seconds)
  /-- Puts the second picture on top of the first. -/
  | overlay (offset : Placement)
  /-- Makes silence. -/
  | silence (duration : Seconds)
  /-- Plays sounds together. -/
  | mix (count : Nat)
  /-- Ends a sound at a position. -/
  | limit (duration : Seconds)
  /-- Takes the part of a stream between two positions. -/
  | trim (stream : Stream) (start : Seconds) (stop : Option Seconds)
  /-- Passes a stream on as it is. -/
  | copy (stream : Stream)
  deriving DecidableEq, Repr

namespace Filter

/-- The text of a side of a scaled picture; `-2` asks for the even number that keeps the aspect
ratio. -/
def sideText : Option UInt32 → String
  | none => "-2"
  | some side => toString side

/-- The text of a range of positions. -/
def rangeText (start : Seconds) : Option Seconds → String
  | none => "start=" ++ start.plain
  | some stop => "start=" ++ start.plain ++ ":end=" ++ stop.plain

/-- The text of a filter. -/
def text : Filter → String
  | .scale width height => "scale=" ++ sideText width ++ ":" ++ sideText height
  | .pad margin color opacity =>
    let twice := toString (2 * margin.toNat)
    let once := toString margin
    "pad=w=iw+" ++ twice ++ ":h=ih+" ++ twice ++ ":x=" ++ once ++ ":y=" ++ once ++ ":color=" ++
      color.text ++ "@" ++ toString (min opacity.toNat 1)
  | .concat count .picture => "concat=n=" ++ toString count ++ ":v=1:a=0"
  | .concat count .sound => "concat=n=" ++ toString count ++ ":v=0:a=1"
  | .black size duration =>
    "color=c=black:s=" ++ toString size.width ++ "x" ++ toString size.height ++ ":d=" ++
      duration.plain
  | .overlay offset =>
    "overlay=x=" ++ toString offset.x ++ ":y=" ++ toString offset.y ++ ":eof_action=pass"
  | .silence duration =>
    "anullsrc=channel_layout=stereo:sample_rate=44100:d=" ++ duration.plain
  | .mix count => "amix=inputs=" ++ toString count ++ ":duration=longest"
  | .limit duration => "atrim=end=" ++ duration.plain
  | .trim .picture start stop => "trim=" ++ rangeText start stop ++ ",setpts=PTS-STARTPTS"
  | .trim .sound start stop => "atrim=" ++ rangeText start stop ++ ",asetpts=PTS-STARTPTS"
  | .copy .picture => "null"
  | .copy .sound => "anull"

end Filter

/-- A filter with the labels of the streams that it reads and of the stream that it makes. -/
structure Chain where
  inputs : List Label
  filter : Filter
  output : Label
  deriving DecidableEq, Repr

/-- The text of a chain. -/
def Chain.text (c : Chain) : String :=
  String.join (c.inputs.map Label.bracketed) ++ c.filter.text ++ c.output.bracketed

/-- An input file of a graph. -/
structure Input where
  path : Path
  /-- The file is a still picture, which is shown again and again. -/
  still : Bool
  /-- The number of seconds after which the file is cut off. -/
  limit : Option Seconds
  deriving DecidableEq, Repr

/-- The arguments of the encoder that come before an input file. -/
def Input.options (i : Input) : List String :=
  (if i.still then ["-loop", "1"] else []) ++
    match i.limit with
    | none => []
    | some limit => ["-t", limit.plain]

end Filtergraph

/-- How the streams of input files become a picture and a sound stream. -/
structure Filtergraph where
  inputs : List Filtergraph.Input
  chains : List Filtergraph.Chain
  /-- The label of the picture stream that leaves the graph. -/
  picture : Option Filtergraph.Label
  /-- The label of the sound stream that leaves the graph. -/
  sound : Option Filtergraph.Label
  deriving DecidableEq, Repr

/-- The text of a graph: its chains, separated by semicolons. -/
def Filtergraph.text (g : Filtergraph) : String :=
  ";".intercalate (g.chains.map Filtergraph.Chain.text)

end Montage
