import Montage.Inspect
import Montage.Operation

/-!
# Events

What happens while a script is read and run is reported as a list of events, in order.  An `Event`
is what happened; `Event.level`, `Event.message` and `Event.fields` say how it is shown, and
`Event.entry` is its entry in a log.  A log shows the events from some level on.
-/

namespace Montage

/-- How important an event is. -/
inductive Level where
  | debug
  | info
  | warn
  deriving DecidableEq, Repr

/-- The name of a level. -/
def Level.text : Level → String
  | .debug => "DEBUG"
  | .info => "INFO"
  | .warn => "WARN"

/-- The number of levels below a level. -/
def Level.rank : Level → Nat
  | .debug => 0
  | .info => 1
  | .warn => 2

/-- The lowest level that a log shows after so many requests for more detail. -/
def Level.lowestShown : Nat → Level
  | 0 => .warn
  | 1 => .info
  | _ => .debug

/-- Something that happened while a script was read or run. -/
inductive Event where
  /-- The script ended inside a block. -/
  | unclosedBlock (line : Nat) (kind : String)
  /-- A block holds attributes that its kind does not use. -/
  | unusedAttributes (kind : String) (line : Nat) (keys : List String)
  /-- A whole script was read. -/
  | parsedScript (steps : Nat)
  /-- A step begins. -/
  | stepStarted (line : Nat) (kind : Kind)
  /-- A clip was written to a file. -/
  | exported (clip : String) (path : Path)
  /-- A name is bound again. -/
  | rebinding (name : String)
  /-- The sound of a source was asked for, but it has none. -/
  | soundMissing (path : Path)
  /-- A source file was opened. -/
  | openedSource (path : Path) (duration : Option Seconds) (size : Option Canvas) (sound : Bool)
  /-- The command that encodes a clip is ready. -/
  | encodeCommand (display : String)
  deriving DecidableEq, Repr

/-- A size in the notation of inspection texts. -/
def Canvas.inspect (c : Canvas) : String :=
  Inspect.record "Canvas" [("width", toString c.width), ("height", toString c.height)]

namespace Event

/-- The level of an event. -/
def level : Event → Level
  | .unclosedBlock .. => .warn
  | .soundMissing _ => .warn
  | .exported .. => .info
  | _ => .debug

/-- The message of an event. -/
def message : Event → String
  | .unclosedBlock .. => "block is not closed with '#end' before end of script"
  | .unusedAttributes .. => "ignoring attributes not used by this block kind"
  | .parsedScript _ => "parsed script"
  | .stepStarted .. => "step"
  | .exported .. => "exported"
  | .rebinding _ => "rebinding clip name"
  | .soundMissing _ => "hasaudio is set but the source has no audio stream"
  | .openedSource .. => "opened source"
  | .encodeCommand _ => "encode command"

/-- The fields of an event, with their names. -/
def fields : Event → List (String × String)
  | .unclosedBlock line kind => [("line", toString line), ("kind", kind)]
  | .unusedAttributes kind line keys =>
    [("kind", kind), ("line", toString line), ("unused", Inspect.list Inspect.quoted keys)]
  | .parsedScript steps => [("steps", toString steps)]
  | .stepStarted line kind => [("line", toString line), ("kind", kind.token)]
  | .exported clip path => [("clip", clip), ("path", path.text)]
  | .rebinding name => [("name", name)]
  | .soundMissing path => [("path", path.text)]
  | .openedSource path duration size sound =>
    [("path", path.text), ("duration", Inspect.optional Seconds.detailed duration),
     ("size", Inspect.optional Canvas.inspect size), ("audio", toString sound)]
  | .encodeCommand display => [("command", display)]

/-- The event as an entry of a log: its level, its message and its fields. -/
def entry (e : Event) : String :=
  e.level.text ++ " " ++ e.message ++ String.join (e.fields.map fun f => " " ++ f.1 ++ "=" ++ f.2)

/-- The events that a log shows after so many requests for more detail. -/
def shown (verbosity : Nat) (events : List Event) : List Event :=
  events.filter fun e => decide ((Level.lowestShown verbosity).rank ≤ e.level.rank)

end Event

end Montage
