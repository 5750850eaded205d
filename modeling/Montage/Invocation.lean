import Montage.Renderer.Command

/-!
# Command line arguments

`Invocation.ofArguments?` reads the arguments of the program: flags, one of the commands `run`,
`check` and `parse`, and what the command needs.  Arguments are read from left to right, and the
first one that does not fit makes the whole line unusable; a request for help or for the version
takes effect where it stands.  Requests for a more detailed log are counted; those after the command
replace those before it.
-/

namespace Montage

/-- What the program is asked to do. -/
inductive Invocation where
  | help
  | version
  /-- Runs a script. -/
  | run (script : Path) (options : RenderOptions) (verbosity : Nat)
  /-- Runs a script without touching media, and shows the calls. -/
  | check (script : Path) (verbosity : Nat)
  /-- Shows the steps of a script. -/
  | parse (script : Path) (verbosity : Nat)
  deriving DecidableEq, Repr

namespace Invocation

/-- The commands. -/
inductive Command where
  | run
  | check
  | parse
  deriving DecidableEq, Repr

/-- The command that a word names. -/
def command? (word : String) : Option Command :=
  if word = "run" then some .run
  else if word = "check" then some .check
  else if word = "parse" then some .parse
  else none

/-- What has been read of the arguments of a command. -/
structure Gathered where
  script : Option Path
  dryRun : Bool
  noOverwrite : Bool
  encoder : Option String
  prober : Option String
  /-- The requests for a more detailed log. -/
  verbosity : Nat
  deriving DecidableEq, Repr

namespace Gathered

/-- Nothing has been read. -/
def none : Gathered := ⟨.none, false, false, .none, .none, 0⟩

/-- Takes requests for a more detailed log. -/
def addDetail (g : Gathered) (requests : Nat) : Gathered :=
  { g with verbosity := g.verbosity + requests }

/-- Takes an argument for the script; there is one script, and its path is not empty. -/
def script? (g : Gathered) (argument : String) : Option Gathered :=
  if g.script.isNone ∧ argument ≠ "" then some { g with script := some ⟨argument⟩ } else .none

/-- What a command with these arguments does; the script is required. -/
def finish? (g : Gathered) (command : Command) : Option Invocation :=
  g.script.map fun script =>
    match command with
    | .parse => .parse script g.verbosity
    | .check => .check script g.verbosity
    | .run =>
      .run script
        { encoder := g.encoder.getD "ffmpeg"
          prober := g.prober.getD "ffprobe"
          overwrite := !g.noOverwrite
          dryRun := g.dryRun }
        g.verbosity

end Gathered

/-! ### Flags -/

/-- A group of one-letter flags: the invocation of one that ends the reading, or else the number of
requests for a more detailed log.  `special` gives the flags that end the reading. -/
def letters? (special : Char → Option Invocation) : List Char → Option (Invocation ⊕ Nat)
  | [] => some (.inr 0)
  | 'v' :: cs => (letters? special cs).map (Sum.map id (· + 1))
  | c :: _ => (special c).map .inl

/-- An argument that is a flag begins with a dash and goes on. -/
def isFlag (argument : String) : Bool :=
  match argument.toList with
  | '-' :: _ :: _ => true
  | _ => false

/-- The value of an option that is written as `name=value`. -/
def attached? (name argument : String) : Option String :=
  let start := name.toList ++ ['=']
  if start.isPrefixOf argument.toList then some (String.ofList (argument.toList.drop start.length))
  else none

/-- Takes the path of the encoder; it is given once. -/
def takeEncoder? (g : Gathered) (value : String) : Option Gathered :=
  if g.encoder.isSome then none else some { g with encoder := some value }

/-- Takes the path of the prober; it is given once. -/
def takeProber? (g : Gathered) (value : String) : Option Gathered :=
  if g.prober.isSome then none else some { g with prober := some value }

/-- A flag of `run` that stands alone; each may be given once. -/
def runFlag? (g : Gathered) (argument : String) : Option Gathered :=
  if argument = "--dry-run" then
    if g.dryRun then none else some { g with dryRun := true }
  else if argument = "--no-overwrite" then
    if g.noOverwrite then none else some { g with noOverwrite := true }
  else
    match attached? "--ffmpeg" argument, attached? "--ffprobe" argument with
    | some value, _ => takeEncoder? g value
    | none, some value => takeProber? g value
    | none, none => none

/-- The only letter of a command that ends the reading asks for help. -/
def helpLetter (c : Char) : Option Invocation := if c = 'h' then some .help else none

/-- The letters that end the reading before a command. -/
def topLetter (c : Char) : Option Invocation :=
  if c = 'h' then some .help else if c = 'V' then some .version else none

/-! ### Reading -/

/-- The arguments after `--`, which are no flags. -/
def readPlain? (command : Command) : List String → Gathered → Option Invocation
  | [], g => g.finish? command
  | a :: as, g => (g.script? a).bind (readPlain? command as)

/-- The arguments of a command. -/
def readCommand? (command : Command) : List String → Gathered → Option Invocation
  | [], g => g.finish? command
  | a :: as, g =>
    if a = "--" then readPlain? command as g
    else if a = "--help" then some .help
    else if a = "--verbose" then readCommand? command as (g.addDetail 1)
    else if command = .run ∧ (a = "--ffmpeg" ∨ a = "--ffprobe") then
      match as with
      | [] => none
      | value :: rest =>
        if isFlag value then none
        else
          (if a = "--ffmpeg" then takeEncoder? g value else takeProber? g value).bind
            (readCommand? command rest)
    else if "--".toList.isPrefixOf a.toList then
      if command = .run then (runFlag? g a).bind (readCommand? command as) else none
    else if isFlag a then
      match letters? helpLetter (a.toList.drop 1) with
      | none => none
      | some (.inl ending) => some ending
      | some (.inr requests) => readCommand? command as (g.addDetail requests)
    else (g.script? a).bind (readCommand? command as)

/-- The arguments of a request for help: at most the name of a command. -/
def readHelp? : List String → Option Invocation
  | [] => some .help
  | [word] => if (command? word).isSome ∨ word = "help" then some .help else none
  | _ => none

/-- The invocation with the requests for detail that stood before the command, unless it has some of
its own. -/
def withDetail (requests : Nat) : Invocation → Invocation
  | .run script options 0 => .run script options requests
  | .check script 0 => .check script requests
  | .parse script 0 => .parse script requests
  | other => other

/-- What the program is asked to do by arguments that follow so many requests for detail. -/
def readTop? : List String → Nat → Option Invocation
  | [], _ => none
  | a :: as, requests =>
    if a = "--help" then some .help
    else if a = "--version" then some .version
    else if a = "--verbose" then readTop? as (requests + 1)
    else if a = "help" then readHelp? as
    else
      match command? a with
      | some command => (readCommand? command as .none).map (withDetail requests)
      | none =>
        if isFlag a ∧ ¬"--".toList.isPrefixOf a.toList then
          match letters? topLetter (a.toList.drop 1) with
          | none => none
          | some (.inl ending) => some ending
          | some (.inr more) => readTop? as (requests + more)
        else none

/-- What the program is asked to do, if its arguments can be used. -/
def ofArguments? (arguments : List String) : Option Invocation := readTop? arguments 0

end Invocation

end Montage
