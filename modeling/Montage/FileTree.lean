import Montage.Error
import Montage.Json.Reader

/-!
# File trees

A file tree holds the files and directories that a session can see, by their location.  A location
is a chain of names below an anchor: the working directory, one of the directories above it, or the
root directory.  Anchors are directories; all else exists only when the tree has an entry for it.

`FileTree.locate` finds the location of a path.  It goes through the segments of the path one by
one, and each segment needs a directory to start from; so `a/..` exists only when `a` is a
directory, and `f/` is no file.  Names and paths are of limited length.
-/

namespace Montage

/-! ### Locations -/

/-- Where a location starts. -/
inductive Anchor where
  | root
  /-- The working directory, or the directory so many levels above it. -/
  | above (levels : Nat)
  deriving DecidableEq, Repr

/-- A place for a file or a directory: names, one inside the other, below an anchor. -/
structure Location where
  anchor : Anchor
  names : List String
  deriving DecidableEq, Repr

namespace Location

/-- The working directory. -/
def workingDirectory : Location := ⟨.above 0, []⟩

/-- The place with a name in a directory. -/
def child (l : Location) (name : String) : Location := { l with names := l.names ++ [name] }

/-- The directory that a place is in.  The root directory is in itself. -/
def parent (l : Location) : Location :=
  match l.names, l.anchor with
  | [], .root => l
  | [], .above levels => ⟨.above (levels + 1), []⟩
  | _, _ => { l with names := l.names.dropLast }

/-- The place that a segment of a path names, seen from a directory. -/
def step (l : Location) (segment : String) : Location :=
  if Path.isIdle segment then l else if segment = ".." then l.parent else l.child segment

/-- The place where the first segment of a path starts. -/
def base (p : Path) : Location := if p.isAbsolute then ⟨.root, []⟩ else .workingDirectory

/-- The place that a path names, whatever there is. -/
def ofPath (p : Path) : Location := p.segments.foldl step (base p)

/-- A path that names the place. -/
def path (l : Location) : Path :=
  match l.anchor with
  | .root => ⟨"/" ++ "/".intercalate l.names⟩
  | .above levels => ⟨"/".intercalate (List.replicate levels ".." ++ l.names)⟩

/-- The directories between the anchor and a place, the outermost first. -/
def directories (l : Location) : List Location :=
  ((List.range l.names.length).drop 1).map fun n => { l with names := l.names.take n }

end Location

/-! ### Trees -/

/-- What a file holds. -/
inductive Content where
  /-- A picture with its sides in pixels. -/
  | image (width height : Nat)
  /-- A media file, by what the prober prints for it and its exit status. -/
  | media (probe : String) (status : Nat) (complaint : String)
  /-- Any other file. -/
  | bytes (b : Json.Bytes)
  deriving DecidableEq

/-- The text of a file.  Pictures are no text, and the text of a media file is left empty. -/
def Content.text? : Content → Option String
  | .image .. => none
  | .media .. => some ""
  | .bytes b => Json.textOf? b

/-- What a picture file begins with: its signature, and the length and name of its header. -/
def pictureHead : Json.Bytes :=
  [0x89, 0x50, 0x4E, 0x47, 0x0D, 0x0A, 0x1A, 0x0A, 0, 0, 0, 13, 0x49, 0x48, 0x44, 0x52]

/-- The number whose bytes are given, the most significant first. -/
def bigEndian (b : Json.Bytes) : Nat := b.foldl (fun n byte => 256 * n + byte.toNat) 0

/-- The content of a file with the given bytes.  A header of a picture is followed by its sides, of
four bytes each. -/
def Content.ofBytes (b : Json.Bytes) : Content :=
  match Json.stripWord? pictureHead b with
  | none => .bytes b
  | some sides =>
    if sides.length < 8 then .bytes b
    else .image (bigEndian (sides.take 4)) (bigEndian ((sides.drop 4).take 4))

/-- What is at a location. -/
inductive Node where
  | directory
  | file (content : Content)
  deriving DecidableEq

/-- Files and directories by location. -/
structure FileTree where
  entries : List (Location × Node)

namespace FileTree

/-- A tree without files. -/
def empty : FileTree := ⟨[]⟩

/-- What is at a location. -/
def node? (t : FileTree) (l : Location) : Option Node :=
  if l.names = [] then some .directory else t.entries.lookup l

/-- The tree with a node put at a location. -/
def insert (t : FileTree) (l : Location) (n : Node) : FileTree :=
  ⟨(l, n) :: t.entries.filter fun e => !(e.1 == l)⟩

/-- The length in bytes of the longest name that a file can have. -/
def nameLimit : Nat := 255

/-- The length in bytes below which a path has to stay. -/
def pathLimit : Nat := 4096

/-- Where a path with the given segments ends, from a location on. -/
def walk (t : FileTree) : Location → List String → Except FileFailure Location
  | l, [] => .ok l
  | l, segment :: segments =>
    match t.node? l with
    | none => .error .notFound
    | some (.file _) => .error .notDirectory
    | some .directory =>
      if nameLimit < segment.utf8ByteSize then .error .nameTooLong
      else walk t (l.step segment) segments

/-- The location of a path.  There need not be anything. -/
def locate (t : FileTree) (p : Path) : Except FileFailure Location :=
  if p.text.toList.contains '\x00' then .error .nullInName
  else if pathLimit ≤ p.text.utf8ByteSize then .error .nameTooLong
  else if p = .empty then .error .notFound
  else t.walk (.base p) p.segments

/-- What a path leads to. -/
def find (t : FileTree) (p : Path) : Except FileFailure Node := do
  match t.node? (← t.locate p) with
  | some node => return node
  | none => throw .notFound

/-- A path leads to something. -/
def isPresent (t : FileTree) (p : Path) : Bool := (t.find p).isOk

/-- The content of the file that a path leads to. -/
def file? (t : FileTree) (p : Path) : Option Content :=
  match t.find p with
  | .ok (.file content) => some content
  | _ => none

/-- A path leads to a directory. -/
def isDirectory (t : FileTree) (p : Path) : Bool :=
  match t.find p with
  | .ok .directory => true
  | _ => false

/-! ### Reading and writing -/

/-- The text of the file that a path leads to. -/
def readText (t : FileTree) (p : Path) : Except FileFailure String := do
  match ← t.find p with
  | .directory => throw .isDirectory
  | .file content =>
    match content.text? with
    | some text => return text
    | none => throw .notText

/-- The tree with a file written, unless the path leads to a directory or to nowhere. -/
def write? (t : FileTree) (p : Path) (content : Content) : Option FileTree :=
  match t.locate p with
  | .error _ => none
  | .ok l => if t.node? l = some .directory then none else some (t.insert l (.file content))

/-- The tree with one more directory. -/
def makeDirectory (t : FileTree) (p : Path) : Except FileFailure FileTree := do
  let l ← t.locate p
  match t.node? l with
  | some _ => throw .alreadyThere
  | none => return t.insert l .directory

/-- Makes a directory whose parent is there.  It may be there already. -/
def ensureLast (t : FileTree) (p : Path) : Except FileFailure FileTree :=
  match t.makeDirectory p with
  | .ok t => .ok t
  | .error e => if t.isDirectory p then .ok t else .error e

/-- Makes the first directory of a list, and before it those of the rest that it needs.  What was
made before a failure stays. -/
def ensureChain (t : FileTree) : List Path → Option FileFailure × FileTree
  | [] => (none, t)
  | p :: ancestors =>
    match t.makeDirectory p with
    | .ok t => (none, t)
    | .error .notFound =>
      match t.ensureChain ancestors with
      | (some e, t) => (some e, t)
      | (none, t) =>
        match t.ensureLast p with
        | .ok t => (none, t)
        | .error e => (some e, t)
    | .error e => if t.isDirectory p then (none, t) else (some e, t)

/-- Makes a directory with all directories that it is in, as far as they are missing. -/
def ensureDirectory (t : FileTree) (p : Path) : Option FileFailure × FileTree :=
  t.ensureChain p.ancestors

/-! ### Contents of a tree -/

/-- The text of an entry below the working directory; a directory ends in a slash. -/
def listing? (e : Location × Node) : Option String :=
  if e.1.anchor = .above 0 then
    some (e.1.path.text ++ if e.2 = .directory then "/" else "")
  else none

/-- Everything below the working directory, in the order of its characters. -/
def list (t : FileTree) : List String :=
  (t.entries.filterMap listing?).mergeSort fun a b => decide (a ≤ b)

/-- What a tree has and an earlier one lacks, the oldest first. -/
def added (t earlier : FileTree) : List (Path × Node) :=
  (t.entries.reverse.filter fun e => !earlier.entries.contains e).map fun e => (e.1.path, e.2)

/-- The tree with a directory at a location, unless there is something. -/
def ensureNode (t : FileTree) (l : Location) : FileTree :=
  if (t.node? l).isSome then t else t.insert l .directory

/-- The tree with a node put where a path leads to, and with the directories that it is in. -/
def place (t : FileTree) (p : Path) (n : Node) : FileTree :=
  let l := Location.ofPath p
  (l.directories.foldl ensureNode t).insert l n

end FileTree

end Montage
