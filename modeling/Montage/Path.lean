import Montage.Text.Blank

/-!
# Paths

A path is kept as it was written; nothing is normalised.  `Path.join` resolves a path against a
directory, `Path.parent?` drops the last component, and `Path.components` is the sequence of
components by which paths are compared: repeated slashes, inner dots and trailing slashes do not
count, a leading dot and every `..` do.
-/

namespace Montage

/-- A path, as written. -/
structure Path where
  text : String
  deriving DecidableEq, Repr

namespace Path

/-- The empty path, which stands for the working directory. -/
def empty : Path := ⟨""⟩

/-- A path is absolute when it begins with a slash. -/
def isAbsolute (p : Path) : Bool := p.text.toList.head? = some '/'

/-- The path `p` as seen from the directory `base`.  An absolute path does not depend on it. -/
def join (base p : Path) : Path :=
  if p.isAbsolute then p
  else if base.text = "" ∨ base.text.toList.getLast? = some '/' then ⟨base.text ++ p.text⟩
  else ⟨base.text ++ "/" ++ p.text⟩

/-! ### Segments and components -/

/-- The texts between the slashes of a path. -/
def segments (p : Path) : List String :=
  (Text.splitAll (· = '/') p.text.toList).map String.ofList

/-- A segment that names nothing: it is empty or a single dot. -/
def isIdle (s : String) : Bool := s = "" || s = "."

/-- What a path starts from, and its segments from there.  A leading slash is the root directory, a
leading dot the working directory by name. -/
def split (p : Path) : String × List String :=
  match p.segments with
  | "" :: [] => ("", [])
  | "" :: rest => ("/", rest)
  | "." :: rest => (".", rest)
  | all => ("", all)

/-- The sequence of components of a path, with the start first when it is the root or a dot. -/
def components (p : Path) : List String :=
  let (start, rest) := p.split
  (if start = "" then [] else [start]) ++ rest.filter fun s => !isIdle s

/-- Two paths are the same place by name when they have the same components. -/
def sameAs (p q : Path) : Bool := p.components = q.components

/-! ### Parents -/

/-- The segments without trailing idle ones. -/
def dropIdle (segments : List String) : List String :=
  (segments.reverse.dropWhile isIdle).reverse

/-- The path that starts at `start` and goes on with the segments. -/
def ofSplit (start : String) (segments : List String) : Path :=
  match start, segments with
  | "/", rest => ⟨"/" ++ "/".intercalate rest⟩
  | start, [] => ⟨start⟩
  | "", rest => ⟨"/".intercalate rest⟩
  | start, rest => ⟨start ++ "/" ++ "/".intercalate rest⟩

/-- The path without its last component, as written.  The root and the empty path have no
parent. -/
def parent? (p : Path) : Option Path :=
  let (start, rest) := p.split
  match dropIdle rest with
  | [] => if start = "." then some .empty else none
  | named => some (ofSplit start (dropIdle named.dropLast))

/-- The paths that the reversed segments lead to, the longest first, down to the start. -/
def ancestorsOf (start : String) : List String → List Path
  | [] => if start = "" then [] else [⟨start⟩]
  | s :: rest =>
    if isIdle s then ancestorsOf start rest
    else ofSplit start (s :: rest).reverse :: ancestorsOf start rest

/-- The path without trailing idle segments, and everything that it is in, the innermost first.  The
working directory is in the list only when the path names it. -/
def ancestors (p : Path) : List Path := ancestorsOf p.split.1 p.split.2.reverse

/-- The last component of a path, when it is a name. -/
def fileName? (p : Path) : Option String :=
  match (dropIdle p.split.2).getLast? with
  | some ".." => none
  | last => last

/-- The text after the last dot of the file name, when something comes before that dot. -/
def extension? (p : Path) : Option String :=
  p.fileName?.bind fun name =>
    let pieces := Text.splitAll (· = '.') name.toList
    if pieces.length < 2 ∨ pieces = [[], pieces.getLastD []] then none
    else some (String.ofList (pieces.getLastD []))

end Path

end Montage
