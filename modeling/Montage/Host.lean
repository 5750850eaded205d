import Montage.FileTree

/-!
# Hosts

A host can start some programs by name.  What a program does is fixed by the tool that it is: the
encoder writes the file that its last argument names, the prober prints what a media file holds, and
a broken program only fails.  `Host.start` finds the tool of a program, and `Tool.run` carries it
out on a file tree.
-/

namespace Montage

/-- What a program does. -/
inductive Tool where
  | encoder
  | prober
  | broken
  deriving DecidableEq, Repr

/-- The programs that can be started, by name. -/
structure Host where
  tool? : String → Option Tool

/-- What a program leaves behind when it ends. -/
structure Finished where
  status : Nat
  output : String
  complaint : String
  deriving DecidableEq, Repr

namespace Finished

/-- A program that ends well. -/
def success (output : String) : Finished := ⟨0, output, ""⟩

/-- A program that fails. -/
def failure (status : Nat) (complaint : String) : Finished := ⟨status, "", complaint⟩

end Finished

namespace Tool

/-- The argument after the first occurrence of a flag. -/
def argumentAfter? (flag : String) : List String → Option String
  | [] => none
  | a :: as => if a = flag then as.head? else argumentAfter? flag as

/-- What the encoder writes to a file. -/
def encodedContent : Content := .bytes (Json.bytesOf "encoded")

/-- Encodes to the file that the last argument names.  A codec whose name begins with `fail` is
unknown. -/
def encode (arguments : List String) (t : FileTree) : Finished × FileTree :=
  let codec := (argumentAfter? "-c:v" arguments).getD ""
  if codec.startsWith "fail" then
    (.failure 3 ("  Unknown encoder '" ++ codec ++ "'\nconversion failed\n\n"), t)
  else
    match t.write? ⟨arguments.getLastD ""⟩ encodedContent with
    | some t => (.success "", t)
    | none => (.failure 1 "cannot open output", t)

/-- Describes the file that the last argument names. -/
def probe (arguments : List String) (t : FileTree) : Finished :=
  match t.file? ⟨arguments.getLastD ""⟩ with
  | some (.media output status complaint) => ⟨status, output, complaint⟩
  | _ => .failure 1 "Invalid data found when processing input"

/-- Carries a tool out.  Asked for its version, a tool that is not broken does nothing else. -/
def run (tool : Tool) (arguments : List String) (t : FileTree) : Finished × FileTree :=
  match tool with
  | .broken => (.failure 1 "ffbroken is broken", t)
  | .encoder => if arguments = ["-version"] then (.success "", t) else encode arguments t
  | .prober => if arguments = ["-version"] then (.success "", t) else (probe arguments t, t)

end Tool

namespace Host

/-- A host that cannot start any program. -/
def bare : Host := ⟨fun _ => none⟩

/-- A host with an encoder, a prober and a broken program under their usual names. -/
def standard : Host :=
  ⟨fun name =>
    if name = "ffmpeg" then some .encoder
    else if name = "ffprobe" then some .prober
    else if name = "ffbroken" then some .broken
    else none⟩

/-- The length in bytes below which an argument of a program has to stay. -/
def argumentLimit : Nat := 131072

/-- Why a host cannot start a program that it does not have.  A name with a slash is the path of a
file, none of which can be run; any other name, but for the two that stand for directories, is not
found. -/
def absence (files : FileTree) (program : String) : FileFailure :=
  if program.toList.contains '/' then
    match files.find ⟨program⟩ with
    | .ok _ => .accessDenied
    | .error failure => failure
  else if program = "." ∨ program = ".." then .accessDenied
  else if FileTree.nameLimit < program.utf8ByteSize then .nameTooLong
  else .notFound

/-- Starts a program. -/
def start (h : Host) (files : FileTree) (program : String) (arguments : List String) :
    Except StartFailure Tool :=
  if (program :: arguments).any fun text => text.toList.contains '\x00' then .error .nullInText
  else
    match h.tool? program with
    | none => .error (.noProgram (absence files program))
    | some tool =>
      if arguments.any fun a => decide (argumentLimit ≤ a.utf8ByteSize) then
        .error .argumentTooLong
      else .ok tool

/-- A program can be started and does not fail at once. -/
def works (h : Host) (program : String) : Bool :=
  match h.tool? program with
  | none => false
  | some tool => (tool.run ["-version"] .empty).1.status = 0

end Host

end Montage
