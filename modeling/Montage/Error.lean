import Montage.Operation
import Montage.Seconds.Text

/-!
# Errors

An error is its cause.  `Error` has one constructor for each way in which reading or running a
script can end early; `Attribute.Fault` says what is wrong with a line of a block, `Fault` what a
backend could not do, `FileFailure` why a file could not be used, and `StartFailure` why a program
could not be started.  The `message` of each is the only place where it is put into words.
-/

namespace Montage

/-! ### Causes -/

/-- What is wrong with a line of a block. -/
inductive Attribute.Fault where
  /-- The line is no assignment; its text has no blanks around it. -/
  | notAssignment (text : String)
  | badBoolean (key raw : String)
  | badInteger (key raw : String)
  | badTimestamp (key raw : String)
  /-- The number is too large for what it describes. -/
  | outOfRange (key : String) (value : Nat)
  /-- The value of the key is of another type than the kind of block reads. -/
  | wrongType (key kind expected found : String)
  deriving DecidableEq, Repr

/-- The cause in words. -/
def Attribute.Fault.message : Attribute.Fault → String
  | .notAssignment text => "expected 'key = value', got '" ++ text ++ "'"
  | .badBoolean key raw => "invalid boolean '" ++ raw ++ "' for '" ++ key ++ "' (expected 0 or 1)"
  | .badInteger key raw => "invalid integer '" ++ raw ++ "' for '" ++ key ++ "'"
  | .badTimestamp key raw =>
    "invalid timestamp '" ++ raw ++ "' for '" ++ key ++ "' (expected H:M:S)"
  | .outOfRange key value => "value " ++ toString value ++ " for '" ++ key ++ "' is out of range"
  | .wrongType key kind expected found =>
    "'" ++ key ++ "' in '" ++ kind ++ "' block must be " ++ expected ++ ", got " ++ found

/-- Why a file could not be used. -/
inductive FileFailure where
  | notFound
  | notDirectory
  | isDirectory
  | alreadyThere
  | accessDenied
  /-- A name on the path, or the whole path, is longer than any that a file can have. -/
  | nameTooLong
  /-- The path holds the null character, which no name can hold. -/
  | nullInName
  | notText
  deriving DecidableEq, Repr

/-- The failure in words. -/
def FileFailure.message : FileFailure → String
  | .notFound => "No such file or directory (os error 2)"
  | .notDirectory => "Not a directory (os error 20)"
  | .isDirectory => "Is a directory (os error 21)"
  | .alreadyThere => "File exists (os error 17)"
  | .accessDenied => "Permission denied (os error 13)"
  | .nameTooLong => "File name too long (os error 36)"
  | .nullInName => "file name contained an unexpected NUL byte"
  | .notText => "stream did not contain valid UTF-8"

/-- Why a program could not be started. -/
inductive StartFailure where
  /-- The file of the program could not be used. -/
  | noProgram (failure : FileFailure)
  /-- The name or an argument of the program holds the null character. -/
  | nullInText
  /-- An argument is longer than any that a program can be given. -/
  | argumentTooLong
  deriving DecidableEq, Repr

/-- The failure in words. -/
def StartFailure.message : StartFailure → String
  | .noProgram failure => failure.message
  | .nullInText => "nul byte found in provided data"
  | .argumentTooLong => "Argument list too long (os error 7)"

/-- What a backend could not do. -/
inductive Fault where
  /-- The recorder was told to refuse this destination. -/
  | cannotWrite (destination : Path)
  | sourceMissing (path : Path)
  | imageUnreadable (path : Path)
  | imageWithoutLength (path : Path)
  | noVideoStream (path : Path)
  | noAudioStream (path : Path)
  /-- The probing program could not be started. -/
  | proberNotStarted (program : String) (failure : StartFailure)
  | probeFailed (path : Path) (complaint : String)
  | probeUnreadable
  /-- A kind of block works on pictures only. -/
  | needsPicture (kind : Kind)
  | nothingToConcatenate
  | mixedConcatenation
  | nothingToCompose
  | unknownCanvas
  | noSoundToAttach
  | emptyRange (start stop : Seconds)
  | startPastEnd (start total : Seconds)
  | unknownCompositionLength
  | unknownSilenceLength
  | zeroFrameRate
  | outputExists (path : Path)
  | encoderMissing (program : String)
  /-- The encoding program is there, but could not be started with its arguments. -/
  | encoderNotStarted (program : String) (failure : StartFailure)
  | encoderFailed (status : Nat) (complaint : String)
  /-- A fault that the session has traced to a block. -/
  | inBlock (kind : Kind) (line : Nat) (fault : Fault)
  /-- A fault of another backend, in its own words. -/
  | custom (message : String)
  deriving DecidableEq, Repr

/-- The fault in words. -/
def Fault.message : Fault → String
  | .cannotWrite destination => "cannot write '" ++ destination.text ++ "'"
  | .sourceMissing path => "source file '" ++ path.text ++ "' does not exist"
  | .imageUnreadable path => "cannot read image '" ++ path.text ++ "'"
  | .imageWithoutLength path =>
    "image clip '" ++ path.text ++ "' needs a duration or duration_from"
  | .noVideoStream path => "'" ++ path.text ++ "' has no video stream"
  | .noAudioStream path => "'" ++ path.text ++ "' has no audio stream"
  | .proberNotStarted program failure => "failed to run " ++ program ++ ": " ++ failure.message
  | .probeFailed path complaint => "ffprobe failed for '" ++ path.text ++ "': " ++ complaint
  | .probeUnreadable => "ffprobe json parse failed"
  | .needsPicture kind =>
    kind.token ++ " needs a clip with a picture, got an audio-only clip"
  | .nothingToConcatenate => "concatenate needs at least one clip"
  | .mixedConcatenation => "concatenate cannot mix audio-only clips with picture clips"
  | .nothingToCompose => "composition needs at least one clip"
  | .unknownCanvas => "composition size is unknown; set height and width on the block"
  | .noSoundToAttach => "setaudio source clip has no audio track"
  | .emptyRange start stop =>
    "subclip end (" ++ stop.plain ++ "s) must be after start (" ++ start.plain ++ "s)"
  | .startPastEnd start total =>
    "subclip start (" ++ start.plain ++ "s) is past the end of the clip (" ++ total.plain ++ "s)"
  | .unknownCompositionLength => "composition duration is unknown; give every layer a duration"
  | .unknownSilenceLength => "cannot pad a silent clip of unknown duration with silence"
  | .zeroFrameRate => "export fps must be non-zero"
  | .outputExists path => "output file '" ++ path.text ++ "' already exists"
  | .encoderMissing program => program ++ " is required for export, but was not found on PATH"
  | .encoderNotStarted program failure =>
    "failed to spawn " ++ program ++ " (is it installed and on PATH?): " ++ failure.message
  | .encoderFailed status complaint =>
    "ffmpeg exited with status exit status: " ++ toString status ++ ": " ++ complaint
  | .inBlock kind line fault =>
    kind.token ++ " block at line " ++ toString line ++ ": " ++ fault.message
  | .custom message => message

/-! ### Errors -/

/-- Why reading or running a script ended early. -/
inductive Error where
  /-- A line of a block cannot be used. -/
  | badLine (line : Nat) (fault : Attribute.Fault)
  /-- A block lacks an attribute that its kind requires. -/
  | missingField (kind field : String) (line : Nat)
  /-- A word names no kind of block, or no medium. -/
  | unknownKind (token : String) (line : Nat)
  /-- An operation reads a name that no earlier one has bound. -/
  | undefinedClip (name kind : String) (line : Nat)
  /-- A backend reported a fault. -/
  | backend (fault : Fault)
  /-- The script file could not be read. -/
  | scriptUnreadable (path : Path) (failure : FileFailure)
  /-- The directory of a destination could not be made. -/
  | directoryNotMade (path : Path) (failure : FileFailure)
  deriving DecidableEq, Repr

namespace Error

/-- The error in words. -/
def message : Error → String
  | .badLine line fault => "parse error at line " ++ toString line ++ ": " ++ fault.message
  | .missingField kind field line =>
    "missing field '" ++ field ++ "' in '" ++ kind ++ "' block at line " ++ toString line
  | .unknownKind token line => "unknown kind '" ++ token ++ "' at line " ++ toString line
  | .undefinedClip name kind line =>
    "undefined clip '" ++ name ++ "' referenced by '" ++ kind ++ "' block at line " ++ toString line
  | .backend fault => "backend error: " ++ fault.message
  | .scriptUnreadable path _ => "read script '" ++ path.text ++ "'"
  | .directoryNotMade path _ => "failed to create output directory '" ++ path.text ++ "'"

/-- The failure behind an error, when its message leaves it out. -/
def cause? : Error → Option FileFailure
  | .scriptUnreadable _ failure => some failure
  | .directoryNotMade _ failure => some failure
  | _ => none

/-- The error as it leaves the block that ran into it: a fault of the backend names the block. -/
def inBlock (kind : Kind) (line : Nat) : Error → Error
  | .backend fault => .backend (.inBlock kind line fault)
  | e => e

end Error

end Montage
