import Montage.Proofs.Renderer.Files
import Montage.Proofs.Renderer.History

/-!
# Encoding is all or nothing

A clip that cannot be encoded, for whatever reason, leaves no command behind and no trace in the
files but directories on the way of its destination (`Renderer.Abandons`).  A clip that is encoded
leaves the one command that encodes it, and beside such directories its file (`Renderer.Completes`).

There are many reasons to fail, before and after directories are made, but in both parts of the
state they come to one: `commands_encode` says when the command is remembered, and
`exists_made_encode` compares the files with those in which the directories have just been made.
-/

namespace Montage.Renderer

variable {h : Host} {o : RenderOptions} {destination : Path} {r r' : Renderer}
  {t made t' : FileTree}

/-- What a clip leaves behind that could not be encoded. -/
structure Abandons (destination : Path) (r r' : Renderer) : Prop where
  commands : r'.commands = r.commands
  /-- The files are the same, with the same contents. -/
  files : ∀ l content,
    r'.files.node? l = some (.file content) ↔ r.files.node? l = some (.file content)
  /-- What is new are directories on the way of the destination. -/
  made : FileTree.GainsWithin (Location.OnWay destination) r.files r'.files

/-- What a clip leaves behind that was encoded. -/
structure Completes (o : RenderOptions) (command : Command) (destination : Path)
    (r r' : Renderer) : Prop where
  commands : r'.commands = r.commands ++ [command]
  dry : o.dryRun = true → r'.files = r.files
  /-- There is a file at the destination: the output of the encoder, or one that was there. -/
  written : o.dryRun = false → ∃ content,
    r'.files.node? (.ofPath destination) = some (.file content) ∧
      (content = Tool.encodedContent ∨ r.files.node? (.ofPath destination) = some (.file content))
  /-- All else that is new are directories on the way of the destination. -/
  others : o.dryRun = false → ∀ l, l ≠ .ofPath destination →
    r'.files.node? l = r.files.node? l ∨
      Location.OnWay destination l ∧ r.files.node? l = none ∧ r'.files.node? l = some .directory

/-- Where directories were made and then a destination was settled, there is a file, and all else
that is new are the directories. -/
lemma Settles.after (hmade : FileTree.GainsWithin (Location.OnWay destination) t made)
    (hsettles : Settles o destination made t') :
    (∃ content, t'.node? (.ofPath destination) = some (.file content) ∧
      (content = Tool.encodedContent ∨ t.node? (.ofPath destination) = some (.file content))) ∧
    ∀ l, l ≠ .ofPath destination → t'.node? l = t.node? l ∨
      Location.OnWay destination l ∧ t.node? l = none ∧ t'.node? l = some .directory := by
  rcases hsettles with ⟨l, hl, hnode, -, rfl⟩ | ⟨-, rfl, content, hfile⟩
  · rw [← FileTree.location_of_locate hl]
    refine ⟨⟨_, FileTree.node?_insert_self (FileTree.names_ne_nil hnode), .inl rfl⟩, ?_⟩
    intro l' hne
    rw [FileTree.node?_insert_of_ne hne]
    exact hmade l'
  · obtain ⟨l, hl, hnode⟩ := FileTree.file?_eq_some.1 hfile
    rw [← FileTree.location_of_locate hl]
    exact ⟨⟨content, hnode, .inr (hmade.toGainsDirectories.node?_eq_file.1 hnode)⟩,
      fun l' _ => hmade l'⟩

/-- A clip that cannot be encoded leaves the files as they are, but for directories on the way of
its destination. -/
lemma gainsWithin_of_error {c : Clip} {e : Encoding} {error : Error}
    (herror : (encode h o c e r).outcome = .error error) :
    FileTree.GainsWithin (Location.OnWay e.destination) r.files (encode h o c e r).state.files := by
  cases hdry : o.dryRun with
  | true =>
    rw [files_encode_of_dryRun hdry]
    exact .refl _ r.files
  | false =>
    obtain ⟨made, hmade, ⟨-, -, hfiles⟩ | ⟨hok, -⟩⟩ := exists_made_encode h hdry c e r
    · exact hfiles ▸ hmade
    · cases herror.symm.trans hok

/-- A clip that is encoded outside a dry run has its destination settled, after directories were
made on the way there. -/
lemma exists_settles_of_ok {c : Clip} {e : Encoding} (hdry : o.dryRun = false)
    (hok : (encode h o c e r).outcome = .ok ()) :
    ∃ made, FileTree.GainsWithin (Location.OnWay e.destination) r.files made ∧
      Settles o e.destination made (encode h o c e r).state.files := by
  obtain ⟨made, hmade, ⟨error, herror, -⟩ | ⟨-, hsettles⟩⟩ := exists_made_encode h hdry c e r
  · cases herror.symm.trans hok
  · exact ⟨made, hmade, hsettles⟩

/-- Encoding is all or nothing.  If it fails, it has added no command, and all that is new in the
files are directories on the way of the destination.  If it succeeds, it has added the command of
the clip; outside a dry run the destination is a file now, and all else that is new are such
directories. -/
theorem all_or_nothing_encode (h : Host) (o : RenderOptions) (c : Clip) (e : Encoding)
    (r : Renderer) :
    (∃ error, (encode h o c e r).outcome = .error error ∧
      Abandons e.destination r (encode h o c e r).state) ∨
    (encode h o c e r).outcome = .ok () ∧ ∃ command, e.command o c = .ok command ∧
      Completes o command e.destination r (encode h o c e r).state := by
  rcases commands_encode h o c e r with
    ⟨error, herror, hcommands⟩ | ⟨command, hcommand, hok, hadded⟩
  · have hmade := gainsWithin_of_error herror
    exact .inl ⟨error, herror, hcommands, fun l content => hmade.toGainsDirectories.node?_eq_file,
      hmade⟩
  · refine .inr ⟨hok, command, hcommand, hadded, ?_, ?_, ?_⟩
    · intro hdry
      exact files_encode_of_dryRun hdry c e r
    · intro hdry
      obtain ⟨made, hmade, hsettles⟩ := exists_settles_of_ok hdry hok
      exact (hsettles.after hmade).1
    · intro hdry
      obtain ⟨made, hmade, hsettles⟩ := exists_settles_of_ok hdry hok
      exact (hsettles.after hmade).2

/-- The destination of a film, by way of a directory that it only passes through. -/
def detour : Path := ⟨"/films/raw/../cuts/talk.mp4"⟩

/-- Encodes a film with the given codec where there are no files yet. -/
def encodeFilm (codec : String) : Reply Renderer Unit :=
  encode .standard ⟨"ffmpeg", "ffprobe", false, false⟩
    (.ofSource .video ⟨"/films/talk.mp4"⟩ none none false none)
    ⟨detour, 25, codec, "medium", none, []⟩ ⟨.empty, []⟩

/-- With a codec that is unknown, the film is not encoded, but both directories have been made.
With one that is known, its command and its file are there as well. -/
theorem all_or_nothing_encodeFilm :
    (Abandons detour ⟨.empty, []⟩ (encodeFilm "failing").state ∧
      (encodeFilm "failing").state.files.isDirectory ⟨"/films/raw"⟩ = true ∧
      (encodeFilm "failing").state.files.isDirectory ⟨"/films/cuts"⟩ = true) ∧
    ∃ command, Completes ⟨"ffmpeg", "ffprobe", false, false⟩ command detour ⟨.empty, []⟩
        (encodeFilm "libx264").state ∧
      (encodeFilm "libx264").state.files.file? ⟨"/films/cuts/talk.mp4"⟩ =
        some Tool.encodedContent := by
  obtain ⟨hfails, hraw, hcuts⟩ : (encodeFilm "failing").outcome ≠ .ok () ∧
      (encodeFilm "failing").state.files.isDirectory ⟨"/films/raw"⟩ = true ∧
      (encodeFilm "failing").state.files.isDirectory ⟨"/films/cuts"⟩ = true := by
    decide +kernel
  obtain ⟨hdone, hfilm⟩ : (encodeFilm "libx264").outcome = .ok () ∧
      (encodeFilm "libx264").state.files.file? ⟨"/films/cuts/talk.mp4"⟩ =
        some Tool.encodedContent := by
    decide +kernel
  constructor
  · rcases all_or_nothing_encode .standard ⟨"ffmpeg", "ffprobe", false, false⟩
      (.ofSource .video ⟨"/films/talk.mp4"⟩ none none false none)
      ⟨detour, 25, "failing", "medium", none, []⟩ ⟨.empty, []⟩ with
      ⟨-, -, habandons⟩ | ⟨hok, -⟩
    · exact ⟨habandons, hraw, hcuts⟩
    · exact absurd hok hfails
  · rcases all_or_nothing_encode .standard ⟨"ffmpeg", "ffprobe", false, false⟩
      (.ofSource .video ⟨"/films/talk.mp4"⟩ none none false none)
      ⟨detour, 25, "libx264", "medium", none, []⟩ ⟨.empty, []⟩ with
      ⟨error, herror, -⟩ | ⟨-, command, -, hcompletes⟩
    · cases herror.symm.trans hdone
    · exact ⟨command, hcompletes, hfilm⟩

end Montage.Renderer
