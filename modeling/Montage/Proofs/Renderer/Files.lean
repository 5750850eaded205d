import Montage.Proofs.FileTree.Growth
import Montage.Proofs.Path
import Montage.Proofs.Renderer.Command
import Montage.Renderer

/-!
# What the renderer does to files

A prober that is not itself the encoder leaves all files as they are, and what it says of a file
depends on the content of this file alone (`probe_eq_ok`).  So only encoding a clip changes the
files, and only outside a dry run: it makes directories on the way of the destination, and if it
succeeds, it puts the output of the encoder at the place of the destination (`exists_made_encode`,
`files_encode`).

A prober that is the encoder says nothing of a file.  So whatever the prober is, a source that can
be opened leaves everything as it is (`state_openSource_of_ok`).
-/

namespace Montage

/-! ### Tools -/

namespace Tool

variable {tool : Tool} {arguments : List String} {t : FileTree}

/-- A tool that is not the encoder leaves the files as they are. -/
lemma files_of_ne_encoder (h : tool ≠ .encoder) : (tool.run arguments t).2 = t := by
  cases tool with
  | encoder => exact absurd rfl h
  | prober =>
    unfold run
    dsimp only
    split <;> rfl
  | broken => rfl

/-- A tool that fails leaves the files as they are. -/
lemma files_of_failure (h : (tool.run arguments t).1.status ≠ 0) :
    (tool.run arguments t).2 = t := by
  by_cases htool : tool = .encoder
  · subst htool
    unfold run encode at h ⊢
    dsimp only at h ⊢
    split
    · rfl
    · rename_i hargs
      rw [if_neg hargs] at h
      split
      · rfl
      · rename_i hcodec
        rw [if_neg hcodec] at h
        split
        · rename_i hwritten
          rw [hwritten] at h
          exact absurd rfl h
        · rfl
  · exact files_of_ne_encoder htool

/-- A tool other than the encoder that succeeds, and was asked for more than its version, has found
a media file under the name of its last argument, and prints what this file holds for it. -/
lemma run_of_ne_encoder (h : tool ≠ .encoder) (hargs : arguments ≠ ["-version"])
    (hstatus : (tool.run arguments t).1.status = 0) :
    ∃ output complaint, t.file? ⟨arguments.getLastD ""⟩ = some (.media output 0 complaint) ∧
      tool.run arguments t = (⟨0, output, complaint⟩, t) := by
  cases tool with
  | broken => cases hstatus
  | encoder => exact absurd rfl h
  | prober =>
    unfold run probe at hstatus ⊢
    dsimp only at hstatus ⊢
    rw [if_neg hargs] at hstatus ⊢
    split at hstatus
    · rename_i output status complaint hfile
      cases show status = 0 from hstatus
      exact ⟨output, complaint, hfile, rfl⟩
    · cases hstatus

/-- A tool that succeeds, and was asked for more than its version, has written the file that its
last argument names, or has left the files as they are. -/
lemma files_of_success (hargs : arguments ≠ ["-version"])
    (hstatus : (tool.run arguments t).1.status = 0) :
    t.write? ⟨arguments.getLastD ""⟩ encodedContent = some (tool.run arguments t).2 ∨
      (tool.run arguments t).2 = t ∧ tool ≠ .encoder ∧
        ∃ output complaint, t.file? ⟨arguments.getLastD ""⟩ = some (.media output 0 complaint) := by
  by_cases htool : tool = .encoder
  · subst htool
    unfold run encode at hstatus ⊢
    dsimp only at hstatus ⊢
    rw [if_neg hargs] at hstatus ⊢
    split at hstatus
    · cases hstatus
    · rename_i hcodec
      rw [if_neg hcodec]
      split at hstatus
      · rename_i t' hwritten
        exact .inl (by rw [hwritten])
      · cases hstatus
  · obtain ⟨output, complaint, hfile, -⟩ := run_of_ne_encoder htool hargs hstatus
    exact .inr ⟨files_of_ne_encoder htool, htool, output, complaint, hfile⟩

/-- An encoder prints nothing. -/
lemma output_of_encoder (arguments : List String) (t : FileTree) :
    (Tool.encoder.run arguments t).1.output = "" := by
  unfold run encode
  dsimp only
  split
  · rfl
  · split
    · rfl
    · split <;> rfl

end Tool

/-- Where nothing is printed, there is no document. -/
lemma Probe.ofBytes?_empty : Probe.ofBytes? (Json.bytesOf "") = none := by
  decide +kernel

/-- A program that is started is that of its name. -/
lemma Host.tool?_of_start {h : Host} {files : FileTree} {program : String}
    {arguments : List String} {tool : Tool} (hstart : h.start files program arguments = .ok tool) :
    h.tool? program = some tool := by
  unfold start at hstart
  split at hstart
  · cases hstart
  · split at hstart
    · cases hstart
    · rename_i tool' htool
      split at hstart
      · cases hstart
      · cases hstart
        exact htool

namespace Renderer

variable {h : Host} {o : RenderOptions} {r : Renderer} {files : FileTree} {path : Path}

/-! ### Opening sources -/

/-- A prober that is not the encoder leaves the files as they are. -/
lemma files_probe (hprober : h.tool? o.prober ≠ some .encoder) (path : Path) (files : FileTree) :
    (probe h o path files).2 = files := by
  unfold probe
  dsimp only
  split
  · rfl
  · rename_i tool hstart
    have htool : tool ≠ .encoder := fun heq => hprober (heq ▸ Host.tool?_of_start hstart)
    split
    · exact Tool.files_of_ne_encoder htool
    · split <;> exact Tool.files_of_ne_encoder htool

/-- What a prober says is read off the content of the file alone. -/
lemma probe_eq_ok (hprober : h.tool? o.prober ≠ some .encoder) {p : Probe}
    (hp : (probe h o path files).1 = .ok p) :
    ∃ output complaint, files.file? path = some (.media output 0 complaint) ∧
      Probe.ofBytes? (Json.bytesOf output) = some p := by
  unfold probe at hp
  dsimp only at hp
  split at hp
  · cases hp
  · rename_i tool hstart
    have htool : tool ≠ .encoder := fun heq => hprober (heq ▸ Host.tool?_of_start hstart)
    split at hp
    · cases hp
    · rename_i hstatus
      obtain ⟨output, complaint, hfile, hrun⟩ :=
        Tool.run_of_ne_encoder htool (by simp) (not_not.1 hstatus)
      rw [hrun] at hp
      refine ⟨output, complaint, hfile, ?_⟩
      split at hp
      · cases hp
      · rename_i p' hread
        cases hp
        exact hread

/-- Opening a file leaves the files as they are. -/
lemma files_openFile (hprober : h.tool? o.prober ≠ some .encoder) (s : Source) (content : Content)
    (files : FileTree) : (openFile h o s content files).2.2 = files := by
  have hprobe := files_probe hprober s.path files
  unfold openFile
  split
  · rfl
  · split <;> rename_i heq <;> rwa [heq] at hprobe
  · split <;> rename_i heq <;> rwa [heq] at hprobe

/-- Making a clip leaves the files as they are. -/
theorem files_make (hprober : h.tool? o.prober ≠ some .encoder) (recipe : Recipe Clip)
    (r : Renderer) : (make h o recipe r).state.files = r.files := by
  cases recipe with
  | source s =>
    unfold make openSource
    dsimp only
    split
    · rfl
    · rename_i content _
      have hopen := files_openFile hprober s content r.files
      split <;> rename_i heq <;> rwa [heq] at hopen
  | _ => rfl

/-! ### Sources that can be opened -/

/-- A file that can be probed leaves the files as they are.  Were the prober the encoder, there
would be nothing to read. -/
lemma files_probe_of_ok {path : Path} {files : FileTree} {p : Probe}
    (hp : (probe h o path files).1 = .ok p) : (probe h o path files).2 = files := by
  by_cases hprober : h.tool? o.prober = some .encoder
  · unfold probe at hp
    dsimp only at hp
    split at hp
    · cases hp
    · rename_i tool hstart
      cases hprober.symm.trans (Host.tool?_of_start hstart)
      rw [Tool.output_of_encoder, Probe.ofBytes?_empty] at hp
      split at hp <;> cases hp
  · exact files_probe hprober path files

/-- A source file that can be opened leaves the files as they are. -/
lemma files_openFile_of_ok {s : Source} {content : Content} {files : FileTree} {c : Clip}
    (hc : (openFile h o s content files).1 = .ok c) :
    (openFile h o s content files).2.2 = files := by
  have hfiles : (openFile h o s content files).2.2 = files ∨
      (openFile h o s content files).2.2 = (probe h o s.path files).2 := by
    unfold openFile
    rcases probe h o s.path files with ⟨e | p, files'⟩ <;> cases s.medium <;> simp
  rcases openFile_eq_ok.1 hc with ⟨himage, -⟩ | ⟨p, hp, -⟩
  · unfold openFile
    rw [himage]
  · rw [files_probe_of_ok hp, or_self] at hfiles
    exact hfiles

/-- A source that can be opened leaves the state as it is. -/
lemma state_openSource_of_ok {s : Source} {c : Clip} (hc : (openSource h o s r).outcome = .ok c) :
    (openSource h o s r).state = r := by
  obtain ⟨content, hcontent, hopen⟩ := openSource_eq_ok.1 hc
  have hkept := files_openFile_of_ok hopen
  unfold openSource
  rcases hfile : openFile h o s content r.files with ⟨e | c', events, files⟩
  · rw [hfile] at hopen
    cases hopen
  · rw [hfile] at hkept
    simp only [hcontent, hfile]
    rw [show files = r.files from hkept]

/-! ### Encoding clips -/

/-- The output of the encoder has been put where a destination leads to, after directories were
made.  A file that was there has been overwritten only if the options say so. -/
def Puts (o : RenderOptions) (destination : Path) (t t' : FileTree) : Prop :=
  ∃ made l, t.GainsDirectories made ∧ made.locate destination = .ok l ∧
    made.node? l ≠ some .directory ∧ (o.overwrite = false → made.node? l = none) ∧
    t' = made.insert l (.file Tool.encodedContent)

/-- A command that is asked to encode is not asked for a version. -/
lemma arguments_ne_version (o : RenderOptions) (g : Filtergraph) (e : Encoding) :
    e.arguments o g ≠ ["-version"] := by
  simp [Encoding.arguments]

/-- The last argument of a command is the path of its destination. -/
lemma getLastD_arguments (o : RenderOptions) (g : Filtergraph) (e : Encoding) :
    (e.arguments o g).getLastD "" = e.destination.text := by
  rw [Encoding.arguments, List.getLastD_concat]

/-- Before anything is encoded, directories are made on the way of the destination. -/
lemma gainsWithin_prepare (destination : Path) (files : FileTree) :
    FileTree.GainsWithin (Location.OnWay destination) files (prepare destination files).2 := by
  unfold prepare
  split
  · exact .refl _ files
  · rename_i directory hdirectory
    obtain ⟨hparent, -⟩ := Option.filter_eq_some_iff.1 hdirectory
    have hmade : FileTree.GainsWithin (Location.OnWay destination) files
        (files.ensureDirectory directory).2 := by
      refine (files.gainsWithin_ensureDirectory directory).mono ?_
      rintro l ⟨q, hq, rfl⟩
      exact Location.onWay_of_mem_ancestors hparent hq
    split <;> rename_i heq <;> rwa [heq] at hmade

/-- What becomes of the files when a command succeeds.  The output of the encoder is written where
the destination leads to.  Only where files may be overwritten, the command may also have found a
file there and left it as it is. -/
def Settles (o : RenderOptions) (destination : Path) (t t' : FileTree) : Prop :=
  (∃ l, t.locate destination = .ok l ∧ t.node? l ≠ some .directory ∧
    (o.overwrite = false → t.node? l = none) ∧ t' = t.insert l (.file Tool.encodedContent)) ∨
  o.overwrite = true ∧ t' = t ∧ ∃ content, t.file? destination = some content

/-- A command that fails leaves the files as they are. -/
lemma files_execute_of_error {command : Command} {destination : Path} {e : Fault}
    (he : (execute h o command destination files).1 = .error e) :
    (execute h o command destination files).2 = files := by
  unfold execute at he ⊢
  dsimp only at he ⊢
  split
  · rfl
  · rename_i hexists
    rw [if_neg hexists] at he
    split
    · rfl
    · rename_i hworks
      rw [if_neg hworks] at he
      split
      · rfl
      · rename_i tool hstart
        rw [hstart] at he
        dsimp only at he
        split
        · rename_i hstatus
          exact Tool.files_of_failure hstatus
        · rename_i hstatus
          rw [if_neg hstatus] at he
          cases he

/-- A command that succeeds settles its destination. -/
lemma settles_execute {g : Filtergraph} {e : Encoding}
    (hok : (execute h o ⟨o.encoder, e.arguments o g⟩ e.destination files).1 = .ok ()) :
    Settles o e.destination files
      (execute h o ⟨o.encoder, e.arguments o g⟩ e.destination files).2 := by
  unfold execute at hok ⊢
  dsimp only at hok ⊢
  split at hok
  · cases hok
  · rename_i hexists
    rw [if_neg hexists]
    have hfree {l : Location} {n : Node} (hl : files.locate e.destination = .ok l)
        (hn : files.node? l = some n) : o.overwrite = true := by
      have hpresent := FileTree.isPresent_iff.2 ⟨l, n, hl, hn⟩
      simpa [hpresent] using hexists
    split at hok
    · cases hok
    · rename_i hworks
      rw [if_neg hworks]
      split at hok
      · cases hok
      · rename_i tool hstart
        split at hok
        · cases hok
        · rename_i hstatus
          rw [if_neg hstatus]
          rcases Tool.files_of_success (arguments_ne_version o g e) (not_not.1 hstatus) with
            hwritten | ⟨hsame, -, output, complaint, hfile⟩
          · rw [getLastD_arguments] at hwritten
            obtain ⟨l, hl, hnode, heq⟩ := FileTree.write?_eq_some.1 hwritten
            refine .inl ⟨l, hl, hnode, fun hkeep => ?_, heq⟩
            cases hn : files.node? l with
            | none => rfl
            | some n => exact absurd (hfree hl hn) (by simp [hkeep])
          · rw [getLastD_arguments] at hfile
            obtain ⟨l, hl, hnode⟩ := FileTree.file?_eq_some.1 hfile
            exact .inr ⟨hfree hl hnode, hsame, _, hfile⟩

/-- A dry run leaves the files as they are. -/
lemma files_encode_of_dryRun (hdry : o.dryRun = true) (c : Clip) (e : Encoding) (r : Renderer) :
    (encode h o c e r).state.files = r.files := by
  unfold encode
  cases e.command o c with
  | error fault => rfl
  | ok command =>
    dsimp only
    rw [if_pos hdry]

/-- Outside a dry run, encoding a clip makes directories on the way of the destination.  If it
succeeds, it then settles the destination. -/
lemma exists_made_encode (h : Host) (hdry : o.dryRun = false) (c : Clip) (e : Encoding)
    (r : Renderer) : ∃ made, FileTree.GainsWithin (Location.OnWay e.destination) r.files made ∧
      ((∃ error, (encode h o c e r).outcome = .error error ∧
        (encode h o c e r).state.files = made) ∨
      (encode h o c e r).outcome = .ok () ∧
        Settles o e.destination made (encode h o c e r).state.files) := by
  unfold encode
  cases hcommand : e.command o c with
  | error fault => exact ⟨r.files, .refl _ r.files, .inl ⟨_, rfl, rfl⟩⟩
  | ok command =>
    obtain ⟨-, -, g, -, rfl⟩ := Encoding.command_eq_ok.1 hcommand
    have hmade := gainsWithin_prepare e.destination r.files
    dsimp only
    rw [if_neg (by simp [hdry])]
    unfold carryOut
    cases hprepare : prepare e.destination r.files with
    | mk prepared made =>
      rw [hprepare] at hmade
      refine ⟨made, hmade, ?_⟩
      cases prepared with
      | error error => exact .inl ⟨error, rfl, rfl⟩
      | ok _ =>
        dsimp only
        cases hexecute : execute h o ⟨o.encoder, e.arguments o g⟩ e.destination made with
        | mk outcome after =>
          cases outcome with
          | error fault =>
            have hsame := files_execute_of_error (congrArg Prod.fst hexecute)
            rw [hexecute] at hsame
            exact .inl ⟨_, rfl, hsame⟩
          | ok _ =>
            have hdone := settles_execute (congrArg Prod.fst hexecute)
            rw [hexecute] at hdone
            exact .inr ⟨rfl, hdone⟩

/-- Outside a dry run, encoding a clip makes directories.  If it succeeds, it also puts the output
of the encoder where the destination leads to; only where files may be overwritten, it may have
found the file already. -/
theorem files_encode (hdry : o.dryRun = false) (c : Clip) (e : Encoding) (r : Renderer) :
    (∃ error, (encode h o c e r).outcome = .error error ∧
      r.files.GainsDirectories (encode h o c e r).state.files) ∨
    (encode h o c e r).outcome = .ok () ∧
      (Puts o e.destination r.files (encode h o c e r).state.files ∨
        o.overwrite = true ∧ r.files.GainsDirectories (encode h o c e r).state.files) := by
  obtain ⟨made, hmade, hfails | ⟨hok, hsettles⟩⟩ := exists_made_encode h hdry c e r
  · obtain ⟨error, herror, hfiles⟩ := hfails
    exact .inl ⟨error, herror, hfiles ▸ hmade.toGainsDirectories⟩
  · refine .inr ⟨hok, hsettles.imp ?_ ?_⟩
    · rintro ⟨l, hl, hnode, hfree, heq⟩
      exact ⟨made, l, hmade.toGainsDirectories, hl, hnode, hfree, heq⟩
    · rintro ⟨hover, hsame, -⟩
      exact ⟨hover, hsame ▸ hmade.toGainsDirectories⟩

end Renderer

end Montage
