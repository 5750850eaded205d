import Montage.Proofs.Renderer.Files
import Montage.Proofs.Renderer.History
import Montage.Proofs.Session.Origins

/-!
# Rehearsals

A dry run of a script leaves the files as they are.  A run that carries its commands out does not:
what it writes, a later definition may try to open.  Still, when both succeed, they end with the
same clips, the same files written and the same commands (`rehearsal_of_run`).

The tree of the second run drifts away from that of the first one, but only by directories and by
output of the encoder (`Drifts`).  This output is neither a picture nor a media file, so whatever a
definition opens in both trees is the same file (`outcome_openSource`).
-/

namespace Montage

variable {h : Host} {o : RenderOptions} {base : Path} {step : Step} {steps : List Step}
  {p q q' : Progress Clip} {dry real r : Renderer} {t t' t'' : FileTree} {content : Content}

/-! ### Trees that drift apart -/

namespace FileTree

/-- The second tree differs from the first one by new directories and by output of the encoder. -/
def Drifts (t t' : FileTree) : Prop :=
  ∀ l, t'.node? l = t.node? l ∨ t'.node? l = some (.file Tool.encodedContent) ∨
    t.node? l = none ∧ t'.node? l = some .directory

namespace Drifts

/-- A tree does not drift away from itself. -/
lemma refl (t : FileTree) : t.Drifts t := fun _ => .inl rfl

/-- New directories are a drift. -/
lemma gain (h : t.Drifts t') (hmade : t'.GainsDirectories t'') : t.Drifts t'' := by
  intro l
  rcases hmade l with hsame | ⟨hnone, hnew⟩
  · rw [hsame]
    exact h l
  · rcases h l with hsame | hfile | ⟨-, hdirectory⟩
    · exact .inr (.inr ⟨hsame ▸ hnone, hnew⟩)
    · cases hnone.symm.trans hfile
    · cases hnone.symm.trans hdirectory

/-- Output of the encoder is a drift. -/
lemma put {destination : Path} (h : t.Drifts t') (hputs : Renderer.Puts o destination t' t'') :
    t.Drifts t'' := by
  obtain ⟨made, l, hmade, -, hnode, -, rfl⟩ := hputs
  intro l'
  by_cases heq : l' = l
  · subst heq
    exact .inr (.inl (node?_insert_self (names_ne_nil hnode)))
  · rw [node?_insert_of_ne heq]
    exact h.gain hmade l'

/-- A file that a path leads to in both trees is the same file, or output of the encoder. -/
lemma file? {path : Path} {content' : Content} (h : t.Drifts t')
    (hfile : t.file? path = some content) (hfile' : t'.file? path = some content') :
    content' = content ∨ content' = Tool.encodedContent := by
  obtain ⟨l, hl, hnode⟩ := file?_eq_some.1 hfile
  obtain ⟨l', hl', hnode'⟩ := file?_eq_some.1 hfile'
  rw [location_of_locate hl', ← location_of_locate hl] at hnode'
  rcases h l with hsame | hencoded | ⟨-, hdirectory⟩
  · rw [hsame, hnode] at hnode'
    cases hnode'
    exact .inl rfl
  · cases hencoded.symm.trans hnode'
    exact .inr rfl
  · cases hdirectory.symm.trans hnode'

end Drifts

end FileTree

/-! ### Opening and encoding in both trees -/

namespace Renderer

/-- A source that can be opened in both trees gives the same clip. -/
lemma outcome_openSource (hprober : h.tool? o.prober ≠ some .encoder) {s : Source} {c c' : Clip}
    (hdrifts : dry.files.Drifts real.files) (hc : (openSource h o s dry).outcome = .ok c)
    (hc' : (openSource h o s real).outcome = .ok c') : c = c' := by
  obtain ⟨content, hfile, hopen⟩ := openSource_eq_ok.1 hc
  obtain ⟨content', hfile', hopen'⟩ := openSource_eq_ok.1 hc'
  have hcontent := hdrifts.file? hfile hfile'
  rcases openFile_eq_ok.1 hopen with ⟨hmedium, himage⟩ | ⟨p, hp, hkind⟩ <;>
    rcases openFile_eq_ok.1 hopen' with ⟨hmedium', himage'⟩ | ⟨p', hp', hkind'⟩
  · rcases hcontent with rfl | rfl
    · exact Except.ok.inj (himage.symm.trans himage')
    · obtain ⟨size, duration, hsize, -⟩ := imageClip_eq_ok.1 himage'
      cases hsize
  · rcases hkind' with ⟨hvideo, -⟩ | ⟨haudio, -⟩
    · cases hmedium.symm.trans hvideo
    · cases hmedium.symm.trans haudio
  · rcases hkind with ⟨hvideo, -⟩ | ⟨haudio, -⟩
    · cases hmedium'.symm.trans hvideo
    · cases hmedium'.symm.trans haudio
  · obtain ⟨output, complaint, hmedia, hread⟩ := probe_eq_ok hprober hp
    obtain ⟨output', complaint', hmedia', hread'⟩ := probe_eq_ok hprober hp'
    have hprobe : p = p' := by
      rcases hdrifts.file? hmedia hmedia' with heq | hencoded
      · cases heq
        exact Option.some.inj (hread.symm.trans hread')
      · cases hencoded
    subst hprobe
    rcases hkind with ⟨hmedium, hclip⟩ | ⟨hmedium, hclip⟩ <;>
      rcases hkind' with ⟨hmedium', hclip'⟩ | ⟨hmedium', hclip'⟩
    · exact Except.ok.inj (hclip.symm.trans hclip')
    · cases hmedium.symm.trans hmedium'
    · cases hmedium.symm.trans hmedium'
    · exact Except.ok.inj (hclip.symm.trans hclip')

/-- What can be made in both trees is the same clip. -/
lemma outcome_make (hprober : h.tool? o.prober ≠ some .encoder) (recipe : Recipe Clip)
    {c c' : Clip} (hdrifts : dry.files.Drifts real.files)
    (hc : (make h o recipe dry).outcome = .ok c) (hc' : (make h o recipe real).outcome = .ok c') :
    c = c' := by
  cases recipe with
  | source s => exact outcome_openSource hprober hdrifts hc hc'
  | _ => exact Except.ok.inj (hc.symm.trans hc')

/-- Two runs have put together the same commands, and the files of the second one have drifted
away from those of the first one. -/
structure Parallel (dry real : Renderer) : Prop where
  commands : dry.commands = real.commands
  files : dry.files.Drifts real.files

/-- Runs that are parallel stay so when a clip is made in both. -/
lemma Parallel.make (hprober : h.tool? o.prober ≠ some .encoder) (hparallel : Parallel dry real)
    (recipe : Recipe Clip) :
    Parallel (make h o recipe dry).state (make h o recipe real).state where
  commands := by rw [commands_make, commands_make, hparallel.commands]
  files := by rw [files_make hprober, files_make hprober]; exact hparallel.files

/-- Runs that are parallel stay so when a clip is encoded in both. -/
lemma Parallel.encode {c : Clip} {e : Encoding} (hparallel : Parallel dry real)
    (hdry : (encode h { o with dryRun := true } c e dry).outcome = .ok ())
    (hreal : (encode h { o with dryRun := false } c e real).outcome = .ok ()) :
    Parallel (encode h { o with dryRun := true } c e dry).state
      (encode h { o with dryRun := false } c e real).state where
  commands := by
    rcases commands_encode h { o with dryRun := true } c e dry with
      ⟨error, herror, -⟩ | ⟨command, hcommand, -, hadded⟩
    · cases herror.symm.trans hdry
    · rcases commands_encode h { o with dryRun := false } c e real with
        ⟨error, herror, -⟩ | ⟨command', hcommand', -, hadded'⟩
      · cases herror.symm.trans hreal
      · cases hcommand.symm.trans hcommand'
        rw [hadded, hadded', hparallel.commands]
  files := by
    rw [files_encode_of_dryRun rfl]
    rcases files_encode (h := h) (o := { o with dryRun := false }) rfl c e real with
      ⟨error, herror, -⟩ | ⟨-, hputs | ⟨-, hmade⟩⟩
    · cases herror.symm.trans hreal
    · exact hparallel.files.put hputs
    · exact hparallel.files.gain hmade

end Renderer

/-! ### Tasks and steps -/

open Renderer

/-- In a dry run, a task leaves the files as they are. -/
lemma Task.files_perform_of_dryRun (hprober : h.tool? o.prober ≠ some .encoder)
    (hdry : o.dryRun = true) (task : Task Clip) (r : Renderer) :
    (task.perform (backend h o) r).state.files = r.files := by
  cases task with
  | make recipe => exact files_make hprober recipe r
  | makeAsLongAs model source => exact files_make hprober _ r
  | encode name clip encoding => exact files_encode_of_dryRun hdry clip encoding r

/-- A task that can be carried out in two parallel runs yields the same in both, and they stay
parallel. -/
lemma Task.parallel_perform (hprober : h.tool? o.prober ≠ some .encoder) {task : Task Clip}
    {product product' : Product Clip} (hparallel : Parallel dry real)
    (hdry : (task.perform (backend h { o with dryRun := true }) dry).outcome = .ok product)
    (hreal : (task.perform (backend h { o with dryRun := false }) real).outcome = .ok product') :
    product = product' ∧ Parallel (task.perform (backend h { o with dryRun := true }) dry).state
      (task.perform (backend h { o with dryRun := false }) real).state := by
  cases task with
  | make recipe =>
    obtain ⟨c, hc, rfl⟩ := map_eq_ok.1 hdry
    obtain ⟨c', hc', rfl⟩ := map_eq_ok.1 hreal
    have hsame : c = c' := outcome_make hprober recipe hparallel.files hc hc'
    exact ⟨by rw [hsame], hparallel.make hprober recipe⟩
  | makeAsLongAs model source =>
    obtain ⟨c, hc, rfl⟩ := map_eq_ok.1 hdry
    obtain ⟨c', hc', rfl⟩ := map_eq_ok.1 hreal
    let recipe : Recipe Clip := .source { source with duration := model.duration }
    have hsame : c = c' := outcome_make hprober recipe hparallel.files hc hc'
    exact ⟨by rw [hsame], hparallel.make hprober recipe⟩
  | encode name clip encoding =>
    obtain ⟨_, hdone, rfl⟩ := map_eq_ok.1 hdry
    obtain ⟨_, hdone', rfl⟩ := map_eq_ok.1 hreal
    exact ⟨rfl, hparallel.encode hdone hdone'⟩

/-- A step that succeeds in two parallel runs brings about the same in both, and they stay
parallel. -/
lemma Step.parallel_run (hprober : h.tool? o.prober ≠ some .encoder)
    (hparallel : Parallel dry real)
    (hdry : (step.run (backend h { o with dryRun := true }) base p dry).outcome = .ok q)
    (hreal : (step.run (backend h { o with dryRun := false }) base p real).outcome = .ok q') :
    q = q' ∧ Parallel (step.run (backend h { o with dryRun := true }) base p dry).state
      (step.run (backend h { o with dryRun := false }) base p real).state := by
  obtain ⟨task, product, htask, hproduct, rfl⟩ := run_eq_ok.1 hdry
  obtain ⟨task', product', htask', hproduct', rfl⟩ := run_eq_ok.1 hreal
  cases htask.symm.trans htask'
  obtain ⟨rfl, hstate⟩ := Task.parallel_perform hprober hparallel hproduct hproduct'
  rw [state_of_task htask, state_of_task htask]
  exact ⟨rfl, hstate⟩

namespace Session

/-! ### Runs -/

/-- In a dry run, the files stay as they are, whether it fails or not. -/
lemma files_runSteps_of_dryRun (hprober : h.tool? o.prober ≠ some .encoder)
    (hdry : o.dryRun = true) (base : Path) (steps : List Step) (p : Progress Clip) (r : Renderer) :
    (runSteps (backend h o) base steps p r).state.files = r.files := by
  induction steps using List.reverseRecOn with
  | nil => rfl
  | append_singleton steps step ih =>
    cases hsteps : (runSteps (backend h o) base steps p r).outcome with
    | error e => rw [runSteps_append_of_error hsteps, ih]
    | ok q =>
      rw [(runSteps_concat_of_ok hsteps step).2]
      cases htask : step.task base q.bindings with
      | error e => rw [Step.run_of_task_error htask, ih]
      | ok task => rw [Step.state_of_task htask, Task.files_perform_of_dryRun hprober hdry, ih]

/-- Steps that succeed both in a dry run and otherwise bring about the same in both. -/
lemma parallel_runSteps (hprober : h.tool? o.prober ≠ some .encoder) (hparallel : Parallel dry real)
    (hdry : (runSteps (backend h { o with dryRun := true }) base steps p dry).outcome = .ok q)
    (hreal : (runSteps (backend h { o with dryRun := false }) base steps p real).outcome = .ok q') :
    q = q' ∧ Parallel (runSteps (backend h { o with dryRun := true }) base steps p dry).state
      (runSteps (backend h { o with dryRun := false }) base steps p real).state := by
  induction steps using List.reverseRecOn generalizing q q' with
  | nil =>
    cases hdry
    cases hreal
    exact ⟨rfl, hparallel⟩
  | append_singleton steps step ih =>
    obtain ⟨m, hsteps, hstep⟩ := runSteps_concat_eq_ok.1 hdry
    obtain ⟨m', hsteps', hstep'⟩ := runSteps_concat_eq_ok.1 hreal
    obtain ⟨rfl, hbefore⟩ := ih hsteps hsteps'
    rw [(runSteps_concat_of_ok hsteps step).2, (runSteps_concat_of_ok hsteps' step).2]
    exact Step.parallel_run hprober hbefore hstep hstep'

/-- A dry run of a script leaves the files as they are.  If it succeeds, and so does a run that
carries the commands out, then both report the same and put the same commands together. -/
theorem rehearsal_of_run (hprober : h.tool? o.prober ≠ some .encoder) (base : Path)
    (steps : List Step) (r : Renderer) :
    (run (backend h { o with dryRun := true }) base steps r).state.files = r.files ∧
    ∀ shown done, (run (backend h { o with dryRun := true }) base steps r).outcome = .ok shown →
      (run (backend h { o with dryRun := false }) base steps r).outcome = .ok done →
      shown = done ∧ (run (backend h { o with dryRun := true }) base steps r).state.commands =
        (run (backend h { o with dryRun := false }) base steps r).state.commands := by
  refine ⟨files_runSteps_of_dryRun (o := { o with dryRun := true }) hprober rfl base steps _ r,
    fun shown done hshown hdone => ?_⟩
  obtain ⟨q, hq, rfl⟩ := map_eq_ok.1 hshown
  obtain ⟨q', hq', rfl⟩ := map_eq_ok.1 hdone
  obtain ⟨rfl, hparallel⟩ := parallel_runSteps hprober ⟨rfl, .refl r.files⟩ hq hq'
  exact ⟨rfl, hparallel.commands⟩

/-- A film is delivered twice to one file, and opened again in between. -/
def retake : List Step :=
  [⟨1, .define ⟨"talk", .video, ⟨"talk.mp4"⟩, true, some 4, none⟩⟩,
    ⟨7, .deliver ⟨"talk", ⟨"out/cut.mp4"⟩, 25, "libx264", "medium", none, []⟩⟩,
    ⟨13, .define ⟨"again", .video, ⟨"talk.mp4"⟩, true, none, some "talk"⟩⟩,
    ⟨19, .deliver ⟨"again", ⟨"out/cut.mp4"⟩, 50, "libx264", "medium", none, []⟩⟩]

/-- Both runs of this script succeed, the second one over its own output, and report the same. -/
theorem rehearsal_of_run_retake : ∃ report,
    (run (backend .standard ⟨"ffmpeg", "ffprobe", true, true⟩) ⟨"/films"⟩ retake
      ⟨archive, []⟩).outcome = .ok report ∧
    (run (backend .standard ⟨"ffmpeg", "ffprobe", true, false⟩) ⟨"/films"⟩ retake
      ⟨archive, []⟩).outcome = .ok report ∧
    (run (backend .standard ⟨"ffmpeg", "ffprobe", true, true⟩) ⟨"/films"⟩ retake
      ⟨archive, []⟩).state.commands =
      (run (backend .standard ⟨"ffmpeg", "ffprobe", true, false⟩) ⟨"/films"⟩ retake
        ⟨archive, []⟩).state.commands := by
  have hprober : Host.standard.tool? "ffprobe" ≠ some .encoder := by decide
  have hshown : ∃ shown, (run (backend .standard ⟨"ffmpeg", "ffprobe", true, true⟩) ⟨"/films"⟩
      retake ⟨archive, []⟩).outcome.toOption = some shown :=
    Option.isSome_iff_exists.1 (by decide +kernel)
  have hdone : ∃ done, (run (backend .standard ⟨"ffmpeg", "ffprobe", true, false⟩) ⟨"/films"⟩
      retake ⟨archive, []⟩).outcome.toOption = some done :=
    Option.isSome_iff_exists.1 (by decide +kernel)
  obtain ⟨shown, hshown⟩ := hshown
  obtain ⟨done, hdone⟩ := hdone
  obtain ⟨-, hsame⟩ :=
    rehearsal_of_run (o := ⟨"ffmpeg", "ffprobe", true, true⟩) hprober ⟨"/films"⟩ retake
      ⟨archive, []⟩
  obtain ⟨rfl, hcommands⟩ :=
    hsame shown done (toOption_eq_some.1 hshown) (toOption_eq_some.1 hdone)
  exact ⟨shown, toOption_eq_some.1 hshown, toOption_eq_some.1 hdone, hcommands⟩

end Session

end Montage
