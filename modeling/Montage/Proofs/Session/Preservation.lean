import Montage.Proofs.Renderer.Files
import Montage.Proofs.Session.Check
import Montage.Proofs.Session.Origins

/-!
# Files that are kept

A run of the renderer that may not overwrite anything loses nothing: whether it fails or not, all
that was there before it is there after it, and each new file is the output of a delivery that the
run has carried out (`Spares`).  It refuses to deliver to the same place twice.

Every step either makes no more than directories, or is a delivery that is carried out and puts the
output of the encoder at a free place (`Step.files_run`).  What holds of a run follows by adding one
step at the end.
-/

namespace Montage

variable {h : Host} {o : RenderOptions} {base : Path} {step : Step} {steps : List Step}
  {p : Progress Clip} {r : Renderer} {d d' : Delivery} {t t' : FileTree} {l : Location}
  {content : Content}

/-! ### Free places -/

namespace Renderer.Puts

variable {destination : Path}

/-- Where nothing may be overwritten, a file is put at a place that was free. -/
lemma exists_free (hkeep : o.overwrite = false) (hputs : Puts o destination t t') :
    ∃ l, t.node? l = none ∧ t.Extends t' ∧ t'.locate destination = .ok l ∧
      t'.node? l = some (.file Tool.encodedContent) ∧
      ∀ l' content, l' ≠ l → t'.node? l' = some (.file content) →
        t.node? l' = some (.file content) := by
  obtain ⟨made, l, hmade, hl, -, hfree, rfl⟩ := hputs
  have hextends : made.Extends (made.insert l (.file Tool.encodedContent)) :=
    FileTree.extends_insert (hfree hkeep) _
  refine ⟨l, ?_, hmade.toExtends.trans hextends, hextends.locate hl,
    FileTree.node?_insert_of_free (hfree hkeep), fun l' content hne hfile => ?_⟩
  · rcases hmade l with hsame | ⟨hnone, -⟩
    · rw [← hsame, hfree hkeep]
    · exact hnone
  · rw [FileTree.node?_insert_of_ne hne] at hfile
    exact hmade.node?_eq_file.1 hfile

end Renderer.Puts

/-! ### Steps -/

namespace Task

/-- A task that makes a clip leaves the files as they are. -/
lemma files_perform_of_clip {task : Task Clip} (hprober : h.tool? o.prober ≠ some .encoder)
    (htask : (∃ recipe, task = .make recipe) ∨ ∃ model source, task = .makeAsLongAs model source)
    (r : Renderer) : (task.perform (Renderer.backend h o) r).state.files = r.files := by
  rcases htask with ⟨recipe, rfl⟩ | ⟨model, source, rfl⟩
  · exact Renderer.files_make hprober recipe r
  · exact Renderer.files_make hprober _ r

end Task

/-- A step that delivers a clip and succeeds puts the output of the encoder where the destination
leads to.  Any other step, and one that fails, makes no more than directories. -/
lemma Step.files_run (hprober : h.tool? o.prober ≠ some .encoder) (hkeep : o.overwrite = false)
    (hdry : o.dryRun = false) (base : Path) (step : Step) (p : Progress Clip) (r : Renderer) :
    (∃ d q, step.operation = .deliver d ∧
      (step.run (Renderer.backend h o) base p r).outcome = .ok q ∧
      Renderer.Puts o (base.join d.destination) r.files
        (step.run (Renderer.backend h o) base p r).state.files) ∨
    r.files.GainsDirectories (step.run (Renderer.backend h o) base p r).state.files ∧
      ∀ d q, step.operation = .deliver d →
        (step.run (Renderer.backend h o) base p r).outcome ≠ .ok q := by
  cases htask : step.task base p.bindings with
  | error e =>
    rw [run_of_task_error htask]
    exact .inr ⟨.refl r.files, nofun⟩
  | ok task =>
    rw [state_of_task htask]
    obtain ⟨_, -, hop⟩ := bind_eq_ok.1 htask
    rcases Operation.task_cases hop with ⟨name, hname, hclip⟩ | ⟨d, clip, hd, -, rfl⟩
    · rw [Task.files_perform_of_clip hprober hclip]
      refine .inr ⟨.refl r.files, fun d q hd => ?_⟩
      rw [hd] at hname
      cases hname
    · rcases Renderer.files_encode (h := h) hdry clip (d.toEncoding base) r with
        ⟨error, hfailed, hmade⟩ | ⟨hdone, hputs | ⟨hover, -⟩⟩
      · refine .inr ⟨hmade, fun d' q _ hok => ?_⟩
        obtain ⟨task', product, htask', hproduct, -⟩ := run_eq_ok.1 hok
        cases htask.symm.trans htask'
        obtain ⟨_, hencoded, -⟩ := map_eq_ok.1 hproduct
        cases hfailed.symm.trans hencoded
      · have hproduct : ((Task.encode d.input clip (d.toEncoding base)).perform
            (Renderer.backend h o) r).outcome = .ok (.file d.input (base.join d.destination)) :=
          map_eq_ok.2 ⟨(), hdone, rfl⟩
        exact .inl ⟨d, _, hd, (run_of_task_ok htask hproduct).1, hputs⟩
      · cases hkeep.symm.trans hover

namespace Session

/-! ### Runs -/

/-- A run carries out a delivery: it gets past a step with this delivery without an error. -/
def CarriesOut (h : Host) (o : RenderOptions) (base : Path) (steps : List Step) (r : Renderer)
    (d : Delivery) : Prop :=
  ∃ before step after q, steps = before ++ step :: after ∧ step.operation = .deliver d ∧
    (runSteps (Renderer.backend h o) base (before ++ [step]) .start r).outcome = .ok q

/-- What is carried out by the first steps is carried out with one more at the end. -/
lemma CarriesOut.concat (hcarries : CarriesOut h o base steps r d) (step : Step) :
    CarriesOut h o base (steps ++ [step]) r d := by
  obtain ⟨before, other, after, q, rfl, hd, hq⟩ := hcarries
  exact ⟨before, other, after ++ [step], q, by rw [List.append_assoc, List.cons_append], hd, hq⟩

/-- What is carried out with a step at the end is done by this step, or by the rest. -/
lemma carriesOut_concat (hcarries : CarriesOut h o base (steps ++ [step]) r d) :
    CarriesOut h o base steps r d ∨ step.operation = .deliver d ∧
      ∃ q, (runSteps (Renderer.backend h o) base (steps ++ [step]) .start r).outcome = .ok q := by
  obtain ⟨before, other, after, q, heq, hd, hq⟩ := hcarries
  rcases split_concat heq with ⟨rfl, rfl⟩ | ⟨rest, rfl⟩
  · exact .inr ⟨hd, q, hq⟩
  · exact .inl ⟨before, other, rest, q, rfl, hd, hq⟩

/-- What a run of some steps makes of the files when nothing may be overwritten. -/
structure Spares (h : Host) (o : RenderOptions) (base : Path) (steps : List Step) (r : Renderer)
    (after : FileTree) : Prop where
  /-- Nothing is lost or changed. -/
  kept : r.files.Extends after
  /-- A new file is the output of a delivery that is carried out. -/
  new : ∀ l content, after.node? l = some (.file content) →
    r.files.node? l = some (.file content) ∨ r.files.node? l = none ∧
      content = Tool.encodedContent ∧ ∃ d, CarriesOut h o base steps r d ∧
        after.locate (base.join d.destination) = .ok l
  /-- The output of every delivery that is carried out is there. -/
  written : ∀ d, CarriesOut h o base steps r d → ∃ l,
    after.locate (base.join d.destination) = .ok l ∧
      after.node? l = some (.file Tool.encodedContent)

namespace Spares

/-- With a step at the end that makes no more than directories, a run still spares the files. -/
lemma of_gainsDirectories (hspares : Spares h o base steps r t) (hmade : t.GainsDirectories t')
    (hstep : ∀ d, CarriesOut h o base (steps ++ [step]) r d → CarriesOut h o base steps r d) :
    Spares h o base (steps ++ [step]) r t' where
  kept := hspares.kept.trans hmade.toExtends
  new l content hfile := by
    refine (hspares.new l content (hmade.node?_eq_file.1 hfile)).imp_right ?_
    rintro ⟨hnone, hcontent, d, hd, hl⟩
    exact ⟨hnone, hcontent, d, hd.concat step, hmade.toExtends.locate hl⟩
  written d hd := by
    obtain ⟨l, hl, hnode⟩ := hspares.written d (hstep d hd)
    exact ⟨l, hmade.toExtends.locate hl, hmade.toExtends l _ hnode⟩

/-- With a delivery at the end that is carried out, a run still spares the files. -/
lemma of_puts (hkeep : o.overwrite = false) (hspares : Spares h o base steps r t)
    (hputs : Renderer.Puts o (base.join d.destination) t t')
    (hd : CarriesOut h o base (steps ++ [step]) r d)
    (hstep : ∀ d', CarriesOut h o base (steps ++ [step]) r d' →
      CarriesOut h o base steps r d' ∨ d' = d) :
    Spares h o base (steps ++ [step]) r t' := by
  obtain ⟨l, hfree, hextends, hl, hnode, hothers⟩ := hputs.exists_free hkeep
  refine ⟨hspares.kept.trans hextends, fun l' content hfile => ?_, fun d' hd' => ?_⟩
  · by_cases heq : l' = l
    · subst heq
      cases hnode.symm.trans hfile
      refine .inr ⟨?_, rfl, d, hd, hl⟩
      cases hbefore : r.files.node? l' with
      | none => rfl
      | some n => cases hfree.symm.trans (hspares.kept l' n hbefore)
    · refine (hspares.new l' content (hothers l' content heq hfile)).imp_right ?_
      rintro ⟨hnone, hcontent, d', hd', hl'⟩
      exact ⟨hnone, hcontent, d', hd'.concat step, hextends.locate hl'⟩
  · rcases hstep d' hd' with hearlier | rfl
    · obtain ⟨l', hl', hnode'⟩ := hspares.written d' hearlier
      exact ⟨l', hextends.locate hl', hextends l' _ hnode'⟩
    · exact ⟨l, hl, hnode⟩

end Spares

/-- A run that may not overwrite anything spares the files, whether it fails or not. -/
lemma spares_runSteps (hprober : h.tool? o.prober ≠ some .encoder) (hkeep : o.overwrite = false)
    (hdry : o.dryRun = false) (base : Path) (steps : List Step) (r : Renderer) :
    Spares h o base steps r
      (runSteps (Renderer.backend h o) base steps .start r).state.files := by
  induction steps using List.reverseRecOn with
  | nil =>
    refine ⟨.refl r.files, fun l content hfile => .inl hfile, ?_⟩
    rintro d ⟨before, step, after, q, heq, -⟩
    simp at heq
  | append_singleton steps step ih =>
    cases hsteps : (runSteps (Renderer.backend h o) base steps .start r).outcome with
    | error e =>
      rw [runSteps_append_of_error hsteps]
      refine ih.of_gainsDirectories (.refl _) fun d hd => ?_
      rcases carriesOut_concat hd with hd | ⟨-, q, hq⟩
      · exact hd
      · rw [runSteps_append_of_error hsteps, hsteps] at hq
        cases hq
    | ok q =>
      obtain ⟨houtcome, hstate⟩ := runSteps_concat_of_ok hsteps step
      rw [hstate]
      rcases Step.files_run hprober hkeep hdry base step q
          (runSteps (Renderer.backend h o) base steps .start r).state with
        ⟨d, q', hd, hq', hputs⟩ | ⟨hmade, hother⟩
      · refine ih.of_puts hkeep hputs ⟨steps, step, [], q', rfl, hd, houtcome.trans hq'⟩
          fun d' hd' => (carriesOut_concat hd').imp_right fun hlast => ?_
        exact Operation.deliver.inj (hlast.1.symm.trans hd)
      · refine ih.of_gainsDirectories hmade fun d hd => ?_
        rcases carriesOut_concat hd with hd | ⟨hd, q', hq'⟩
        · exact hd
        · exact absurd (houtcome.symm.trans hq') (hother d q' hd)

/-- A delivery to a place that the run has already delivered to fails. -/
lemma exists_error_of_carriesOut (hprober : h.tool? o.prober ≠ some .encoder)
    (hkeep : o.overwrite = false) (hdry : o.dryRun = false)
    (hd : CarriesOut h o base steps r d) (hd' : step.operation = .deliver d')
    (hplace : Location.ofPath (base.join d.destination) =
      Location.ofPath (base.join d'.destination)) (q : Progress Clip) :
    ∃ e, (step.run (Renderer.backend h o) base q
      (runSteps (Renderer.backend h o) base steps .start r).state).outcome = .error e := by
  obtain ⟨l, hl, hnode⟩ := (spares_runSteps hprober hkeep hdry base steps r).written d hd
  rcases Step.files_run hprober hkeep hdry base step q
      (runSteps (Renderer.backend h o) base steps .start r).state with
    ⟨d'', q', hd'', -, hputs⟩ | ⟨-, hfails⟩
  · cases hd'.symm.trans hd''
    obtain ⟨l', hfree, -, hl', -⟩ := hputs.exists_free hkeep
    rw [FileTree.location_of_locate hl', ← hplace, ← FileTree.location_of_locate hl] at hfree
    cases hfree.symm.trans hnode
  · cases houtcome : (step.run (Renderer.backend h o) base q
      (runSteps (Renderer.backend h o) base steps .start r).state).outcome with
    | error e => exact ⟨e, rfl⟩
    | ok q' => exact absurd houtcome (hfails d' q' hd')

/-- The deliveries of a run that succeeds are carried out. -/
lemma carriesOut_of_mem {q : Progress Clip}
    (hq : (runSteps (Renderer.backend h o) base steps .start r).outcome = .ok q)
    (hstep : step ∈ steps) (hd : step.operation = .deliver d) : CarriesOut h o base steps r d := by
  obtain ⟨before, after, rfl⟩ := List.append_of_mem hstep
  rw [List.append_cons] at hq
  cases hbefore : (runSteps (Renderer.backend h o) base (before ++ [step]) .start r).outcome with
  | error e =>
    rw [runSteps_append_of_error hbefore, hbefore] at hq
    cases hq
  | ok q' => exact ⟨before, step, after, q', rfl, hd, hbefore⟩

/-- A run that may not overwrite anything spares the files, whether it fails or not: every file that
was there is found with its content, and every new file is the output of a delivery that the run has
carried out.  When it comes to a delivery whose destination is where an earlier delivery went, it
fails. -/
theorem spares_of_run (hprober : h.tool? o.prober ≠ some .encoder) (hkeep : o.overwrite = false)
    (hdry : o.dryRun = false) (base : Path) (steps : List Step) (r : Renderer) :
    Spares h o base steps r (run (Renderer.backend h o) base steps r).state.files ∧
    (∀ path content, r.files.file? path = some content →
      (run (Renderer.backend h o) base steps r).state.files.file? path = some content) ∧
    ∀ before step after earlier d d', steps = before ++ step :: after → earlier ∈ before →
      earlier.operation = .deliver d → step.operation = .deliver d' →
      Location.ofPath (base.join d.destination) = Location.ofPath (base.join d'.destination) →
      (∃ e, (run (Renderer.backend h o) base steps r).outcome = .error e) ∧
      ∀ q, (runSteps (Renderer.backend h o) base before .start r).outcome = .ok q → ∃ e,
        (step.run (Renderer.backend h o) base q
          (runSteps (Renderer.backend h o) base before .start r).state).outcome = .error e := by
  have hspares := spares_runSteps hprober hkeep hdry base steps r
  refine ⟨hspares, fun path content => hspares.kept.file?, ?_⟩
  rintro before step after earlier d d' rfl hearlier hd hd' hplace
  have hfails (q : Progress Clip)
      (hq : (runSteps (Renderer.backend h o) base before .start r).outcome = .ok q) :
      ∃ e, (step.run (Renderer.backend h o) base q
        (runSteps (Renderer.backend h o) base before .start r).state).outcome = .error e :=
    exists_error_of_carriesOut hprober hkeep hdry (carriesOut_of_mem hq hearlier hd) hd' hplace q
  refine ⟨?_, hfails⟩
  cases hbefore : (runSteps (Renderer.backend h o) base before .start r).outcome with
  | error e => exact ⟨e, map_eq_error.2 (by rw [runSteps_append_of_error hbefore, hbefore])⟩
  | ok q =>
    obtain ⟨e, he⟩ := hfails q hbefore
    refine ⟨e, map_eq_error.2 ?_⟩
    rw [runSteps_append_of_ok hbefore, runSteps_cons_of_error he]
    exact he

/-- A script that delivers the same clip to two names of one file. -/
def twice : List Step :=
  [⟨1, .define ⟨"talk", .video, ⟨"talk.mp4"⟩, true, some 4, none⟩⟩,
    ⟨7, .deliver ⟨"talk", ⟨"out/cut.mp4"⟩, 25, "libx264", "medium", none, []⟩⟩,
    ⟨13, .deliver ⟨"talk", ⟨"out/../out/cut.mp4"⟩, 25, "libx264", "medium", none, []⟩⟩]

/-- The first delivery is carried out and its directory is made, the second one fails, and the film
is still there. -/
theorem spares_of_run_twice :
    (∃ e, (run (Renderer.backend .standard ⟨"ffmpeg", "ffprobe", false, false⟩) ⟨"/films"⟩ twice
      ⟨archive, []⟩).outcome = .error e) ∧
    (run (Renderer.backend .standard ⟨"ffmpeg", "ffprobe", false, false⟩) ⟨"/films"⟩ twice
      ⟨archive, []⟩).state.files.file? ⟨"/films/talk.mp4"⟩ = archive.file? ⟨"/films/talk.mp4"⟩ ∧
    (run (Renderer.backend .standard ⟨"ffmpeg", "ffprobe", false, false⟩) ⟨"/films"⟩ twice
      ⟨archive, []⟩).state.files.file? ⟨"/films/out/cut.mp4"⟩ = some Tool.encodedContent := by
  have hprober : Host.standard.tool? "ffprobe" ≠ some .encoder := by decide
  obtain ⟨-, hfound, hfails⟩ :=
    spares_of_run (o := ⟨"ffmpeg", "ffprobe", false, false⟩) hprober rfl rfl ⟨"/films"⟩ twice
      ⟨archive, []⟩
  have hfilm : ∃ content, archive.file? ⟨"/films/talk.mp4"⟩ = some content :=
    Option.isSome_iff_exists.1 (by decide +kernel)
  obtain ⟨content, hcontent⟩ := hfilm
  refine ⟨?_, (hfound _ content hcontent).trans hcontent.symm, by decide +kernel⟩
  exact (hfails (twice.take 2) twice[2] [] twice[1] _ _ rfl (by simp [twice]) rfl rfl
    (by decide +kernel)).1

end Session

end Montage
