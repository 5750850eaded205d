import Montage.Proofs.Session.Check

/-!
# Resolving a script without running it

Which calls a script makes of the recorder can be told from its text.  `clip?` looks back from a
step for the latest step that binds a name, `call?` is the call that a step makes after given ones,
and neither keeps a table of names or a count of clips.  That it is the latest step, and with which
number, is said once more without a recursion (`Latest`).  `resolution_of_run` says that a run makes
exactly these calls.

Steps that lie behind are given in reverse, the latest one first, except in `Latest`.
-/

namespace Montage

/-! ### The resolution -/

/-- The delivery that an operation is, if it is one; all other operations make a clip. -/
def Operation.delivery? : Operation → Option Delivery
  | .deliver d => some d
  | _ => none

namespace Session

/-- The number of steps that make a clip. -/
def issued (past : List Step) : Nat := past.countP fun step => step.operation.delivery?.isNone

/-- A path of a script: an absolute path stays, a relative one is seen from the directory. -/
def resolved (base p : Path) : Path := if p.isAbsolute then p else base.join p

/-- The length of a definition: its own, or else that of the clip that it names, if any. -/
def length? (clip? : String → Option NumberedClip) (d : Definition) : Option (Option Seconds) :=
  match d.duration, d.durationFrom with
  | some n, _ => some (some (.ofNat n.toNat))
  | none, some name => (clip? name).map (·.duration)
  | none, none => some none

/-- How an operation makes a clip, where names stand for clips. -/
def recipe? (base : Path) (clip? : String → Option NumberedClip) :
    Operation → Option (Recipe NumberedClip)
  | .define d =>
    (length? clip? d).map fun length =>
      .source ⟨d.medium, resolved base d.source, length, d.hasAudio⟩
  | .effect input _ e => (clip? input).map fun c => .effect c e
  | .mix _ (.concatenate names) => (names.mapM clip?).map .concatenate
  | .mix _ (.composite names size) => (names.mapM clip?).map fun clips => .composite clips size
  | .mix _ (.setAudio picture sound) => do return .attachAudio (← clip? picture) (← clip? sound)
  | .subclip c => (clip? c.input).map fun clip => .extractRange clip c.start c.stop
  | .deliver _ => none

/-- The clip of a name: the latest step that binds the name has made it, and the number of the clip
is the number of clips made before. -/
def clip? (base : Path) : List Step → String → Option NumberedClip
  | [], _ => none
  | step :: past, name =>
    if step.operation.output? = some name then
      (recipe? base (clip? base past) step.operation).map fun recipe =>
        ⟨issued past, recipe.recordedDuration⟩
    else clip? base past name

/-- The clip has the number of the latest of the steps that binds the name: that of the clips made
before this step. -/
def Latest (steps : List Step) (name : String) (c : NumberedClip) : Prop :=
  ∃ earlier step later, steps = earlier ++ step :: later ∧ step.operation.output? = some name ∧
    (∀ other ∈ later, other.operation.output? ≠ some name) ∧ c.id = issued earlier

/-- The clip of a name comes from the latest step that binds it. -/
lemma latest_of_clip? {base : Path} {steps : List Step} {name : String} {c : NumberedClip}
    (h : clip? base steps.reverse name = some c) : Latest steps name c := by
  induction steps using List.reverseRecOn with
  | nil => cases h
  | append_singleton steps step ih =>
    rw [List.reverse_append, List.reverse_singleton, List.singleton_append, clip?] at h
    by_cases hname : step.operation.output? = some name
    · rw [if_pos hname] at h
      obtain ⟨recipe, -, rfl⟩ := Option.map_eq_some_iff.1 h
      exact ⟨steps, step, [], rfl, hname, by simp, List.countP_reverse⟩
    · rw [if_neg hname] at h
      obtain ⟨earlier, latest, later, rfl, hlatest, hlater, hid⟩ := ih h
      refine ⟨earlier, latest, later ++ [step], by simp, hlatest, ?_, hid⟩
      exact List.forall_mem_append.2 ⟨hlater, by simpa using hname⟩

/-- The call that a step makes after the steps that lie behind. -/
def call? (base : Path) (past : List Step) (step : Step) : Option RecordedCall :=
  match step.operation with
  | .deliver d =>
    (clip? base past d.input).map fun c =>
      .encoded c.id
        ⟨resolved base d.destination, d.fps, d.codec, d.preset, d.threads, d.params⟩
  | op =>
    (recipe? base (clip? base past) op).map fun recipe =>
      .made (issued past) (recipe.map (·.id))

/-- The deliveries of a script, in order. -/
def deliveries (steps : List Step) : List Delivery :=
  steps.filterMap fun step => step.operation.delivery?

/-- The calls are those of the steps, one for each, in order. -/
structure Traced (base : Path) (steps : List Step) (calls : List RecordedCall) : Prop where
  count : calls.length = steps.length
  each : ∀ before step after, steps = before ++ step :: after →
    ∃ call, call? base before.reverse step = some call ∧ calls[before.length]? = some call

/-- What the recorder has and what is reported is what the text of the script says.  Every name that
a step reads, and every name that is reported, stands for the clip of the latest step that binds
it. -/
structure Resolution (base : Path) (steps : List Step) (r : Recorder)
    (report : Report NumberedClip) : Prop where
  calls : Traced base steps r.calls
  inputs : ∀ before step after, steps = before ++ step :: after →
    ∀ name ∈ step.operation.inputs,
      ∃ c, clip? base before.reverse name = some c ∧ Latest before name c
  bindings : ∀ name, report.bindings.lookup? name = clip? base steps.reverse name
  latest : ∀ name c, report.bindings.lookup? name = some c → Latest steps name c
  exports : report.exports = (deliveries steps).map fun d => resolved base d.destination
  lastExport : report.lastExport = (deliveries steps).getLast?.map (·.input)
  stepsRun : report.stepsRun = steps.length

/-! ### One step -/

variable {base : Path} {find : String → Except Error NumberedClip}
  {clip : String → Option NumberedClip} {task : Task NumberedClip} {op : Operation}

/-- Resolving a path is joining it to the directory. -/
lemma resolved_eq_join (base p : Path) : resolved base p = base.join p := by
  unfold resolved Path.join
  split <;> rfl

/-- Clips that are found one by one are found together. -/
lemma mapM_of_forall₂ {names : List String} {clips : List NumberedClip}
    (h : List.Forall₂ (fun name c => clip name = some c) names clips) :
    names.mapM clip = some clips := by
  induction h with
  | nil => rfl
  | cons hname _ ih => simp [hname, ih]

/-- The recorder carries out the task by making the clip of the recipe. -/
def Makes (task : Task NumberedClip) (recipe : Recipe NumberedClip) : Prop :=
  ∀ r : Recorder,
    (task.perform (Recorder.backend none) r).outcome =
        .ok (.clip ⟨r.nextId, recipe.recordedDuration⟩) ∧
      (task.perform (Recorder.backend none) r).state =
        ⟨r.calls ++ [.made r.nextId (recipe.map (·.id))], r.nextId + 1⟩

/-- A recipe is made as it is. -/
lemma makes_make (recipe : Recipe NumberedClip) : Makes (.make recipe) recipe :=
  fun _ => ⟨rfl, rfl⟩

/-- A source that is to be as long as a clip is made with the length of the clip. -/
lemma makes_makeAsLongAs (model : NumberedClip) (source : Source) :
    Makes (.makeAsLongAs model source) (.source { source with duration := model.duration }) :=
  fun _ => ⟨rfl, rfl⟩

/-- The recorder makes a clip of a definition, of the length that the script says. -/
lemma exists_recipe_of_define {d : Definition}
    (hfind : ∀ name c, find name = .ok c → clip name = some c)
    (htask : d.task base find = .ok task) :
    ∃ recipe, recipe? base clip (.define d) = some recipe ∧ Makes task recipe := by
  unfold Definition.task Definition.toSource at htask
  rw [← resolved_eq_join] at htask
  cases hduration : d.duration with
  | some n =>
    simp only [hduration] at htask
    cases htask
    exact ⟨_, by simp only [recipe?, length?, hduration]; rfl, makes_make _⟩
  | none =>
    cases hmodel : d.durationFrom with
    | none =>
      simp only [hduration, hmodel] at htask
      cases htask
      exact ⟨_, by simp only [recipe?, length?, hduration, hmodel]; rfl, makes_make _⟩
    | some name =>
      simp only [hduration, hmodel] at htask
      obtain ⟨model, hfound, htask⟩ := bind_eq_ok.1 htask
      cases htask
      refine ⟨_, ?_, makes_makeAsLongAs model _⟩
      simp only [recipe?, length?, hduration, hmodel, hfind name model hfound]
      rfl

/-- A combination has the recipe that the script says. -/
lemma recipe?_mix {m : Mix} {recipe : Recipe NumberedClip} (output : String)
    (hfind : ∀ name c, find name = .ok c → clip name = some c)
    (hrecipe : m.recipe find = .ok recipe) : recipe? base clip (.mix output m) = some recipe := by
  have hall {names : List String} {clips : List NumberedClip}
      (hclips : names.mapM find = .ok clips) : names.mapM clip = some clips :=
    mapM_of_forall₂ ((mapM_eq_ok.1 hclips).imp hfind)
  cases m with
  | concatenate names =>
    obtain ⟨clips, hclips, hrecipe⟩ := bind_eq_ok.1 hrecipe
    cases hrecipe
    simp [recipe?, hall hclips]
  | composite names size =>
    obtain ⟨clips, hclips, hrecipe⟩ := bind_eq_ok.1 hrecipe
    cases hrecipe
    simp [recipe?, hall hclips]
  | setAudio picture sound =>
    obtain ⟨seen, hseen, hrecipe⟩ := bind_eq_ok.1 hrecipe
    obtain ⟨heard, hheard, hrecipe⟩ := bind_eq_ok.1 hrecipe
    cases hrecipe
    simp [recipe?, hfind _ _ hseen, hfind _ _ hheard]

/-- For an operation that makes a clip, the recorder makes the clip of the recipe. -/
lemma exists_recipe_of_task (hfind : ∀ name c, find name = .ok c → clip name = some c)
    (htask : op.task base find = .ok task) (hop : op.delivery? = none) :
    ∃ recipe, recipe? base clip op = some recipe ∧ Makes task recipe := by
  cases op with
  | define d => exact exists_recipe_of_define hfind htask
  | effect input output e =>
    obtain ⟨c, hc, htask⟩ := bind_eq_ok.1 htask
    cases htask
    exact ⟨.effect c e, by simp [recipe?, hfind input c hc], makes_make _⟩
  | mix output m =>
    obtain ⟨recipe, hrecipe, htask⟩ := bind_eq_ok.1 htask
    cases htask
    exact ⟨recipe, recipe?_mix output hfind hrecipe, makes_make _⟩
  | subclip s =>
    obtain ⟨c, hc, htask⟩ := bind_eq_ok.1 htask
    cases htask
    exact ⟨.extractRange c s.start s.stop, by simp [recipe?, hfind s.input c hc], makes_make _⟩
  | deliver d => cases hop

/-! ### A whole run -/

variable {steps : List Step} {step : Step} {p : Progress NumberedClip} {r : Recorder}

/-- A step at the end makes the call at the end. -/
lemma Traced.concat {calls : List RecordedCall} {call : RecordedCall}
    (h : Traced base steps calls) (hcall : call? base steps.reverse step = some call) :
    Traced base (steps ++ [step]) (calls ++ [call]) := by
  refine ⟨by simp [h.count], fun before other after heq => ?_⟩
  rcases split_concat heq with ⟨rfl, rfl⟩ | ⟨rest, hrest⟩
  · refine ⟨call, hcall, ?_⟩
    rw [← h.count, List.getElem?_concat_length]
  · obtain ⟨earlier, hearlier, hget⟩ := h.each before other rest hrest
    refine ⟨earlier, hearlier, ?_⟩
    obtain ⟨hlt, -⟩ := List.getElem?_eq_some_iff.1 hget
    rw [List.getElem?_append_left hlt, hget]

/-- After some steps, what has been brought about and what the recorder has is what the text of the
steps says. -/
structure Tracks (base : Path) (steps : List Step) (p : Progress NumberedClip) (r : Recorder) :
    Prop where
  calls : Traced base steps r.calls
  nextId : r.nextId = issued steps.reverse
  bindings : ∀ name, p.bindings.lookup? name = clip? base steps.reverse name
  exports : p.exports = (deliveries steps).map fun d => resolved base d.destination
  lastExport : p.lastExport = (deliveries steps).getLast?.map (·.input)

/-- Nothing has been brought about before the first step. -/
lemma tracks_start (base : Path) : Tracks base [] .start .empty where
  calls := ⟨rfl, by simp⟩
  nextId := rfl
  bindings := fun _ => rfl
  exports := rfl
  lastExport := rfl

/-- A step at the end is the last delivery, if it is one. -/
lemma deliveries_concat (steps : List Step) (step : Step) :
    deliveries (steps ++ [step]) = deliveries steps ++ step.operation.delivery?.toList := by
  unfold deliveries
  rw [List.filterMap_append]
  cases hstep : step.operation.delivery? <;> simp [hstep]

/-- A step that makes a clip keeps to the text. -/
lemma Tracks.make (h : Tracks base steps p r) {recipe : Recipe NumberedClip} {name : String}
    (hop : step.operation.delivery? = none) (hname : step.operation.output? = some name)
    (hrecipe : recipe? base (clip? base steps.reverse) step.operation = some recipe) :
    Tracks base (steps ++ [step])
      { p with bindings := p.bindings.bind name ⟨r.nextId, recipe.recordedDuration⟩ }
      ⟨r.calls ++ [.made r.nextId (recipe.map (·.id))], r.nextId + 1⟩ where
  calls := by
    refine h.calls.concat ?_
    unfold call?
    split
    · rename_i d hd
      rw [hd] at hop
      cases hop
    · rw [hrecipe, h.nextId]
      rfl
  nextId := by
    rw [List.reverse_append, h.nextId]
    simp [issued, hop]
  bindings := by
    intro other
    rw [Bindings.lookup?_bind, List.reverse_append, h.bindings other, h.nextId]
    simp only [List.reverse_singleton, List.singleton_append, clip?, hname, hrecipe,
      Option.map_some, Option.some.injEq, eq_comm]
  exports := by
    rw [deliveries_concat, hop, h.exports, Option.toList_none, List.append_nil]
  lastExport := by
    rw [deliveries_concat, hop, h.lastExport, Option.toList_none, List.append_nil]

/-- A step that writes a file keeps to the text. -/
lemma Tracks.deliver (h : Tracks base steps p r) {d : Delivery} {c : NumberedClip}
    (hop : step.operation = .deliver d) (hclip : clip? base steps.reverse d.input = some c) :
    Tracks base (steps ++ [step])
      { p with
        exports := p.exports ++ [(d.toEncoding base).destination]
        lastExport := some d.input }
      { r with calls := r.calls ++ [.encoded c.id (d.toEncoding base)] } where
  calls := by
    refine h.calls.concat ?_
    unfold call? Delivery.toEncoding
    simp only [hop, hclip, resolved_eq_join]
    rfl
  nextId := by
    rw [List.reverse_append, h.nextId]
    simp [issued, hop, Operation.delivery?]
  bindings := by
    intro name
    rw [List.reverse_append, h.bindings name]
    simp [clip?, hop, Operation.output?]
  exports := by
    rw [deliveries_concat, h.exports]
    simp [hop, Operation.delivery?, resolved_eq_join, Delivery.toEncoding]
  lastExport := by
    rw [deliveries_concat]
    simp [hop, Operation.delivery?]

/-- A step that reads bound names only succeeds against the recorder and keeps to the text. -/
lemma Tracks.run (h : Tracks base steps p r)
    (hbound : ∀ name ∈ step.operation.inputs, p.bindings.contains name = true) :
    ∃ p', (step.run (Recorder.backend none) base p r).outcome = .ok p' ∧
      Tracks base (steps ++ [step]) p' (step.run (Recorder.backend none) base p r).state := by
  obtain ⟨task, htask, hop⟩ := Step.exists_task base hbound
  have hfind : ∀ name c, p.bindings.get name step.operation.kind.token step.line = .ok c →
      clip? base steps.reverse name = some c := by
    intro name c hc
    rw [← h.bindings name]
    exact Bindings.get_eq_ok.1 hc
  rcases Operation.task_cases hop with ⟨name, hname, -⟩ | ⟨d, c, hd, hc, rfl⟩
  · have hclip : step.operation.delivery? = none := by
      cases hstep : step.operation with
      | deliver d =>
        rw [hstep] at hname
        cases hname
      | _ => rfl
    obtain ⟨recipe, hrecipe, hmakes⟩ := exists_recipe_of_task hfind hop hclip
    obtain ⟨hproduct, hstate⟩ := hmakes r
    obtain ⟨houtcome, hrun⟩ := Step.run_of_task_ok htask hproduct
    refine ⟨_, houtcome, ?_⟩
    rw [hrun, hstate]
    simpa only [Progress.record, hname] using h.make hclip hname hrecipe
  · obtain ⟨houtcome, hrun⟩ := Step.run_of_task_ok (B := Recorder.backend none) (s := r) htask rfl
    refine ⟨_, houtcome, ?_⟩
    rw [hrun]
    exact h.deliver hd (hfind _ _ hc)

/-- A run of a script that defines before use keeps to the text. -/
lemma tracks_runSteps (base : Path) (hsteps : DefinesBeforeUse steps) :
    ∃ p, (runSteps (Recorder.backend none) base steps .start .empty).outcome = .ok p ∧
      Tracks base steps p (runSteps (Recorder.backend none) base steps .start .empty).state := by
  induction steps using List.reverseRecOn with
  | nil => exact ⟨_, rfl, tracks_start base⟩
  | append_singleton steps step ih =>
    obtain ⟨hsteps, hstep⟩ := definesBeforeUse_concat.1 hsteps
    obtain ⟨p, hp, htracks⟩ := ih hsteps
    have hbound : ∀ name ∈ step.operation.inputs, p.bindings.contains name = true :=
      fun name hname => (contains_of_runSteps hp name).2 (hstep name hname)
    obtain ⟨houtcome, hstate⟩ := runSteps_concat_of_ok hp step
    rw [houtcome, hstate]
    exact htracks.run hbound

/-- In a script that defines before use, every name that a step reads has a clip. -/
lemma exists_clip?_of_definesBeforeUse (base : Path) {before after : List Step}
    (hsteps : DefinesBeforeUse (before ++ step :: after)) {name : String}
    (hname : name ∈ step.operation.inputs) :
    ∃ c, clip? base before.reverse name = some c := by
  have hbefore : DefinesBeforeUse before := fun earlier other later heq =>
    hsteps earlier other (later ++ step :: after) (by simp [heq])
  obtain ⟨p, hp, htracks⟩ := tracks_runSteps base hbefore
  have hbinds : Binds before name := hsteps before step after rfl name hname
  have hbound : p.bindings.contains name = true := (contains_of_runSteps hp name).2 hbinds
  obtain ⟨c, hc⟩ := Bindings.contains_iff.1 hbound
  exact ⟨c, (htracks.bindings name).symm.trans hc⟩

/-- A run of a script that defines before use, against a fresh recorder, succeeds; it makes the
calls, and ends in the report, that the text of the script says. -/
theorem resolution_of_run (base : Path) (hsteps : DefinesBeforeUse steps) :
    ∃ report, (run (Recorder.backend none) base steps .empty).outcome = .ok report ∧
      Resolution base steps (run (Recorder.backend none) base steps .empty).state report := by
  obtain ⟨p, hp, htracks⟩ := tracks_runSteps base hsteps
  refine ⟨⟨p.bindings, p.exports, p.lastExport, steps.length⟩, map_eq_ok.2 ⟨p, hp, rfl⟩, ?_⟩
  refine ⟨htracks.calls, ?_, htracks.bindings, ?_, htracks.exports, htracks.lastExport, rfl⟩
  · rintro before step after rfl name hname
    obtain ⟨c, hc⟩ := exists_clip?_of_definesBeforeUse base hsteps hname
    exact ⟨c, hc, latest_of_clip? hc⟩
  · intro name c hc
    exact latest_of_clip? ((htracks.bindings name).symm.trans hc)

/-- A clip is bound again to a part of itself, and then played twice. -/
def loop : List Step :=
  [⟨1, .define ⟨"talk", .video, ⟨"talk.mp4"⟩, true, some 4, none⟩⟩,
    ⟨5, .subclip ⟨"talk", ⟨0, 0, 1⟩, none, "talk"⟩⟩,
    ⟨9, .mix "loop" (.concatenate ["talk", "talk"])⟩,
    ⟨13, .deliver ⟨"loop", ⟨"loop.mp4"⟩, 25, "libx264", "medium", none, []⟩⟩]

/-- The text of that script says which calls it makes. -/
theorem resolution_of_loop : DefinesBeforeUse loop ∧
    ∃ report, (run (Recorder.backend none) ⟨"/films"⟩ loop .empty).outcome = .ok report ∧
      Resolution ⟨"/films"⟩ loop (run (Recorder.backend none) ⟨"/films"⟩ loop .empty).state
        report :=
  ⟨by decide, resolution_of_run ⟨"/films"⟩ (by decide)⟩

example :
    let talk : Step := ⟨1, .define ⟨"talk", .video, ⟨"talk.mp4"⟩, true, some 4, none⟩⟩
    let cut : Step := ⟨5, .subclip ⟨"talk", ⟨0, 0, 1⟩, none, "talk"⟩⟩
    call? ⟨"/films"⟩ [cut, talk] ⟨9, .mix "loop" (.concatenate ["talk", "talk"])⟩ =
      some (.made 2 (.concatenate [1, 1])) := by
  decide

end Session

end Montage
