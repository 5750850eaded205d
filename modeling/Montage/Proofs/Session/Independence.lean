import Montage.Proofs.Renderer.Files
import Montage.Proofs.Session.Counterparts
import Montage.Proofs.Session.Origins
import Montage.Proofs.Session.Outline

/-!
# Independent steps

Two steps are independent when neither reads what the other one binds, they do not bind the same
name, and not both of them write a file.  A dry run may take such steps in either order
(`run_swap`): what it has brought about after both is the same, and so are the commands that it has
put together.

What a step yields in a dry run depends on little.  It reads the clips of its inputs and the files,
which stay as they are as long as all goes well (`Step.exists_yields`); and a clip is a value that
keeps nothing of the names that it was made under, so that binding a name again does not reach it.
-/

namespace Montage

variable {h : Host} {o : RenderOptions} {base : Path} {r r' : Renderer}

/-! ### Calls that succeed in a dry run -/

namespace Renderer

/-- A call that makes a clip reads nothing of the state but the files, and leaves the state as it
is. -/
lemma make_of_ok {recipe : Recipe Clip} {c : Clip} (hc : (make h o recipe r).outcome = .ok c)
    (hfiles : r'.files = r.files) :
    (make h o recipe r').outcome = .ok c ∧ (make h o recipe r').state = r' := by
  cases recipe with
  | source s =>
    obtain ⟨content, hcontent, hopen⟩ := openSource_eq_ok.1 hc
    have hc' : (openSource h o s r').outcome = .ok c :=
      openSource_eq_ok.2 ⟨content, hfiles ▸ hcontent, hfiles ▸ hopen⟩
    exact ⟨hc', state_openSource_of_ok hc'⟩
  | effect input e => exact ⟨hc, rfl⟩
  | concatenate clips => exact ⟨hc, rfl⟩
  | composite layers size => exact ⟨hc, rfl⟩
  | attachAudio picture sound => exact ⟨hc, rfl⟩
  | extractRange input start stop => exact ⟨hc, rfl⟩

/-- In a dry run, a call that encodes a clip reads nothing of the state, and adds one command to
it. -/
lemma encode_of_dryRun (hdry : o.dryRun = true) {c : Clip} {e : Encoding}
    (hok : (encode h o c e r).outcome = .ok ()) : ∃ command, ∀ r' : Renderer,
      (encode h o c e r').outcome = .ok () ∧
        (encode h o c e r').state = { r' with commands := r'.commands ++ [command] } := by
  unfold encode at hok ⊢
  cases hcommand : e.command o c with
  | error fault =>
    rw [hcommand] at hok
    cases hok
  | ok command => exact ⟨command, fun r' => by simp [hdry]⟩

end Renderer

/-! ### Tasks and steps -/

open Renderer

/-- What a task yields in a dry run depends on the files only.  It leaves them as they are, and adds
commands if it writes a file. -/
lemma Task.perform_of_dryRun (hdry : o.dryRun = true) {task : Task Clip} {product : Product Clip}
    (hok : (task.perform (backend h o) r).outcome = .ok product) :
    ∃ added : List Command, ((∃ c, product = .clip c) → added = []) ∧
      ∀ r' : Renderer, r'.files = r.files →
        (task.perform (backend h o) r').outcome = .ok product ∧
          (task.perform (backend h o) r').state =
            { r' with commands := r'.commands ++ added } := by
  have hmade {recipe : Recipe Clip} {c : Clip}
      (hc : (Renderer.make h o recipe r).outcome = .ok c) (r' : Renderer)
      (hfiles : r'.files = r.files) :
      ((Renderer.make h o recipe r').outcome.map Product.clip) = .ok (.clip c) ∧
        (Renderer.make h o recipe r').state = { r' with commands := r'.commands ++ [] } := by
    obtain ⟨hc', hstate⟩ := make_of_ok hc hfiles
    exact ⟨map_eq_ok.2 ⟨c, hc', rfl⟩, by rw [hstate, List.append_nil]⟩
  cases task with
  | make recipe =>
    obtain ⟨c, hc, rfl⟩ := map_eq_ok.1 hok
    exact ⟨[], fun _ => rfl, hmade hc⟩
  | makeAsLongAs model source =>
    obtain ⟨c, hc, rfl⟩ := map_eq_ok.1 hok
    exact ⟨[], fun _ => rfl, hmade hc⟩
  | encode name clip encoding =>
    obtain ⟨_, hdone, rfl⟩ := map_eq_ok.1 hok
    obtain ⟨command, hcommand⟩ := encode_of_dryRun hdry hdone
    refine ⟨[command], fun ⟨c, hc⟩ => (nomatch hc), fun r' _ => ?_⟩
    exact ⟨map_eq_ok.2 ⟨(), (hcommand r').1, rfl⟩, (hcommand r').2⟩

/-- In a dry run, wherever the files are as given and the inputs are bound as given, the step yields
the product and adds the commands. -/
def Step.Yields (h : Host) (o : RenderOptions) (base : Path) (step : Step) (bs : Bindings Clip)
    (files : FileTree) (product : Product Clip) (added : List Command) : Prop :=
  ∀ (p : Progress Clip) (r : Renderer), r.files = files →
    (∀ name ∈ step.operation.inputs, p.bindings.lookup? name = bs.lookup? name) →
    (step.run (backend h o) base p r).outcome = .ok (p.record step.operation product).1 ∧
      (step.run (backend h o) base p r).state = { r with commands := r.commands ++ added }

/-- A step that succeeds in a dry run yields the same wherever its inputs and the files are the
same.  Unless it is a delivery, it yields a clip and adds no command. -/
lemma Step.exists_yields (hdry : o.dryRun = true) {step : Step} {p q : Progress Clip}
    (hok : (step.run (backend h o) base p r).outcome = .ok q) :
    ∃ product added, step.Yields h o base p.bindings r.files product added ∧
      (step.operation.delivery? = none → added = [] ∧ ∃ c, product = .clip c) := by
  obtain ⟨task, product, htask, hproduct, -⟩ := run_eq_ok.1 hok
  obtain ⟨added, hclip, hperform⟩ := Task.perform_of_dryRun hdry hproduct
  refine ⟨product, added, fun p' r' hfiles hinputs => ?_, fun hmakes => ?_⟩
  · obtain ⟨hproduct', hstate⟩ := hperform r' hfiles
    have hrun := run_of_task_ok (task_eq_ok_of_lookup? hinputs htask) hproduct'
    rwa [hstate] at hrun
  · obtain ⟨_, -, hop⟩ := bind_eq_ok.1 htask
    rcases Operation.task_cases hop with ⟨name, -, hkind⟩ | ⟨d, clip, hd, -, -⟩
    · have hc := Task.exists_clip hkind hproduct
      exact ⟨hclip hc, hc⟩
    · rw [hd] at hmakes
      cases hmakes

namespace Progress

variable {γ : Type} {p : Progress γ} {op op' : Operation} {product product' : Product γ}

/-- Taking note of what an operation has yielded keeps the clips of all names but its output. -/
lemma lookup?_record {name : String} (hname : op.output? ≠ some name) :
    (p.record op product).1.bindings.lookup? name = p.bindings.lookup? name := by
  cases product with
  | file _ path => rfl
  | clip c =>
    unfold record
    cases houtput : op.output? with
    | none => rfl
    | some output =>
      have hne : name ≠ output := fun heq => hname (heq ▸ houtput)
      exact (Bindings.lookup?_bind p.bindings output c name).trans (if_neg hne)

/-- What two operations have yielded can be noted in either order, unless both bind one name or both
write a file. -/
lemma record_comm (houtputs : ∀ name, op.output? = some name → op'.output? ≠ some name)
    (hclip : (∃ c, product = .clip c) ∨ ∃ c, product' = .clip c) :
    ((p.record op product).1.record op' product').1 =
      ((p.record op' product').1.record op product).1 := by
  cases product with
  | file name path =>
    cases product' with
    | file name' path' =>
      rcases hclip with ⟨_, hc⟩ | ⟨_, hc⟩
      · cases hc
      · cases hc
    | clip c' =>
      unfold record
      cases op'.output? <;> rfl
  | clip c =>
    cases product' with
    | file name' path' =>
      unfold record
      cases op.output? <;> rfl
    | clip c' =>
      unfold record
      cases houtput : op.output? with
      | none => cases op'.output? <;> rfl
      | some name =>
        cases houtput' : op'.output? with
        | none => rfl
        | some name' =>
          have hne : name ≠ name' := fun heq => houtputs name houtput (heq ▸ houtput')
          exact congrArg (fun bs => { p with bindings := bs })
            (Bindings.bind_comm p.bindings hne c c')

end Progress

namespace Session

/-- Two steps are independent when neither reads the output of the other one, their outputs differ,
and not both of them are deliveries. -/
structure Independent (s t : Step) : Prop where
  deliveries : s.operation.delivery? = none ∨ t.operation.delivery? = none
  forth : ∀ name, s.operation.output? = some name → name ∉ t.operation.inputs
  back : ∀ name, t.operation.output? = some name → name ∉ s.operation.inputs
  outputs : ∀ name, s.operation.output? = some name → t.operation.output? ≠ some name

variable {s t : Step}

/-- Two steps that succeed one after the other bring about what the second one does where the first
one ends. -/
lemma runSteps_pair {m : Progress Clip} {p : Progress Clip}
    (hs : (s.run (backend h o) base p r).outcome = .ok m) :
    (runSteps (backend h o) base [s, t] p r).outcome =
        (t.run (backend h o) base m (s.run (backend h o) base p r).state).outcome ∧
      (runSteps (backend h o) base [s, t] p r).state =
        (t.run (backend h o) base m (s.run (backend h o) base p r).state).state := by
  rw [← runSteps_singleton s] at hs ⊢
  exact runSteps_concat_of_ok hs t

/-- Two independent steps bring about the same in either order. -/
lemma runSteps_swap (hdry : o.dryRun = true) (hst : Independent s t) {p q : Progress Clip}
    (hok : (runSteps (backend h o) base [s, t] p r).outcome = .ok q) :
    (runSteps (backend h o) base [t, s] p r).outcome = .ok q ∧
      (runSteps (backend h o) base [t, s] p r).state =
        (runSteps (backend h o) base [s, t] p r).state := by
  have hpair : (runSteps (backend h o) base ([s] ++ [t]) p r).outcome = .ok q := hok
  obtain ⟨m, hs, ht⟩ := runSteps_concat_eq_ok.1 hpair
  rw [runSteps_singleton] at hs ht
  obtain ⟨product, added, hyields, hclip⟩ := Step.exists_yields hdry hs
  obtain ⟨hsok, hsstate⟩ := hyields p r rfl fun _ _ => rfl
  cases hs.symm.trans hsok
  obtain ⟨product', added', hyields', hclip'⟩ := Step.exists_yields hdry ht
  obtain ⟨htok, htstate⟩ := hyields' _ _ rfl fun _ _ => rfl
  cases ht.symm.trans htok
  -- The second step reads nothing of what the first one has brought about, and so can come first.
  have hforth : ∀ name ∈ t.operation.inputs, p.bindings.lookup? name =
      (p.record s.operation product).1.bindings.lookup? name := fun name hname =>
    (Progress.lookup?_record fun houtput => hst.forth name houtput hname).symm
  obtain ⟨htok', htstate'⟩ := hyields' p r (by rw [hsstate]) hforth
  have hback : ∀ name ∈ s.operation.inputs,
      (p.record t.operation product').1.bindings.lookup? name = p.bindings.lookup? name :=
    fun name hname => Progress.lookup?_record fun houtput => hst.back name houtput hname
  obtain ⟨hsok', hsstate'⟩ :=
    hyields _ (t.run (backend h o) base p r).state (by rw [htstate']) hback
  have hproducts : (∃ c, product = .clip c) ∨ ∃ c, product' = .clip c :=
    hst.deliveries.imp (fun hd => (hclip hd).2) fun hd => (hclip' hd).2
  have hcommands : added' ++ added = added ++ added' := by
    rcases hst.deliveries with hd | hd
    · rw [(hclip hd).1, List.nil_append, List.append_nil]
    · rw [(hclip' hd).1, List.nil_append, List.append_nil]
  obtain ⟨hout, hstate⟩ := runSteps_pair (t := t) hsok
  obtain ⟨hout', hstate'⟩ := runSteps_pair (t := s) htok'
  refine ⟨?_, ?_⟩
  · rw [hout', hsok', Progress.record_comm hst.outputs hproducts]
  · rw [hstate', hsstate', hstate, htstate, htstate', hsstate]
    simp only [List.append_assoc, hcommands]

/-- Two independent steps bring about the same in either order, whatever comes after them. -/
lemma runSteps_swap_append (hdry : o.dryRun = true) (hst : Independent s t) {after : List Step}
    {p q : Progress Clip}
    (hok : (runSteps (backend h o) base ([s, t] ++ after) p r).outcome = .ok q) :
    (runSteps (backend h o) base ([t, s] ++ after) p r).outcome = .ok q ∧
      (runSteps (backend h o) base ([t, s] ++ after) p r).state =
        (runSteps (backend h o) base ([s, t] ++ after) p r).state := by
  obtain ⟨m, hpair, hafter⟩ := runSteps_append_eq_ok.1 hok
  obtain ⟨hpair', hstate⟩ := runSteps_swap hdry hst hpair
  rw [runSteps_append_of_ok hpair', runSteps_append_of_ok hpair, hstate]
  exact ⟨hafter, rfl⟩

/-- A dry run that succeeds may take two independent steps in the other order: it succeeds then,
reports the same, and puts the same commands together. -/
theorem run_swap (hdry : o.dryRun = true) (hst : Independent s t) {before after : List Step}
    {report : Report Clip}
    (hrun : (run (backend h o) base (before ++ [s, t] ++ after) r).outcome = .ok report) :
    (run (backend h o) base (before ++ [t, s] ++ after) r).outcome = .ok report ∧
      (run (backend h o) base (before ++ [t, s] ++ after) r).state =
        (run (backend h o) base (before ++ [s, t] ++ after) r).state := by
  unfold run at hrun ⊢
  rw [List.append_assoc] at hrun
  rw [List.append_assoc, List.append_assoc]
  obtain ⟨p, hp, rfl⟩ := map_eq_ok.1 hrun
  obtain ⟨q, hbefore, hrest⟩ := runSteps_append_eq_ok.1 hp
  obtain ⟨hrest', hstate⟩ := runSteps_swap_append hdry hst hrest
  rw [runSteps_append_of_ok hbefore, runSteps_append_of_ok hbefore]
  refine ⟨map_eq_ok.2 ⟨p, hrest', ?_⟩, hstate⟩
  simp only [List.length_append, List.length_cons, List.length_nil]

/-- A part of a film is made before or after the film itself is delivered. -/
theorem run_swap_opening :
    let film : Step := ⟨1, .define ⟨"talk", .video, ⟨"talk.mp4"⟩, true, some 4, none⟩⟩
    let whole : Step := ⟨7, .deliver ⟨"talk", ⟨"talk.mkv"⟩, 25, "libx264", "medium", none, []⟩⟩
    let cut : Step := ⟨13, .subclip ⟨"talk", ⟨0, 0, 0⟩, some ⟨0, 0, 1⟩, "opening"⟩⟩
    let part : Step :=
      ⟨18, .deliver ⟨"opening", ⟨"opening.mkv"⟩, 25, "libx264", "medium", none, []⟩⟩
    ∃ report, (run (backend .standard rehearsal) ⟨"/films"⟩ ([film] ++ [whole, cut] ++ [part])
        ⟨archive, []⟩).outcome = .ok report ∧
      (run (backend .standard rehearsal) ⟨"/films"⟩ ([film] ++ [cut, whole] ++ [part])
        ⟨archive, []⟩).outcome = .ok report ∧
      (run (backend .standard rehearsal) ⟨"/films"⟩ ([film] ++ [cut, whole] ++ [part])
        ⟨archive, []⟩).state =
        (run (backend .standard rehearsal) ⟨"/films"⟩ ([film] ++ [whole, cut] ++ [part])
          ⟨archive, []⟩).state := by
  intro film whole cut part
  have hindependent : Independent whole cut := ⟨.inr rfl, by decide, by decide, by decide⟩
  have hrun : ∃ report, (run (backend .standard rehearsal) ⟨"/films"⟩
      ([film] ++ [whole, cut] ++ [part]) ⟨archive, []⟩).outcome.toOption = some report :=
    Option.isSome_iff_exists.1 (by decide +kernel)
  obtain ⟨report, hreport⟩ := hrun
  exact ⟨report, toOption_eq_some.1 hreport,
    run_swap rfl hindependent (toOption_eq_some.1 hreport)⟩

end Session

end Montage
