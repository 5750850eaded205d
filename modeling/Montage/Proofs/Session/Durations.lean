import Montage.Proofs.Clip.Known
import Montage.Proofs.Session.Counterparts
import Montage.Proofs.Session.Origins
import Montage.Recorder

/-!
# What a check knows of lengths

The recorder keeps account of the lengths of its clips without seeing a file, and the renderer keeps
account of them in its own way: it asks the prober for what the script does not say, and a cut ends
where its clip ends.  So they need not agree on a length.  But whatever length the recorder knows,
the renderer knows too (`knows_of_check`).

Each way of making a clip keeps this so (`Renderer.isSome_duration_of_make`).  A length that was
taken over from another clip then reaches the next definition, so that a source of known length for
the recorder is one for the renderer.
-/

namespace Montage

variable {σ γ : Type} {B : Backend σ γ} {h : Host} {o : RenderOptions} {base : Path}
  {refused : Option Path} {k : Recorder} {r : Renderer} {step : Step} {steps : List Step}

/-! ### Making clips -/

/-- The length of the second clip is known when that of the first one is. -/
def Foreseen (n : NumberedClip) (c : Clip) : Prop :=
  n.duration.isSome = true → c.duration.isSome = true

/-- When all lengths of some recorded clips are known, so are those of their counterparts. -/
lemma forall_isSome_of_foreseen {ns : List NumberedClip} {cs : List Clip}
    (hclips : List.Forall₂ Foreseen ns cs)
    (hknown : ∀ x ∈ ns.map NumberedClip.duration, x.isSome = true) :
    ∀ x ∈ cs.map Clip.duration, x.isSome = true := by
  induction hclips with
  | nil => simp
  | cons hclip _ ih =>
    rw [List.map_cons, List.forall_mem_cons] at hknown ⊢
    exact ⟨hclip hknown.1, ih hknown.2⟩

namespace Renderer

variable {c c' : Clip}

/-- An effect keeps the length of a clip. -/
lemma duration_of_change {e : Effect} (hchange : change c e = .ok c') :
    c'.duration = c.duration := by
  cases e with
  | margin m =>
    obtain ⟨-, rfl⟩ := Clip.frame_eq_ok.1 hchange
    rfl
  | position x y =>
    obtain ⟨-, rfl⟩ := Clip.place_eq_ok.1 hchange
    rfl
  | resize height width =>
    obtain ⟨-, rfl⟩ := Clip.resize_eq_ok.1 hchange
    rfl

/-- A source of known length is opened as a clip of known length. -/
lemma isSome_duration_of_openSource {s : Source} (hc : (openSource h o s r).outcome = .ok c)
    (hknown : s.duration.isSome = true) : c.duration.isSome = true := by
  obtain ⟨x, hx⟩ := Option.isSome_iff_exists.1 hknown
  have hfirst (p : Probe) : (s.duration <|> p.duration).isSome = true := by
    rw [hx]
    rfl
  obtain ⟨content, -, hopen⟩ := openSource_eq_ok.1 hc
  rcases openFile_eq_ok.1 hopen with ⟨-, himage⟩ | ⟨p, -, ⟨-, hvideo⟩ | ⟨-, haudio⟩⟩
  · obtain ⟨size, duration, -, -, rfl⟩ := imageClip_eq_ok.1 himage
    rfl
  · obtain ⟨-, rfl⟩ := videoClip_eq_ok.1 hvideo
    exact hfirst p
  · obtain ⟨-, rfl⟩ := audioClip_eq_ok.1 haudio
    exact hfirst p

/-- A clip that is made of counterparts has a known length if the recorder knows one. -/
lemma isSome_duration_of_make {recipe : Recipe NumberedClip} {recipe' : Recipe Clip}
    (halike : recipe.Alike Foreseen recipe') (hc : (make h o recipe' r).outcome = .ok c)
    (hknown : recipe.recordedDuration.isSome = true) : c.duration.isSome = true := by
  cases halike with
  | source s => exact isSome_duration_of_openSource hc hknown
  | effect hinput e =>
    rw [duration_of_change (pureReply_eq_ok.1 hc)]
    exact hinput hknown
  | concatenate hclips =>
    obtain ⟨first, others, rfl, -, rfl⟩ := Clip.concatenate_eq_ok.1 (pureReply_eq_ok.1 hc)
    exact Seconds.isSome_sumKnown.2
      (forall_isSome_of_foreseen hclips (Seconds.isSome_sumKnown.1 hknown))
  | composite hlayers size =>
    obtain ⟨hsome, canvas, -, rfl⟩ := Clip.compose_eq_ok.1 (pureReply_eq_ok.1 hc)
    refine Seconds.isSome_maximumKnown.2 ⟨mt List.map_eq_nil_iff.1 hsome, ?_⟩
    exact forall_isSome_of_foreseen hlayers (Seconds.isSome_maximumKnown.1 hknown).2
  | attachAudio hpicture hsound =>
    obtain ⟨-, -, rfl⟩ := Clip.setAudio_eq_ok.1 (pureReply_eq_ok.1 hc)
    exact hpicture hknown
  | extractRange hinput start stop =>
    obtain ⟨-, -, rfl⟩ := Clip.cut_eq_ok.1 (pureReply_eq_ok.1 hc)
    refine Clip.isSome_trimmedDuration.2 ?_
    cases stop with
    | some stop => exact .inl rfl
    | none => exact .inr (hinput (by simpa [Recipe.recordedDuration] using hknown))

end Renderer

/-! ### Steps of both sessions -/

/-- The source that a call opens, if it is one that does. -/
def Exchange.source? : Exchange γ → Option Source
  | .made (.source s) _ => some s
  | _ => none

/-- The sources that calls open, in order. -/
def openedSources (trace : List (Exchange γ)) : List Source := trace.filterMap Exchange.source?

/-- What the two sessions have yielded are clips, the second one foreseen by the first one, or the
file of one delivery. -/
inductive Product.Foreseen : Product NumberedClip → Product Clip → Prop
  | clip {n : NumberedClip} {c : Clip} (hclip : Montage.Foreseen n c) : Foreseen (.clip n) (.clip c)
  | file (name : String) (path : Path) : Foreseen (.file name path) (.file name path)

/-- Whatever the first session has bound, the second one has bound to a clip that was foreseen. -/
def Progress.Foreseen (p : Progress NumberedClip) (q : Progress Clip) : Prop :=
  ∀ name n, p.bindings.lookup? name = some n →
    ∃ c, q.bindings.lookup? name = some c ∧ Montage.Foreseen n c

/-- The sources of the second list are of known length wherever those of the first one are. -/
def SourcesForeseen (ss ss' : List Source) : Prop :=
  List.Forall₂ (fun s s' => s.duration.isSome = true → s'.duration.isSome = true) ss ss'

/-- A recipe that corresponds to another opens the same source, if it opens one. -/
lemma Recipe.Alike.sourcesForeseen {δ : Type} {R : γ → δ → Prop} {recipe : Recipe γ}
    {recipe' : Recipe δ} (h : recipe.Alike R recipe') (x : Except Error γ) (x' : Except Error δ) :
    SourcesForeseen (openedSources [.made recipe x]) (openedSources [.made recipe' x']) := by
  cases h with
  | source s => exact .cons id .nil
  | _ => exact .nil

/-- Corresponding tasks that are carried out yield what was foreseen, and so are the sources that
they open. -/
lemma Task.foreseen_of_alike {task : Task NumberedClip} {task' : Task Clip}
    {product : Product NumberedClip} {product' : Product Clip}
    (halike : task.Alike id Foreseen task')
    (hok : (task.perform (Recorder.backend refused) k).outcome = .ok product)
    (hok' : (task'.perform (Renderer.backend h o) r).outcome = .ok product') :
    product.Foreseen product' ∧
      SourcesForeseen (openedSources (task.perform (Recorder.backend refused) k).trace)
        (openedSources (task'.perform (Renderer.backend h o) r).trace) := by
  cases halike with
  | make hrecipe =>
    cases hok
    obtain ⟨c, hc, rfl⟩ := map_eq_ok.1 hok'
    exact ⟨.clip (Renderer.isSome_duration_of_make hrecipe hc), hrecipe.sourcesForeseen _ _⟩
  | makeAsLongAs hmodel source =>
    cases hok
    obtain ⟨c, hc, rfl⟩ := map_eq_ok.1 hok'
    refine ⟨.clip fun hknown => Renderer.isSome_duration_of_openSource hc (hmodel hknown), ?_⟩
    exact .cons hmodel .nil
  | encode name hclip encoding =>
    obtain ⟨_, -, rfl⟩ := map_eq_ok.1 hok
    obtain ⟨_, -, rfl⟩ := map_eq_ok.1 hok'
    exact ⟨.file _ _, .nil⟩

/-- A definition that is carried out opens one source. -/
lemma Task.exists_source_of_define {d : Definition} {find : String → Except Error γ} {task : Task γ}
    {product : Product γ} {s : σ} (htask : (Operation.define d).task base find = .ok task)
    (hok : (task.perform B s).outcome = .ok product) :
    ∃ source, openedSources (task.perform B s).trace = [source] := by
  rcases Session.opensSource_of_define htask with rfl | ⟨model, rfl⟩
  · exact ⟨_, rfl⟩
  · unfold perform at hok ⊢
    dsimp only at hok ⊢
    split at hok
    · cases hok
    · exact ⟨_, rfl⟩

namespace Step

variable {p p' : Progress NumberedClip} {q q' : Progress Clip}

/-- A step that succeeds in both sessions keeps to what was foreseen, and so do the sources that it
opens. -/
lemma foreseen_run (hforeseen : p.Foreseen q)
    (hok : (step.run (Recorder.backend refused) base p k).outcome = .ok p')
    (hok' : (step.run (Renderer.backend h o) base q r).outcome = .ok q') :
    p'.Foreseen q' ∧
      SourcesForeseen (openedSources (step.run (Recorder.backend refused) base p k).trace)
        (openedSources (step.run (Renderer.backend h o) base q r).trace) := by
  obtain ⟨task, product, htask, hproduct, rfl⟩ := run_eq_ok.1 hok
  obtain ⟨task', product', htask', hproduct', rfl⟩ := run_eq_ok.1 hok'
  -- Both tasks come from one operation, so the second one is the counterpart of the first one.
  obtain ⟨other, hother, halike⟩ :=
    exists_task_rename (f := id) (fun name _ => hforeseen name) htask
  rw [rename_id] at hother
  cases htask'.symm.trans hother
  obtain ⟨hclip, hsources⟩ := Task.foreseen_of_alike halike hproduct hproduct'
  rw [trace_of_task htask, trace_of_task htask']
  refine ⟨?_, hsources⟩
  cases hclip with
  | file name path => exact hforeseen
  | clip hclip =>
    unfold Progress.record
    cases step.operation.output? with
    | none => exact hforeseen
    | some output =>
      intro name n hn
      simp only [Bindings.lookup?_bind] at hn ⊢
      by_cases hname : name = output
      · rw [if_pos hname] at hn ⊢
        cases hn
        exact ⟨_, rfl, hclip⟩
      · rw [if_neg hname] at hn ⊢
        exact hforeseen name n hn

/-- A definition that succeeds opens one source. -/
lemma exists_source_of_define {d : Definition} {p p' : Progress γ} {s : σ}
    (hd : step.operation = .define d) (hok : (step.run B base p s).outcome = .ok p') :
    ∃ source, openedSources (step.run B base p s).trace = [source] := by
  obtain ⟨task, product, htask, hproduct, -⟩ := run_eq_ok.1 hok
  obtain ⟨_, -, hop⟩ := bind_eq_ok.1 htask
  rw [hd] at hop
  rw [trace_of_task htask]
  exact Task.exists_source_of_define hop hproduct

end Step

/-! ### Runs of both sessions -/

namespace Session

/-- Steps that succeed in both sessions keep to what was foreseen. -/
lemma foreseen_runSteps {p : Progress NumberedClip} {q : Progress Clip}
    (hok : (runSteps (Recorder.backend refused) base steps .start k).outcome = .ok p)
    (hok' : (runSteps (Renderer.backend h o) base steps .start r).outcome = .ok q) :
    p.Foreseen q := by
  induction steps using List.reverseRecOn generalizing p q with
  | nil =>
    cases hok
    exact fun name n hn => nomatch hn
  | append_singleton steps step ih =>
    obtain ⟨m, hsteps, hstep⟩ := runSteps_concat_eq_ok.1 hok
    obtain ⟨m', hsteps', hstep'⟩ := runSteps_concat_eq_ok.1 hok'
    exact (Step.foreseen_run (ih hsteps hsteps') hstep hstep').1

/-- The steps before a step succeed, and then the step opens the source, and no other. -/
def OpensAt (B : Backend σ γ) (base : Path) (before : List Step) (step : Step) (s : σ)
    (source : Source) : Prop :=
  ∃ p, (runSteps B base before .start s).outcome = .ok p ∧
    openedSources (step.run B base p (runSteps B base before .start s).state).trace = [source]

/-- When both a check and a run of the renderer succeed, every name that is bound to a clip of known
length for the recorder is so for the renderer.  Each definition opens one source in both, and if
the length of the one is known, so is that of the other. -/
theorem knows_of_check {checked : Report NumberedClip} {report : Report Clip}
    (hcheck : (run (Recorder.backend refused) base steps k).outcome = .ok checked)
    (hrun : (run (Renderer.backend h o) base steps r).outcome = .ok report) :
    (∀ name n, checked.bindings.lookup? name = some n → n.duration.isSome = true →
      ∃ c, report.bindings.lookup? name = some c ∧ c.duration.isSome = true) ∧
    ∀ before step after d, steps = before ++ step :: after → step.operation = .define d →
      ∃ source source', OpensAt (Recorder.backend refused) base before step k source ∧
        OpensAt (Renderer.backend h o) base before step r source' ∧
        (source.duration.isSome = true → source'.duration.isSome = true) := by
  obtain ⟨p, hp, rfl⟩ := map_eq_ok.1 hcheck
  obtain ⟨q, hq, rfl⟩ := map_eq_ok.1 hrun
  refine ⟨fun name n hn hknown => ?_, fun before step after d heq hd => ?_⟩
  · obtain ⟨c, hc, hforeseen⟩ := foreseen_runSteps hp hq name n hn
    exact ⟨c, hc, hforeseen hknown⟩
  · rw [heq, List.append_cons] at hp hq
    obtain ⟨p', hstep, -⟩ := runSteps_append_eq_ok.1 hp
    obtain ⟨q', hstep', -⟩ := runSteps_append_eq_ok.1 hq
    obtain ⟨m, hbefore, hstep⟩ := runSteps_concat_eq_ok.1 hstep
    obtain ⟨m', hbefore', hstep'⟩ := runSteps_concat_eq_ok.1 hstep'
    obtain ⟨source, hsource⟩ := Step.exists_source_of_define hd hstep
    obtain ⟨source', hsource'⟩ := Step.exists_source_of_define hd hstep'
    obtain ⟨-, hsources⟩ := Step.foreseen_run (foreseen_runSteps hbefore hbefore') hstep hstep'
    rw [hsource, hsource', SourcesForeseen, List.forall₂_cons] at hsources
    exact ⟨source, source', ⟨m, hbefore, hsource⟩, ⟨m', hbefore', hsource'⟩, hsources.1⟩

/-- A voice that is to be as long as a film is opened with a length, by the renderer as well. -/
theorem knows_of_check_dub : ∃ c report,
    (run (Renderer.backend .standard rehearsal) ⟨"/films"⟩ dub ⟨archive, []⟩).outcome =
      .ok report ∧
    report.bindings.lookup? "voice" = some c ∧ c.duration.isSome = true ∧
    ∃ source source', OpensAt (Recorder.backend none) ⟨"/films"⟩ (dub.take 1)
        ⟨7, .define ⟨"voice", .audio, ⟨"talk.mp4"⟩, false, none, some "talk"⟩⟩ .empty source ∧
      OpensAt (Renderer.backend .standard rehearsal) ⟨"/films"⟩ (dub.take 1)
        ⟨7, .define ⟨"voice", .audio, ⟨"talk.mp4"⟩, false, none, some "talk"⟩⟩ ⟨archive, []⟩
        source' ∧
      (source.duration.isSome = true → source'.duration.isSome = true) := by
  have hcheck : ∃ x, ((run (Recorder.backend none) ⟨"/films"⟩ dub .empty).outcome.toOption.bind
      fun checked => (checked.bindings.lookup? "voice").bind (·.duration)) = some x :=
    Option.isSome_iff_exists.1 (by decide +kernel)
  have hrun : ∃ report, (run (Renderer.backend .standard rehearsal) ⟨"/films"⟩ dub
      ⟨archive, []⟩).outcome.toOption = some report :=
    Option.isSome_iff_exists.1 (by decide +kernel)
  obtain ⟨x, hx⟩ := hcheck
  obtain ⟨checked, hchecked, hlookup⟩ := Option.bind_eq_some_iff.1 hx
  obtain ⟨n, hn, hknown⟩ := Option.bind_eq_some_iff.1 hlookup
  obtain ⟨report, hreport⟩ := hrun
  obtain ⟨hclips, hsources⟩ :=
    knows_of_check (toOption_eq_some.1 hchecked) (toOption_eq_some.1 hreport)
  obtain ⟨c, hc, hlength⟩ := hclips "voice" n hn (Option.isSome_iff_exists.2 ⟨x, hknown⟩)
  exact ⟨c, report, toOption_eq_some.1 hreport, hc, hlength,
    hsources (dub.take 1) _ (dub.drop 2) _ rfl rfl⟩

end Session

end Montage
