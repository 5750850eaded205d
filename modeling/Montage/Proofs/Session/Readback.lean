import Montage.Proofs.Command.Display
import Montage.Proofs.Script.RoundTrip
import Montage.Proofs.Script.Texts
import Montage.Proofs.Session.Origins

/-!
# Commands that can be read back

The command of a delivery has arguments of four sorts: words that are always the same, numbers and
labels and the text of a graph, texts of the script, and paths of the script seen from a directory.
All of them can be shown, if only the directory has no quotes in its name (`showable_arguments`).
So what a session shows of its commands can be read back (`readback`).

That the text of the graph is not empty takes a look at the run.  A clip with a picture has a graph
with a chain only because the parts of a clip that is bound keep the traits that the clip records
(`holds_of_runSteps`).
-/

namespace Montage

open Command Filtergraph

variable {s : String} {base p : Path} {o : RenderOptions} {g : Filtergraph} {e : Encoding}

/-! ### Texts that can be shown -/

/-- A spelled text that is not empty can be shown. -/
lemma Spelled.showable (h : Spelled s) (hne : s ≠ "") : Showable s :=
  ⟨hne, h.notMem (by decide)⟩

/-- A path that can be shown can be shown as it is seen from a directory without quotes. -/
lemma showable_join (hbase : quote ∉ base.text.toList) (hp : Showable p.text) :
    Showable (base.join p).text := by
  unfold Path.join
  split
  · exact hp
  · split
    · exact ⟨by simp [hp.ne_empty], by simp [hbase, hp.unquoted]⟩
    · have hslash : quote ≠ '/' := by decide
      exact ⟨by simp, by simp [hbase, hp.unquoted, hslash]⟩

/-- A number can be shown. -/
lemma showable_toString (n : UInt32) : Showable (toString n) := by
  refine (spelled_toString_uInt32 n).showable fun hempty => ?_
  have hdigits : String.ofList (Nat.toDigits 10 n.toNat) = "" := by
    rw [← Nat.toString_eq_ofList_toDigits]
    exact hempty
  simp at hdigits

/-- A decimal is not empty. -/
lemma Seconds.Decimal.positional_ne_empty (d : Decimal) : d.positional "" ≠ "" := by
  unfold positional
  dsimp only
  split
  · simp
  · split
    · have hdigits : Nat.toDigits 10 d.digits ≠ [] := Nat.toDigits_ne_nil
      simp [hdigits]
    · simp

/-- A length can be shown. -/
lemma Seconds.showable_plain (s : Seconds) : Showable s.plain := by
  refine s.spelled_plain.showable ?_
  unfold plain
  split
  · decide
  · simp
  · simp
  · rename_i ticks _
    simp [(shortest ticks).positional_ne_empty]

namespace Filtergraph

/-- The text of a graph with chains can be shown. -/
lemma showable_text (h : g.chains ≠ []) : Showable g.text := by
  refine ⟨fun hempty => ?_, g.notMem_text (by decide) (by decide)⟩
  -- each chain has a label, and the text shows all labels
  have hlabels := inBrackets_text g
  obtain ⟨ch, chains, hchains⟩ := List.exists_cons_of_ne_nil h
  rw [hempty, hchains] at hlabels
  simp [inBrackets, Chain.labels] at hlabels

/-- A graph that shows a picture has a chain. -/
lemma chains_ne_nil_of_coherent {c : Clip} (hc : c.Coherent) (hpicture : c.hasPicture = true)
    (hg : ofClip c = .ok g) : g.chains ≠ [] := by
  have hshown := (tallies_of_coherent hc hg).picture
  obtain ⟨f, -, rfl⟩ := ofClip_eq_ok.1 hg
  rw [if_pos hpicture] at hshown
  cases hout : f.picture with
  | none =>
    rw [Fragment.close, hout] at hshown
    cases hshown
  | some label => simp [Fragment.close, Fragment.exits, hout]

/-- A label in brackets can be shown. -/
lemma Label.showable_bracketed (l : Label) : Showable l.bracketed :=
  ⟨by simp [bracketed], l.notMem_bracketed (by decide) (by decide) (by decide)⟩

/-! ### Arguments -/

/-- The options of an input can be shown. -/
lemma Input.showable_options (i : Input) : ∀ a ∈ i.options, Showable a := by
  unfold options
  refine List.forall_mem_append.2 ⟨?_, ?_⟩
  · split
    · decide
    · exact List.forall_mem_nil _
  · split
    · exact List.forall_mem_nil _
    · rename_i limit _
      exact List.forall_mem_cons.2 ⟨by decide,
        List.forall_mem_singleton.2 limit.showable_plain⟩

/-- The arguments for the inputs of a graph can be shown when the paths of the inputs can. -/
lemma showable_inputArguments (hinputs : ∀ i ∈ g.inputs, Showable i.path.text) :
    ∀ a ∈ g.inputArguments, Showable a := by
  unfold inputArguments
  rw [List.forall_mem_flatMap]
  exact fun i hi => List.forall_mem_append.2 ⟨i.showable_options, List.forall_mem_cons.2
    ⟨by decide, List.forall_mem_singleton.2 (hinputs i hi)⟩⟩

/-- The arguments for the streams that leave a graph can be shown. -/
lemma showable_outputArguments (g : Filtergraph) : ∀ a ∈ g.outputArguments, Showable a := by
  unfold outputArguments
  refine List.forall_mem_append.2 ⟨List.forall_mem_flatMap.2 fun l _ => ?_, ?_⟩
  · exact List.forall_mem_cons.2 ⟨by decide,
      List.forall_mem_singleton.2 l.showable_bracketed⟩
  · split
    · exact List.forall_mem_singleton.2 (by decide)
    · exact List.forall_mem_nil _

end Filtergraph

namespace Encoding

/-- The texts of an encoding can be shown. -/
structure Plain (e : Encoding) : Prop where
  destination : Showable e.destination.text
  codec : Showable e.codec
  preset : Showable e.preset
  params : ∀ a ∈ e.params, Showable a

/-- The arguments for the settings of an encoding can be shown. -/
lemma showable_settingArguments (h : e.Plain) : ∀ a ∈ e.settingArguments, Showable a := by
  unfold settingArguments
  simp only [List.forall_mem_append, List.forall_mem_cons]
  refine ⟨⟨⟨by decide, showable_toString e.fps, by decide, h.codec, by decide, h.preset,
    List.forall_mem_nil _⟩, ?threads⟩, h.params⟩
  case threads =>
    split
    · exact List.forall_mem_nil _
    · rename_i threads _
      exact List.forall_mem_cons.2 ⟨by decide,
        List.forall_mem_singleton.2 (showable_toString threads)⟩

/-- The arguments that encode a graph with chains can be shown when the paths of its inputs and the
texts of the encoding can. -/
lemma showable_arguments (hchains : g.chains ≠ []) (hinputs : ∀ i ∈ g.inputs, Showable i.path.text)
    (h : e.Plain) (o : RenderOptions) : ∀ a ∈ e.arguments o g, Showable a := by
  have hoverwrite : Showable (if o.overwrite then "-y" else "-n") := by
    split <;> decide
  unfold arguments
  simp only [List.forall_mem_append, List.forall_mem_cons]
  exact ⟨⟨⟨⟨⟨⟨by decide, by decide, by decide, hoverwrite, List.forall_mem_nil _⟩,
    showable_inputArguments hinputs⟩, by decide, showable_text hchains, List.forall_mem_nil _⟩,
    showable_outputArguments g⟩, showable_settingArguments h⟩, h.destination, List.forall_mem_nil _⟩

end Encoding

namespace Session

variable {h : Host} {op : Operation} {name : String} {find : String → Except Error Clip}
  {task : Task Clip} {r : Renderer} {q : Progress Clip} {c : Clip} {steps before : List Step}
  {files : FileTree} {d : Delivery} {command : Command} {text : String}

/-! ### The clips of a run -/

/-- What holds of all clips that are made of clips of which it holds, holds of the clip that an
operation makes of such clips. -/
lemma holds_of_perform {P : Clip → Prop}
    (hmake : ∀ recipe r c, (∀ d ∈ recipe.clips, P d) →
      (Renderer.make h o recipe r).outcome = .ok c → P c)
    (htask : op.task base find = .ok task) (hname : op.output? = some name)
    (hfind : ∀ input clip, find input = .ok clip → P clip)
    (hclip : (task.perform (Renderer.backend h o) r).outcome = .ok (.clip c)) : P c := by
  by_cases hdefine : ∃ d, op = .define d
  · obtain ⟨d, rfl⟩ := hdefine
    obtain ⟨length, hopen⟩ := exists_openSource_of_perform (opensSource_of_define htask) hclip
    exact hmake (.source { d.toSource base with duration := length }) r c (List.forall_mem_nil _)
      hopen
  · obtain ⟨clips, ⟨recipe, rfl, -, rfl⟩, hclips⟩ :=
      combines_of_task htask (not_exists.1 hdefine) hname
    obtain ⟨_, hmade, heq⟩ := map_eq_ok.1 hclip
    cases heq
    refine hmake recipe r c (fun d hd => ?_) hmade
    obtain ⟨input, -, hfound⟩ := exists_mem_of_forall₂ hclips hd
    exact hfind input d hfound

/-- What holds of all clips that are made of clips of which it holds, holds of all clips that are
bound in a run. -/
theorem holds_of_runSteps {P : Clip → Prop}
    (hmake : ∀ recipe r c, (∀ d ∈ recipe.clips, P d) →
      (Renderer.make h o recipe r).outcome = .ok c → P c)
    (hq : (runSteps (Renderer.backend h o) base steps .start r).outcome = .ok q)
    (hc : q.bindings.lookup? name = some c) : P c := by
  induction steps using List.reverseRecOn generalizing q name c with
  | nil =>
    cases hq
    cases hc
  | append_singleton steps step ih =>
    obtain ⟨q', hq', hstep⟩ := runSteps_concat_eq_ok.1 hq
    obtain ⟨task, product, htask, hproduct, rfl⟩ := Step.run_eq_ok.1 hstep
    obtain ⟨_, -, htask⟩ := bind_eq_ok.1 htask
    rcases Operation.task_cases htask with ⟨output, houtput, hshape⟩ | ⟨d, clip, -, -, rfl⟩
    · obtain ⟨made, rfl⟩ := Task.exists_clip hshape hproduct
      simp only [Progress.record, houtput, Bindings.lookup?_bind] at hc
      split at hc
      · cases hc
        exact holds_of_perform hmake htask houtput
          (fun input clip hclip => ih hq' (Bindings.get_eq_ok.1 hclip)) hproduct
      · exact ih hq' hc
    · obtain ⟨_, -, rfl⟩ := map_eq_ok.1 hproduct
      exact ih hq' hc

/-! ### The commands of a run -/

/-- The path of an input that a definition supplies can be shown when the source of the definition
can, unless the directory of the script has quotes in its name. -/
lemma showable_path_of_supplies {origin : Origin} {input : Filtergraph.Input}
    (hbase : quote ∉ base.text.toList) (hsource : Showable origin.definition.source.text)
    (hsupplies : origin.Supplies h o base files input) : Showable input.path.text := by
  rw [hsupplies.path]
  exact showable_join hbase hsource

/-- The arguments of a command that a script asks for can be shown, unless the directory of the
script has quotes in its name. -/
theorem showable_of_deliversAt (hread : (Script.read text).steps = .ok steps)
    (hbase : quote ∉ base.text.toList)
    (hdelivers : DeliversAt h o base steps .start ⟨files, []⟩ before d c command) :
    ∀ a ∈ command.arguments, Showable a := by
  have hspoken := Script.showable_of_read hread
  obtain ⟨⟨line, after, rfl⟩, ⟨q, hq, hc⟩, hcommand⟩ := hdelivers
  obtain ⟨hpicture, -, g, hg, rfl⟩ := Encoding.command_eq_ok.1 hcommand
  have hcoherent : c.Coherent := holds_of_runSteps
    (fun recipe r c hclips hmade => Renderer.coherent_of_make hclips hmade) hq hc
  have hinputs : ∀ i ∈ g.inputs, Showable i.path.text := by
    obtain ⟨used, hused, hdraws⟩ := exists_drawsOn (descends_runSteps hq hc) hg
    intro i hi
    obtain ⟨origin, horigin, hsupplies⟩ := exists_mem_of_forall₂ hdraws.inputs hi
    obtain ⟨later, line', hpast⟩ := exists_step_of_mem_origins (hused.subset horigin)
    have hstep : (⟨line', .define origin.definition⟩ : Step) ∈ before := by
      rw [← List.mem_reverse, hpast]
      exact List.mem_append_right _ List.mem_cons_self
    have hsource := hspoken _ (List.mem_append_left _ hstep) _ (List.mem_singleton.2 rfl)
    exact showable_path_of_supplies hbase hsource hsupplies
  have hdelivery : ∀ s ∈ (Operation.deliver d).spoken, Showable s :=
    hspoken _ (List.mem_append_right _ List.mem_cons_self)
  simp only [Operation.spoken, List.forall_mem_cons] at hdelivery
  obtain ⟨hdestination, hcodec, hpreset, hparams⟩ := hdelivery
  exact Encoding.showable_arguments (chains_ne_nil_of_coherent hcoherent hpicture hg) hinputs
    ⟨showable_join hbase hdestination, hcodec, hpreset, hparams⟩ o

/-- A command with legible words is read back from the line that shows it, and commands with legible
words that look the same are the same.  What a script asks for, whether it is carried out or not,
has arguments of this sort when the directory of the script has no quotes in its name. -/
theorem readback :
    (∀ c : Command, c.Legible → split c.display = c.program :: c.arguments) ∧
    (∀ c d : Command, c.Legible → d.Legible → c.display = d.display → c = d) ∧
    ∀ (h : Host) (o : RenderOptions) (base : Path) (files : FileTree) (text : String)
      (steps : List Step), (Script.read text).steps = .ok steps → quote ∉ base.text.toList →
      ∀ command : Command,
        (command ∈ (run (Renderer.backend h o) base steps ⟨files, []⟩).state.commands ∨
          ∃ before d c, DeliversAt h o base steps .start ⟨files, []⟩ before d c command) →
        ∀ a ∈ command.arguments, Showable a := by
  refine ⟨fun c hc => split_display hc, fun c d hc hd heq => eq_of_display_eq hc hd heq, ?_⟩
  rintro h o base files text steps hread hbase command (hleft | ⟨before, d, c, hdelivers⟩)
  · rcases deliversAt_of_command hleft with hnone | ⟨before, d, c, hdelivers⟩
    · cases hnone
    · exact showable_of_deliversAt hread hbase hdelivers
  · exact showable_of_deliversAt hread hbase hdelivers

/-- Operations that deliver a film under a name with a blank. -/
def premiere : List Operation :=
  [.define ⟨"talk", .video, ⟨"talk.mp4"⟩, false, none, none⟩,
    .deliver ⟨"talk", ⟨"final cut.mp4"⟩, 25, "libx264", "medium", none, []⟩]

/-- The command of a script that asks for them. -/
def premiereCommand : Command :=
  ⟨"ffmpeg", ["-hide_banner", "-loglevel", "error", "-n", "-i", "/films/talk.mp4",
    "-filter_complex", "[0:v:0]null[vout]", "-map", "[vout]", "-an", "-r", "25", "-c:v", "libx264",
    "-preset", "medium", "/films/final cut.mp4"]⟩

/-- The name is one word of the command that is read back. -/
theorem readback_of_premiere :
    (Script.read (Script.print premiere)).steps = .ok (Script.placed 1 premiere) ∧
    premiereCommand ∈ (run (Renderer.backend .standard rehearsal) ⟨"/films"⟩
      (Script.placed 1 premiere) ⟨archive, []⟩).state.commands ∧
    split premiereCommand.display = premiereCommand.program :: premiereCommand.arguments := by
  have hexpressible : ∀ op ∈ premiere, op.Expressible :=
    List.forall_mem_cons.2 ⟨by decide +kernel, List.forall_mem_singleton.2 (by decide +kernel)⟩
  have hread : (Script.read (Script.print premiere)).steps = .ok (Script.placed 1 premiere) := by
    unfold Script.read Block.ofText
    rw [Script.ofText_print hexpressible]
    exact Script.readBlocks_lines hexpressible 1
  have hcommand : premiereCommand ∈ (run (Renderer.backend .standard rehearsal) ⟨"/films"⟩
      (Script.placed 1 premiere) ⟨archive, []⟩).state.commands := by
    decide +kernel
  obtain ⟨hsplit, -, hshowable⟩ := readback
  have harguments : ∀ a ∈ premiereCommand.arguments, Showable a :=
    hshowable .standard rehearsal ⟨"/films"⟩ archive (Script.print premiere)
      (Script.placed 1 premiere) hread (by decide) premiereCommand (.inl hcommand)
  have hcompact : (premiereCommand.program.toList.all fun ch => !Text.isBlank ch) = true := by
    decide +kernel
  have hlegible : premiereCommand.Legible :=
    ⟨by decide, fun ch hch => by simpa using List.all_eq_true.1 hcompact ch hch, harguments⟩
  exact ⟨hread, hcommand, hsplit _ hlegible⟩

end Session

end Montage
