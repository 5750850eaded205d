import Mathlib.Data.List.Induction
import Montage.Proofs.Clip.Leaves
import Montage.Proofs.Filtergraph.Pads
import Montage.Proofs.Renderer.Command
import Montage.Proofs.Renderer.History

/-!
# Where the streams of a command come from

Every clip of a session goes back to definitions of the script.  `origins` finds these in the text:
it looks back from a step for the latest step that binds a name, and goes on with the names that
this one reads, down to definitions.  A run keeps to the text: the leaves of a clip that is bound to
a name are what the origins of the name have opened, one by one and in the same order
(`descends_runSteps`).

So each input of a command belongs to a definition, and the graph reads a stream of it only if the
definition asks for this stream and the file has it (`drawsOn_of_command`).
-/

namespace Montage

/-- A sublist of a list is related to a sublist of any list that the whole list is related to. -/
lemma exists_sublist_of_forall₂ {α β : Type} {R : α → β → Prop} {xs : List α} {ys ys' : List β}
    (h : List.Forall₂ R xs ys) (hsub : ys'.Sublist ys) :
    ∃ xs' : List α, xs'.Sublist xs ∧ List.Forall₂ R xs' ys' := by
  induction hsub generalizing xs with
  | slnil => exact ⟨[], List.nil_sublist _, .nil⟩
  | cons y _ ih =>
    cases h with
    | cons _ htail =>
      obtain ⟨xs', hsub, hxs'⟩ := ih htail
      exact ⟨xs', hsub.cons _, hxs'⟩
  | cons_cons y _ ih =>
    cases h with
    | cons hhead htail =>
      obtain ⟨xs', hsub, hxs'⟩ := ih htail
      exact ⟨_ :: xs', hsub.cons_cons _, .cons hhead hxs'⟩

/-- An entry of a list is related to an entry of any list that the whole list is related to. -/
lemma exists_mem_of_forall₂ {α β : Type} {R : α → β → Prop} {xs : List α} {ys : List β} {y : β}
    (h : List.Forall₂ R xs ys) (hy : y ∈ ys) : ∃ x ∈ xs, R x y := by
  obtain ⟨xs', hsub, hxs'⟩ := exists_sublist_of_forall₂ h (List.singleton_sublist.2 hy)
  obtain ⟨x, rest, hx, -, rfl⟩ := List.forall₂_cons_right_iff.1 hxs'
  exact ⟨x, hsub.subset List.mem_cons_self, hx⟩

namespace Session

/-! ### The definitions behind a name -/

/-- A definition of a script with the steps before it, the latest one first. -/
structure Origin where
  past : List Step
  definition : Definition

/-- The definitions that the clip of a name goes back to, in the order in which the clip is made of
them.  The steps that lie behind are given in reverse, the latest one first. -/
def origins : List Step → String → List Origin
  | [], _ => []
  | step :: past, name =>
    if step.operation.output? = some name then
      match step.operation with
      | .define d => [⟨past, d⟩]
      | op => op.inputs.flatMap (origins past)
    else origins past name

section Text

variable {past : List Step} {step : Step} {name : String} {origin : Origin}

/-- Looking back, a definition is where a name that it binds comes from. -/
lemma origins_of_define {d : Definition} (hd : step.operation = .define d)
    (hname : step.operation.output? = some name) : origins (step :: past) name = [⟨past, d⟩] := by
  rw [origins, if_pos hname, hd]

/-- Looking back, another step refers to the names that it reads. -/
lemma origins_of_ne_define (hd : ∀ d, step.operation ≠ .define d)
    (hname : step.operation.output? = some name) :
    origins (step :: past) name = step.operation.inputs.flatMap (origins past) := by
  rw [origins, if_pos hname]
  split
  · exact absurd ‹_› (hd _)
  · rfl

/-- Looking back, a step that does not bind a name is passed over. -/
lemma origins_of_ne_output (hname : step.operation.output? ≠ some name) :
    origins (step :: past) name = origins past name := by
  rw [origins, if_neg hname]

/-- An origin is a step of the script, after the steps that it says. -/
theorem exists_step_of_mem_origins (h : origin ∈ origins past name) :
    ∃ later line, past = later ++ ⟨line, .define origin.definition⟩ :: origin.past := by
  induction past generalizing name with
  | nil => cases h
  | cons step past ih =>
    have hlater {name' : String} (h : origin ∈ origins past name') : ∃ later line,
        step :: past = later ++ ⟨line, .define origin.definition⟩ :: origin.past := by
      obtain ⟨later, line, hpast⟩ := ih h
      exact ⟨step :: later, line, by rw [hpast, List.cons_append]⟩
    obtain ⟨line, op⟩ := step
    rw [origins] at h
    split at h
    · split at h
      · rename_i d hd
        cases List.mem_singleton.1 h
        cases hd
        exact ⟨[], line, rfl⟩
      · obtain ⟨input, -, hinput⟩ := List.mem_flatMap.1 h
        exact hlater hinput
    · exact hlater h

example :
    let talk : Definition := ⟨"talk", .video, ⟨"talk.mp4"⟩, false, some 4, none⟩
    let voice : Definition := ⟨"voice", .audio, ⟨"talk.mp4"⟩, false, none, some "talk"⟩
    let dub : Step := ⟨13, .mix "talk" (.setAudio "talk" "voice")⟩
    origins [dub, ⟨7, .define voice⟩, ⟨1, .define talk⟩] "talk" =
      [⟨[], talk⟩, ⟨[⟨1, .define talk⟩], voice⟩] := by
  rfl

end Text

namespace Origin

variable (h : Host) (o : RenderOptions) (base : Path) (files : FileTree) (origin : Origin)

/-- The renderer when a run comes to the definition. -/
def renderer : Renderer :=
  (runSteps (Renderer.backend h o) base origin.past.reverse .start ⟨files, []⟩).state

/-- The source of the definition. -/
def source : Source := origin.definition.toSource base

/-- What the definition opens, at whatever length, is the leaf. -/
def Opens (l : Leaf) : Prop :=
  ∃ length, (Renderer.openSource h o { origin.source base with duration := length }
    (origin.renderer h o base files)).outcome = .ok l.clip

/-- The source of the definition can be seen. -/
def CanBeSeen : Prop :=
  Renderer.CanBeSeen h o (origin.renderer h o base files).files (origin.source base)

/-- The source of the definition can be heard. -/
def CanBeHeard : Prop :=
  Renderer.CanBeHeard h o (origin.renderer h o base files).files (origin.source base)

end Origin

/-! ### What an operation asks for -/

section Tasks

variable {γ : Type} {base : Path} {name : String} {op : Operation}
  {find : String → Except Error γ} {task : Task γ}

/-- The task is one that opens a source, at some length. -/
def OpensSource (task : Task γ) (s : Source) : Prop :=
  task = .make (.source s) ∨ ∃ model, task = .makeAsLongAs model s

/-- The task is one that makes a clip of others. -/
def Combines (task : Task γ) (clips : List γ) : Prop :=
  ∃ recipe : Recipe γ, task = .make recipe ∧ (∀ s, recipe ≠ .source s) ∧ recipe.clips = clips

/-- A definition opens its source. -/
lemma opensSource_of_define {d : Definition} (htask : d.task base find = .ok task) :
    OpensSource task (d.toSource base) := by
  unfold Definition.task at htask
  split at htask
  · obtain ⟨model, -, hmodel⟩ := bind_eq_ok.1 htask
    exact .inr ⟨model, pure_eq_ok.1 hmodel⟩
  · cases htask
    exact .inl rfl

/-- A combination is made of the clips of the names that it reads. -/
lemma clips_of_mix {m : Mix} {recipe : Recipe γ} (hrecipe : m.recipe find = .ok recipe) :
    (∀ s, recipe ≠ .source s) ∧
      List.Forall₂ (fun name c => find name = .ok c) m.inputs recipe.clips := by
  cases m with
  | concatenate names =>
    obtain ⟨clips, hclips, hpure⟩ := bind_eq_ok.1 hrecipe
    cases hpure
    exact ⟨nofun, mapM_eq_ok.1 hclips⟩
  | composite names size =>
    obtain ⟨clips, hclips, hpure⟩ := bind_eq_ok.1 hrecipe
    cases hpure
    exact ⟨nofun, mapM_eq_ok.1 hclips⟩
  | setAudio picture sound =>
    obtain ⟨seen, hseen, hrest⟩ := bind_eq_ok.1 hrecipe
    obtain ⟨heard, hheard, hpure⟩ := bind_eq_ok.1 hrest
    cases hpure
    exact ⟨nofun, .cons hseen (.cons hheard .nil)⟩

/-- An operation that is no definition and makes a clip makes it of the clips of the names that it
reads. -/
lemma combines_of_task (htask : op.task base find = .ok task) (hd : ∀ d, op ≠ .define d)
    (hname : op.output? = some name) :
    ∃ clips, Combines task clips ∧
      List.Forall₂ (fun name c => find name = .ok c) op.inputs clips := by
  cases op with
  | define d => exact absurd rfl (hd d)
  | effect input output e =>
    obtain ⟨clip, hclip, hpure⟩ := bind_eq_ok.1 htask
    cases hpure
    exact ⟨[clip], ⟨_, rfl, nofun, rfl⟩, .cons hclip .nil⟩
  | mix output m =>
    obtain ⟨recipe, hrecipe, hpure⟩ := bind_eq_ok.1 htask
    cases hpure
    obtain ⟨hsource, hclips⟩ := clips_of_mix hrecipe
    exact ⟨recipe.clips, ⟨recipe, rfl, hsource, rfl⟩, hclips⟩
  | subclip s =>
    obtain ⟨clip, hclip, hpure⟩ := bind_eq_ok.1 htask
    cases hpure
    exact ⟨[clip], ⟨_, rfl, nofun, rfl⟩, .cons hclip .nil⟩
  | deliver d => cases hname

end Tasks

/-! ### A run keeps to the text -/

variable {h : Host} {o : RenderOptions} {base : Path} {files : FileTree} {steps : List Step}
  {step : Step} {name : String} {find : String → Except Error Clip} {task : Task Clip}
  {p : Progress Clip} {r : Renderer} {c : Clip}

/-- The renderer carries out a task that opens a source by opening it. -/
lemma exists_openSource_of_perform {s : Source} (htask : OpensSource task s)
    (hclip : (task.perform (Renderer.backend h o) r).outcome = .ok (.clip c)) :
    ∃ length, (Renderer.openSource h o { s with duration := length } r).outcome = .ok c := by
  rcases htask with rfl | ⟨model, rfl⟩
  · obtain ⟨_, hopen, hc⟩ := map_eq_ok.1 hclip
    cases hc
    exact ⟨s.duration, hopen⟩
  · obtain ⟨_, hopen, hc⟩ := map_eq_ok.1 hclip
    cases hc
    exact ⟨model.duration, hopen⟩

/-- The renderer carries out a task that combines clips by making a clip with their leaves. -/
lemma leaves_of_perform {clips : List Clip} (htask : Combines task clips)
    (hclip : (task.perform (Renderer.backend h o) r).outcome = .ok (.clip c)) :
    c.leaves = clips.flatMap Clip.leaves := by
  obtain ⟨recipe, rfl, hsource, rfl⟩ := htask
  obtain ⟨_, hmade, hc⟩ := map_eq_ok.1 hclip
  cases hc
  exact Renderer.leaves_of_make hsource hmade

/-- The leaves of a clip are what some definitions have opened, one by one. -/
def Descends (h : Host) (o : RenderOptions) (base : Path) (files : FileTree)
    (defined : List Origin) (c : Clip) : Prop :=
  List.Forall₂ (fun origin l => origin.Opens h o base files l) defined c.leaves

/-- A step that makes a clip of clips that keep to the text makes one that does so too. -/
lemma descends_of_perform (hname : step.operation.output? = some name)
    (htask : step.operation.task base find = .ok task)
    (hfind : ∀ input clip, find input = .ok clip →
      Descends h o base files (origins steps.reverse input) clip)
    (hclip : (task.perform (Renderer.backend h o)
      (runSteps (Renderer.backend h o) base steps .start ⟨files, []⟩).state).outcome =
        .ok (.clip c)) :
    Descends h o base files (origins (step :: steps.reverse) name) c := by
  by_cases hdefine : ∃ d, step.operation = .define d
  · obtain ⟨d, hd⟩ := hdefine
    rw [hd] at htask
    obtain ⟨length, hopen⟩ := exists_openSource_of_perform (opensSource_of_define htask) hclip
    obtain ⟨l, rfl, -⟩ := Renderer.exists_leaf_of_openSource hopen
    rw [origins_of_define hd hname]
    refine .cons ⟨length, ?_⟩ .nil
    rw [Origin.renderer, List.reverse_reverse]
    exact hopen
  · have hd : ∀ d, step.operation ≠ .define d := not_exists.1 hdefine
    obtain ⟨clips, hcombines, hclips⟩ := combines_of_task htask hd hname
    rw [origins_of_ne_define hd hname]
    unfold Descends
    rw [leaves_of_perform hcombines hclip]
    exact List.rel_flatMap (hclips.imp hfind) fun _ _ hleaves => hleaves

/-- The clip that a name is bound to after some steps goes back to the definitions that the text of
the steps says. -/
theorem descends_runSteps
    (hp : (runSteps (Renderer.backend h o) base steps .start ⟨files, []⟩).outcome = .ok p)
    (hc : p.bindings.lookup? name = some c) :
    Descends h o base files (origins steps.reverse name) c := by
  induction steps using List.reverseRecOn generalizing p name c with
  | nil =>
    cases hp
    cases hc
  | append_singleton steps step ih =>
    obtain ⟨q, hq, hstep⟩ := runSteps_concat_eq_ok.1 hp
    obtain ⟨task, product, htask, hproduct, rfl⟩ := Step.run_eq_ok.1 hstep
    obtain ⟨_, -, htask⟩ := bind_eq_ok.1 htask
    rw [List.reverse_concat]
    rcases Operation.task_cases htask with ⟨output, houtput, hshape⟩ | ⟨d, clip, hd, -, rfl⟩
    · obtain ⟨made, rfl⟩ := Task.exists_clip hshape hproduct
      simp only [Progress.record, houtput, Bindings.lookup?_bind] at hc
      split at hc
      · rename_i heq
        cases hc
        rw [← heq] at houtput
        exact descends_of_perform houtput htask
          (fun input clip hclip => ih hq (Bindings.get_eq_ok.1 hclip)) hproduct
      · rename_i hne
        rw [origins_of_ne_output fun hsome => hne (Option.some.inj (houtput.symm.trans hsome)).symm]
        exact ih hq hc
    · obtain ⟨_, -, rfl⟩ := map_eq_ok.1 hproduct
      have hnone : step.operation.output? = none := congrArg Operation.output? hd
      rw [origins_of_ne_output (hnone ▸ (Option.some_ne_none name).symm)]
      exact ih hq hc

/-! ### The streams of a command -/

/-- A leaf that a definition has opened is what it has opened of its source. -/
lemma Origin.Opens.depicts {origin : Origin} {l : Leaf} (hopens : origin.Opens h o base files l) :
    Renderer.Depicts h o (origin.renderer h o base files).files (origin.source base) l := by
  obtain ⟨length, hopen⟩ := hopens
  obtain ⟨l', hclip, hdepicts⟩ := Renderer.exists_leaf_of_openSource hopen
  rw [Leaf.clip_injective hclip]
  -- the length of a source decides nothing about its streams
  exact ⟨hdepicts.medium, hdepicts.path, hdepicts.seen, hdepicts.heard⟩

/-- The input is what the definition has opened. -/
def Origin.Supplies (h : Host) (o : RenderOptions) (base : Path) (files : FileTree)
    (origin : Origin) (input : Filtergraph.Input) : Prop :=
  ∃ l, origin.Opens h o base files l ∧ input = l.input

/-- An input is the file that its definition names. -/
theorem Origin.Supplies.path {origin : Origin} {input : Filtergraph.Input}
    (hsupplies : origin.Supplies h o base files input) :
    input.path = base.join origin.definition.source := by
  obtain ⟨l, hopens, rfl⟩ := hsupplies
  exact hopens.depicts.path

/-- Definitions have opened the inputs of a graph, each of them one, and the streams that the text
of the graph names are streams that they ask for and that their files have. -/
structure DrawsOn (h : Host) (o : RenderOptions) (base : Path) (files : FileTree)
    (defined : List Origin) (g : Filtergraph) : Prop where
  inputs : List.Forall₂ (fun origin input => origin.Supplies h o base files input) defined g.inputs
  /-- Pictures come from pictures, and from videos with a video stream. -/
  seen : ∀ i : Nat, ("[" ++ toString i ++ ":v:0]").toList <:+: g.text.toList →
    ∃ origin, defined[i]? = some origin ∧ origin.CanBeSeen h o base files
  /-- Sounds come from files with an audio stream, declared as sounds or as videos with sound. -/
  heard : ∀ i : Nat, ("[" ++ toString i ++ ":a:0]").toList <:+: g.text.toList →
    ∃ origin, defined[i]? = some origin ∧ origin.CanBeHeard h o base files
  /-- The sound of a video that is declared without sound is left alone. -/
  muted : ∀ (i : Nat) (origin : Origin), defined[i]? = some origin →
    origin.definition.medium = .video → origin.definition.hasAudio = false →
    ¬ ("[" ++ toString i ++ ":a:0]").toList <:+: g.text.toList

/-- The graph of a clip that goes back to definitions draws on some of these. -/
lemma exists_drawsOn {defined : List Origin} {g : Filtergraph}
    (hdescends : Descends h o base files defined c) (hg : Filtergraph.ofClip c = .ok g) :
    ∃ used : List Origin, used.Sublist defined ∧ DrawsOn h o base files used g := by
  obtain ⟨ls, hls, hinputs, hpads⟩ := Filtergraph.exists_leaves_of_ofClip hg
  obtain ⟨used, hused, hopens⟩ := exists_sublist_of_forall₂ hdescends hls
  -- the stream of an input is one that the leaf of its definition has
  have hstream (i : Nat) (stream : Stream)
      (hpad : (Filtergraph.Label.pad i stream).bracketed.toList <:+: g.text.toList) :
      ∃ origin l, used[i]? = some origin ∧ origin.Opens h o base files l ∧ l.Has stream := by
    obtain ⟨l, hl, hhas⟩ := hpads i stream hpad
    obtain ⟨hlt, rfl⟩ := List.getElem?_eq_some_iff.1 hl
    have hlength : i < used.length := hopens.length_eq ▸ hlt
    have horigin : used[i]? = some used[i] := List.getElem?_eq_getElem hlength
    exact ⟨used[i], ls[i], horigin, hopens.get hlength hlt, hhas⟩
  have hheard (i : Nat) (hpad : ("[" ++ toString i ++ ":a:0]").toList <:+: g.text.toList) :
      ∃ origin, used[i]? = some origin ∧ origin.CanBeHeard h o base files := by
    rw [← Filtergraph.bracketed_pad i .sound] at hpad
    obtain ⟨origin, l, horigin, hl, hhas⟩ := hstream i .sound hpad
    exact ⟨origin, horigin, hl.depicts.heard hhas⟩
  refine ⟨used, hused, ?_, fun i hpad => ?_, hheard, ?_⟩
  · rw [hinputs, List.forall₂_map_right_iff]
    exact hopens.imp fun origin l hl => ⟨l, hl, rfl⟩
  · rw [← Filtergraph.bracketed_pad i .picture] at hpad
    obtain ⟨origin, l, horigin, hl, hhas⟩ := hstream i .picture hpad
    exact ⟨origin, horigin, hl.depicts.seen hhas⟩
  · intro i origin horigin hvideo hsilent hpad
    obtain ⟨origin', horigin', ⟨haudio | ⟨-, hkept⟩, -⟩⟩ := hheard i hpad
    · cases horigin.symm.trans horigin'
      cases hvideo.symm.trans haudio
    · cases horigin.symm.trans horigin'
      cases hsilent.symm.trans hkept

/-- A command that a run leaves behind encodes a clip for a delivery of the script.  The inputs of
its graph have been opened by definitions that the clip goes back to, and the graph reads no stream
that the file of such a definition lacks or that the definition leaves out. -/
theorem drawsOn_of_command {command : Command}
    (hcommand : command ∈ (run (Renderer.backend h o) base steps ⟨files, []⟩).state.commands) :
    ∃ before d c g, DeliversAt h o base steps .start ⟨files, []⟩ before d c command ∧
      Filtergraph.ofClip c = .ok g ∧ command = ⟨o.encoder, (d.toEncoding base).arguments o g⟩ ∧
      ∃ used : List Origin, used.Sublist (origins before.reverse d.input) ∧
        DrawsOn h o base files used g := by
  rcases deliversAt_of_command hcommand with hnone | ⟨before, d, c, hdelivers⟩
  · cases hnone
  · obtain ⟨q, hbefore, hc⟩ := hdelivers.clip
    obtain ⟨-, -, g, hg, hcommand⟩ := Encoding.command_eq_ok.1 hdelivers.command
    have hdescends : Descends h o base files (origins before.reverse d.input) c :=
      descends_runSteps hbefore hc
    exact ⟨before, d, c, g, hdelivers, hg, hcommand, exists_drawsOn hdescends hg⟩

/-- A tree with one film, which has a picture and sound. -/
def archive : FileTree :=
  let streams := "[\x7b\"codec_type\": \"video\"\x7d, \x7b\"codec_type\": \"audio\"\x7d]"
  FileTree.empty.place ⟨"/films/talk.mp4"⟩
    (.file (.media ("\x7b\"streams\": " ++ streams ++ "\x7d") 0 ""))

/-- Commands are only put together. -/
def rehearsal : RenderOptions := ⟨"ffmpeg", "ffprobe", false, true⟩

/-- A film that is declared without sound gets its own sound from elsewhere. -/
def dub : List Step :=
  [⟨1, .define ⟨"talk", .video, ⟨"talk.mp4"⟩, false, some 4, none⟩⟩,
    ⟨7, .define ⟨"voice", .audio, ⟨"talk.mp4"⟩, false, none, some "talk"⟩⟩,
    ⟨13, .mix "talk" (.setAudio "talk" "voice")⟩,
    ⟨18, .deliver ⟨"talk", ⟨"dub.mp4"⟩, 25, "libx264", "medium", none, []⟩⟩]

/-- The command of that script. -/
def dubbing : Command :=
  ⟨"ffmpeg", ["-hide_banner", "-loglevel", "error", "-n", "-t", "4", "-i", "/films/talk.mp4",
    "-t", "4", "-i", "/films/talk.mp4", "-filter_complex",
    "[1:a:0]atrim=end=4[a0];[0:v:0]null[vout];[a0]anull[aout]", "-map", "[vout]", "-map", "[aout]",
    "-r", "25", "-c:v", "libx264", "-preset", "medium", "/films/dub.mp4"]⟩

/-- It reads the picture of the first definition and the sound of the second one. -/
theorem drawsOn_of_dubbing :
    dubbing ∈ (run (Renderer.backend .standard rehearsal) ⟨"/films"⟩ dub
      ⟨archive, []⟩).state.commands ∧
    ∃ before d c g,
      DeliversAt .standard rehearsal ⟨"/films"⟩ dub .start ⟨archive, []⟩ before d c dubbing ∧
      Filtergraph.ofClip c = .ok g ∧
      dubbing = ⟨"ffmpeg", (d.toEncoding ⟨"/films"⟩).arguments rehearsal g⟩ ∧
      ∃ used : List Origin, used.Sublist (origins before.reverse d.input) ∧
        DrawsOn .standard rehearsal ⟨"/films"⟩ archive used g := by
  have hcommand : dubbing ∈ (run (Renderer.backend .standard rehearsal) ⟨"/films"⟩ dub
      ⟨archive, []⟩).state.commands := by
    decide +kernel
  exact ⟨hcommand, drawsOn_of_command hcommand⟩

end Session

end Montage
