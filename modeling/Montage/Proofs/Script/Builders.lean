import Montage.Proofs.Script.Assignment
import Montage.Proofs.Script.Takes
import Montage.Script.Build

/-!
# Building operations from their fields

`Operation.StatedBy` says how the fields of an operation are the values of the keys of its block, or
the defaults.  The builder of a kind makes exactly the operations that are stated in this way, and
takes exactly the keys of the kind (`takes_builder`).

In particular an operation is built from the table of its fields (`statedBy_of_have`).
-/

namespace Montage

/-! ### Attributes from a table -/

namespace Attributes

variable {as : Attributes}

/-- The attributes have the fields of a table. -/
def Have (as : Attributes) (fields : List (String × Option Value)) : Prop :=
  ∀ f ∈ fields, as.value? f.1 = f.2

/-- Attributes that assign the values of a table, whose keys are different, have its fields. -/
theorem have_of_entries {fields : List (String × Option Value)}
    (hnodup : (fields.map Prod.fst).Nodup)
    (h : as.entries.map (fun a => (a.key, a.value)) =
      fields.filterMap fun f => f.2.map fun v => (f.1, v)) : as.Have fields := by
  have hentry : ∀ f ∈ fields, ∀ a ∈ as.entries, a.key = f.1 → some a.value = f.2 := by
    intro f hf a ha hkey
    have hmem : (a.key, a.value) ∈ fields.filterMap fun f => f.2.map fun v => (f.1, v) :=
      h ▸ List.mem_map_of_mem ha
    obtain ⟨g, hg, hvalue⟩ := List.mem_filterMap.1 hmem
    obtain ⟨v, hv, heq⟩ := Option.map_eq_some_iff.1 hvalue
    obtain ⟨hgkey, rfl⟩ := Prod.mk.inj heq
    have hsame : g = f := List.inj_on_of_nodup_map hnodup hg hf (hgkey.trans hkey)
    rw [← hsame, hv]
  intro f hf
  unfold value?
  cases hfind : as.find? f.1 with
  | some a =>
    have hkey : a.key = f.1 := by simpa using List.find?_some hfind
    have hmem : a ∈ as.entries := List.mem_reverse.1 (List.mem_of_find?_eq_some hfind)
    exact hentry f hf a hmem hkey
  | none =>
    cases hvalue : f.2 with
    | none => rfl
    | some v =>
      have hmem : (f.1, v) ∈ as.entries.map fun a => (a.key, a.value) := by
        rw [h]
        exact List.mem_filterMap.2 ⟨f, hf, by rw [hvalue]; rfl⟩
      obtain ⟨a, ha, heq⟩ := List.mem_map.1 hmem
      have hkey : a.key = f.1 := congrArg Prod.fst heq
      have habsent := List.find?_eq_none.1 hfind a (List.mem_reverse.2 ha)
      simp [hkey] at habsent

end Attributes

open Builder

namespace Operation

/-! ### The fields of operations -/

/-- The operation is what a block of the kind stands for when `v` gives the values of its keys: each
field is the value of its key, or the default. -/
inductive StatedBy (v : String → Option Value) : Kind → Operation → Prop
  | define {name source : String} {medium : Medium} {hasAudio : Option Bool}
      {duration : Option UInt64} {durationFrom : Option String}
      (hname : v "name" = some (.text name)) (htype : v "type" = some (.text medium.token))
      (hsource : v "source" = some (.text source)) (hsound : v "hasaudio" = hasAudio.map .flag)
      (hduration : v "duration" = duration.map .count)
      (hfrom : v "duration_from" = durationFrom.map .text) :
      StatedBy v .define (.define
        ⟨name, medium, ⟨source⟩, hasAudio.getD false, duration, durationFrom⟩)
  | resize {input output : String} {height width : Option UInt32}
      (hinput : v "clip" = some (.text input)) (houtput : v "out" = some (.text output))
      (hheight : v "height" = height.map fun n => .count n.toUInt64)
      (hwidth : v "width" = width.map fun n => .count n.toUInt64) :
      StatedBy v .resize (.effect input output (.resize height width))
  | position {input output : String} {x y : Option UInt32}
      (hinput : v "clip" = some (.text input)) (houtput : v "out" = some (.text output))
      (hx : v "x" = x.map fun n => .count n.toUInt64)
      (hy : v "y" = y.map fun n => .count n.toUInt64) :
      StatedBy v .position (.effect input output (.position x y))
  | margin {input output : String} {size opacity : Option UInt32} {red green blue : Option UInt8}
      (hinput : v "clip" = some (.text input)) (houtput : v "out" = some (.text output))
      (hsize : v "size" = size.map fun n => .count n.toUInt64)
      (hopacity : v "opacity" = opacity.map fun n => .count n.toUInt64)
      (hred : v "red" = red.map fun n => .count n.toUInt64)
      (hgreen : v "green" = green.map fun n => .count n.toUInt64)
      (hblue : v "blue" = blue.map fun n => .count n.toUInt64) :
      StatedBy v .margin (.effect input output (.margin ⟨size, opacity, red, green, blue⟩))
  | concatenate {output clips : String} (houtput : v "out" = some (.text output))
      (hclips : v "clips" = some (.text clips)) :
      StatedBy v .concatenate (.mix output (.concatenate (Text.wordsOf clips)))
  | compose {output clips : String} {size : Option Canvas}
      (houtput : v "out" = some (.text output)) (hclips : v "clips" = some (.text clips))
      (hwidth : v "width" = size.map fun c => .count c.width.toUInt64)
      (hheight : v "height" = size.map fun c => .count c.height.toUInt64) :
      StatedBy v .compose (.mix output (.composite (Text.wordsOf clips) size))
  | setAudio {output picture sound : String} (houtput : v "out" = some (.text output))
      (hpicture : v "clip" = some (.text picture)) (hsound : v "audio" = some (.text sound)) :
      StatedBy v .setAudio (.mix output (.setAudio picture sound))
  | subclip {input output : String} {start : Timestamp} {stop : Option Timestamp}
      (hinput : v "clip" = some (.text input)) (hstart : v "start" = some (.time start))
      (hstop : v "end" = stop.map .time) (houtput : v "out" = some (.text output)) :
      StatedBy v .subclip (.subclip ⟨input, start, stop, output⟩)
  | deliver {input destination codec : String} {fps : UInt32} {preset params : Option String}
      {threads : Option UInt32}
      (hinput : v "clip" = some (.text input)) (hdestination : v "out" = some (.text destination))
      (hfps : v "fps" = some (.count fps.toUInt64)) (hcodec : v "codec" = some (.text codec))
      (hpreset : v "preset" = preset.map .text)
      (hthreads : v "threads" = threads.map fun n => .count n.toUInt64)
      (hparams : v "params" = params.map .text) :
      StatedBy v .deliver (.deliver ⟨input, ⟨destination⟩, fps, codec, preset.getD defaultPreset,
        threads, (params.map Text.wordsOf).getD []⟩)

end Operation

/-- The keys of a kind of block. -/
def Kind.keys : Kind → List String
  | .define => ["name", "type", "source", "hasaudio", "duration", "duration_from"]
  | .resize => ["clip", "out", "height", "width"]
  | .position => ["clip", "out", "x", "y"]
  | .margin => ["clip", "out", "size", "opacity", "red", "green", "blue"]
  | .concatenate => ["out", "clips"]
  | .compose => ["out", "clips", "width", "height"]
  | .setAudio => ["out", "clip", "audio"]
  | .subclip => ["clip", "start", "end", "out"]
  | .deliver => ["clip", "out", "fps", "codec", "preset", "threads", "params"]

/-- No key of a kind is listed twice. -/
lemma Kind.nodup_keys (k : Kind) : k.keys.Nodup := by
  cases k <;> decide

/-! ### Kinds of blocks -/

namespace Operation

/-- The medium of a definition takes no key. -/
lemma takes_readMedium (token : String) :
    Takes (readMedium token) [] fun _ m => token = Medium.token m where
  eq_ok _ as m left := by
    have hnamed : Medium.ofToken? token = some m ↔ token = m.token := by
      constructor
      · intro h
        have htoken : m.token = token := by simpa using List.find?_some h
        exact htoken.symm
      · rintro rfl
        exact Medium.ofToken?_token m
    rw [← hnamed, Attributes.without_nil]
    unfold readMedium
    cases Medium.ofToken? token with
    | none => simp
    | some m' => simp [eq_comm]
  local_keys _ _ _ _ hm := hm

/-- A definition takes its keys. -/
lemma takes_buildDefinition :
    Takes buildDefinition Kind.define.keys fun v => StatedBy v .define := by
  have hchain := (takes_requiredText "name").bind fun name =>
    (takes_requiredText "type").bind fun token => (takes_readMedium token).bind fun medium =>
    (takes_requiredText "source").bind fun source => (takes_flag "hasaudio").bind fun sound =>
    (takes_count64 "duration").bind fun duration => (takes_text "duration_from").map fun other =>
    Operation.define ⟨name, medium, ⟨source⟩, sound.getD false, duration, other⟩
  refine hchain.congr fun v op => ?_
  constructor
  · rintro ⟨name, hname, token, htype, medium, rfl, source, hsource, sound, hsound, duration,
      hduration, other, hfrom, rfl⟩
    exact .define hname htype hsource hsound hduration hfrom
  · intro hstated
    cases hstated with
    | define hname htype hsource hsound hduration hfrom =>
      exact ⟨_, hname, _, htype, _, rfl, _, hsource, _, hsound, _, hduration, _, hfrom, rfl⟩

/-- An effect takes the keys that every effect has and its own. -/
lemma takes_buildEffect {own : Builder Effect} {keys : List String}
    {P : (String → Option Value) → Effect → Prop} (h : own.Takes keys P) :
    (buildEffect own).Takes ("clip" :: "out" :: keys) fun v op => ∃ input,
      v "clip" = some (.text input) ∧ ∃ output, v "out" = some (.text output) ∧
        ∃ e, P v e ∧ op = .effect input output e :=
  (takes_requiredText "clip").bind fun input => (takes_requiredText "out").bind fun output =>
    h.map fun e => Operation.effect input output e

/-- A new size takes its keys. -/
lemma takes_resize : Takes (builder .resize) Kind.resize.keys fun v => StatedBy v .resize := by
  have hown := (takes_count32 "height").bind fun height => (takes_count32 "width").map fun width =>
    Effect.resize height width
  refine (takes_buildEffect hown).congr fun v op => ?_
  constructor
  · rintro ⟨input, hinput, output, houtput, e, ⟨height, hheight, width, hwidth, rfl⟩, rfl⟩
    exact .resize hinput houtput hheight hwidth
  · intro hstated
    cases hstated with
    | resize hinput houtput hheight hwidth =>
      exact ⟨_, hinput, _, houtput, _, ⟨_, hheight, _, hwidth, rfl⟩, rfl⟩

/-- A placement takes its keys. -/
lemma takes_position :
    Takes (builder .position) Kind.position.keys fun v => StatedBy v .position := by
  have hown := (takes_count32 "x").bind fun x => (takes_count32 "y").map fun y =>
    Effect.position x y
  refine (takes_buildEffect hown).congr fun v op => ?_
  constructor
  · rintro ⟨input, hinput, output, houtput, e, ⟨x, hx, y, hy, rfl⟩, rfl⟩
    exact .position hinput houtput hx hy
  · intro hstated
    cases hstated with
    | position hinput houtput hx hy =>
      exact ⟨_, hinput, _, houtput, _, ⟨_, hx, _, hy, rfl⟩, rfl⟩

/-- A border takes its keys. -/
lemma takes_margin : Takes (builder .margin) Kind.margin.keys fun v => StatedBy v .margin := by
  have hown := (takes_count32 "size").bind fun size =>
    (takes_count32 "opacity").bind fun opacity => (takes_count8 "red").bind fun red =>
    (takes_count8 "green").bind fun green => (takes_count8 "blue").map fun blue =>
    Effect.margin ⟨size, opacity, red, green, blue⟩
  refine (takes_buildEffect hown).congr fun v op => ?_
  constructor
  · rintro ⟨input, hinput, output, houtput, e, ⟨size, hsize, opacity, hopacity, red, hred, green,
      hgreen, blue, hblue, rfl⟩, rfl⟩
    exact .margin hinput houtput hsize hopacity hred hgreen hblue
  · intro hstated
    cases hstated with
    | margin hinput houtput hsize hopacity hred hgreen hblue =>
      exact ⟨_, hinput, _, houtput, _,
        ⟨_, hsize, _, hopacity, _, hred, _, hgreen, _, hblue, rfl⟩, rfl⟩

/-- A sequence of clips takes its keys. -/
lemma takes_buildConcatenation :
    Takes buildConcatenation Kind.concatenate.keys fun v => StatedBy v .concatenate := by
  have hchain := (takes_requiredText "out").bind fun output =>
    (takes_requiredList "clips").map fun clips => Operation.mix output (.concatenate clips)
  refine hchain.congr fun v op => ?_
  constructor
  · rintro ⟨output, houtput, _, ⟨clips, hclips, rfl⟩, rfl⟩
    exact .concatenate houtput hclips
  · intro hstated
    cases hstated with
    | concatenate houtput hclips =>
      exact ⟨_, houtput, _, ⟨_, hclips, rfl⟩, rfl⟩

/-- A canvas takes the keys of both its sides, and both have a value or none has. -/
lemma takes_readCanvas : Takes readCanvas ["width", "height"] fun v size =>
    v "width" = size.map (fun c => .count c.width.toUInt64) ∧
      v "height" = size.map fun c => .count c.height.toUInt64 := by
  have hchain : Takes readCanvas ["width", "height"] fun v size => ∃ width : Option UInt32,
      v "width" = width.map (fun n => .count n.toUInt64) ∧ ∃ height : Option UInt32,
        v "height" = height.map (fun n => .count n.toUInt64) ∧
          width = size.map Canvas.width ∧ height = size.map Canvas.height := by
    refine (takes_count32 "width").bind fun width =>
      (takes_count32 "height").bind fun height => ?_
    cases width <;> cases height
    · exact (takes_pure none).congr fun v size => by cases size <;> simp
    · exact (takes_missing "width").congr fun v size => by cases size <;> simp
    · exact (takes_missing "height").congr fun v size => by cases size <;> simp
    · refine (takes_pure _).congr fun v size => ?_
      rcases size with _ | ⟨w, h⟩ <;> simp [eq_comm]
  refine hchain.congr fun v size => ?_
  constructor
  · rintro ⟨_, hwidth, _, hheight, rfl, rfl⟩
    rw [Option.map_map] at hwidth hheight
    exact ⟨hwidth, hheight⟩
  · rintro ⟨hwidth, hheight⟩
    refine ⟨size.map Canvas.width, ?_, size.map Canvas.height, ?_, rfl, rfl⟩
    · rw [hwidth, Option.map_map]
      rfl
    · rw [hheight, Option.map_map]
      rfl

/-- A composition takes its keys. -/
lemma takes_buildComposition :
    Takes buildComposition Kind.compose.keys fun v => StatedBy v .compose := by
  have hchain := (takes_requiredText "out").bind fun output =>
    (takes_requiredList "clips").bind fun clips => takes_readCanvas.map fun size =>
    Operation.mix output (.composite clips size)
  refine hchain.congr fun v op => ?_
  constructor
  · rintro ⟨output, houtput, _, ⟨clips, hclips, rfl⟩, size, ⟨hwidth, hheight⟩, rfl⟩
    exact .compose houtput hclips hwidth hheight
  · intro hstated
    cases hstated with
    | compose houtput hclips hwidth hheight =>
      exact ⟨_, houtput, _, ⟨_, hclips, rfl⟩, _, ⟨hwidth, hheight⟩, rfl⟩

/-- A new sound takes its keys. -/
lemma takes_buildSetAudio :
    Takes buildSetAudio Kind.setAudio.keys fun v => StatedBy v .setAudio := by
  have hchain := (takes_requiredText "out").bind fun output =>
    (takes_requiredText "clip").bind fun picture => (takes_requiredText "audio").map fun sound =>
    Operation.mix output (.setAudio picture sound)
  refine hchain.congr fun v op => ?_
  constructor
  · rintro ⟨output, houtput, picture, hpicture, sound, hsound, rfl⟩
    exact .setAudio houtput hpicture hsound
  · intro hstated
    cases hstated with
    | setAudio houtput hpicture hsound => exact ⟨_, houtput, _, hpicture, _, hsound, rfl⟩

/-- A part of a clip takes its keys. -/
lemma takes_buildSubclip : Takes buildSubclip Kind.subclip.keys fun v => StatedBy v .subclip := by
  have hchain := (takes_requiredText "clip").bind fun input =>
    (takes_time "start").required.bind fun start => (takes_time "end").bind fun stop =>
    (takes_requiredText "out").map fun output => Operation.subclip ⟨input, start, stop, output⟩
  refine hchain.congr fun v op => ?_
  constructor
  · rintro ⟨input, hinput, start, hstart, stop, hstop, output, houtput, rfl⟩
    exact .subclip hinput hstart hstop houtput
  · intro hstated
    cases hstated with
    | subclip hinput hstart hstop houtput =>
      exact ⟨_, hinput, _, hstart, _, hstop, _, houtput, rfl⟩

/-- A file to be written takes its keys. -/
lemma takes_buildDelivery : Takes buildDelivery Kind.deliver.keys fun v => StatedBy v .deliver := by
  have hchain := (takes_requiredText "clip").bind fun input =>
    (takes_requiredText "out").bind fun destination =>
    (takes_count32 "fps").required.bind fun fps => (takes_requiredText "codec").bind fun codec =>
    (takes_text "preset").bind fun preset =>
    (takes_count32 "threads").bind fun threads => (takes_list "params").map fun params =>
    Operation.deliver ⟨input, ⟨destination⟩, fps, codec, preset.getD defaultPreset, threads,
      params.getD []⟩
  refine hchain.congr fun v op => ?_
  constructor
  · rintro ⟨input, hinput, destination, hdestination, fps, hfps, codec, hcodec, preset, hpreset,
      threads, hthreads, _, ⟨params, hparams, rfl⟩, rfl⟩
    exact .deliver hinput hdestination hfps hcodec hpreset hthreads hparams
  · intro hstated
    cases hstated with
    | deliver hinput hdestination hfps hcodec hpreset hthreads hparams =>
      exact ⟨_, hinput, _, hdestination, _, hfps, _, hcodec, _, hpreset, _, hthreads, _,
        ⟨_, hparams, rfl⟩, rfl⟩

/-- The builder of a kind takes the keys of the kind, and makes what their values state. -/
theorem takes_builder (k : Kind) : (builder k).Takes k.keys fun v => StatedBy v k := by
  cases k with
  | define => exact takes_buildDefinition
  | resize => exact takes_resize
  | position => exact takes_position
  | margin => exact takes_margin
  | concatenate => exact takes_buildConcatenation
  | compose => exact takes_buildComposition
  | setAudio => exact takes_buildSetAudio
  | subclip => exact takes_buildSubclip
  | deliver => exact takes_buildDelivery

/-- From attributes, the builder of a kind makes the operation that their values state, and it
leaves those whose keys are not of the kind. -/
theorem builder_eq_ok {k : Kind} {as left : Attributes} {op : Operation} :
    builder k as = .ok (op, left) ↔
      StatedBy (fun key => as.value? key) k op ∧ left = as.without k.keys :=
  (takes_builder k).eq_ok k.nodup_keys as op left

/-- An operation that is stated by a block is of the kind of the block. -/
lemma StatedBy.kind_eq {v : String → Option Value} {k : Kind} {op : Operation}
    (h : StatedBy v k op) : op.kind = k := by
  cases h <;> rfl

/-! ### Tables of fields -/

/-- The fields of an effect state it, with the names that it reads and binds. -/
lemma statedBy_effect {v : String → Option Value} {input output : String} {e : Effect}
    (hinput : v "clip" = some (.text input)) (houtput : v "out" = some (.text output))
    (hv : ∀ f ∈ e.table, v f.1 = f.2) : StatedBy v e.kind (.effect input output e) := by
  cases e with
  | margin m =>
    simp only [Effect.table, List.forall_mem_cons] at hv
    obtain ⟨hsize, hopacity, hred, hgreen, hblue, -⟩ := hv
    exact .margin hinput houtput hsize hopacity hred hgreen hblue
  | position x y =>
    simp only [Effect.table, List.forall_mem_cons] at hv
    obtain ⟨hx, hy, -⟩ := hv
    exact .position hinput houtput hx hy
  | resize height width =>
    simp only [Effect.table, List.forall_mem_cons] at hv
    obtain ⟨hheight, hwidth, -⟩ := hv
    exact .resize hinput houtput hheight hwidth

/-- The fields of a combination state it, with the name that it binds. -/
lemma statedBy_mix {v : String → Option Value} {output : String} {m : Mix} (h : m.Expressible)
    (houtput : v "out" = some (.text output)) (hv : ∀ f ∈ m.table, v f.1 = f.2) :
    StatedBy v m.kind (.mix output m) := by
  cases m with
  | concatenate clips =>
    simp only [Mix.table, List.forall_mem_cons] at hv
    have hstated := StatedBy.concatenate houtput hv.1
    have hwords : Text.wordsOf (" ".intercalate clips) = clips := Text.words_of_intercalate h.2
    rwa [hwords] at hstated
  | composite clips size =>
    simp only [Mix.table, List.forall_mem_cons] at hv
    obtain ⟨hclips, hwidth, hheight, -⟩ := hv
    have hstated := StatedBy.compose houtput hclips hwidth hheight
    have hwords : Text.wordsOf (" ".intercalate clips) = clips := Text.words_of_intercalate h.2
    rwa [hwords] at hstated
  | setAudio picture sound =>
    simp only [Mix.table, List.forall_mem_cons] at hv
    obtain ⟨hpicture, hsound, -⟩ := hv
    exact .setAudio houtput hpicture hsound

/-- The parameters of a file to be written are those of their field, which is left out when there
are none. -/
lemma exists_params {ws : List String} (h : ∀ w ∈ ws, Text.Listable w) :
    ∃ s : Option String, (if ws = [] then none else some (Value.ofWords ws)) = s.map .text ∧
      (s.map Text.wordsOf).getD [] = ws := by
  by_cases hnone : ws = []
  · exact ⟨none, if_pos hnone, hnone.symm⟩
  · exact ⟨some (" ".intercalate ws), if_neg hnone, Text.words_of_intercalate h⟩

/-- An operation with texts that can be written is stated by the table of its fields. -/
theorem statedBy_of_have {v : String → Option Value} {op : Operation} (h : op.Expressible)
    (hv : ∀ f ∈ op.table, v f.1 = f.2) : StatedBy v op.kind op := by
  cases op with
  | define d =>
    simp only [table, List.forall_mem_cons] at hv
    obtain ⟨hname, htype, hsource, hsound, hduration, hfrom, -⟩ := hv
    -- a table gives every field that has a default, so the default is not needed here
    have hflag : v "hasaudio" = (some d.hasAudio).map .flag := hsound
    have hstated := StatedBy.define hname htype hsource hflag hduration hfrom
    exact hstated
  | effect input output e =>
    simp only [table, List.forall_mem_cons] at hv
    obtain ⟨hinput, houtput, hown⟩ := hv
    exact statedBy_effect hinput houtput hown
  | mix output m =>
    simp only [table, List.forall_mem_cons] at hv
    obtain ⟨houtput, hown⟩ := hv
    exact statedBy_mix h.2 houtput hown
  | subclip s =>
    simp only [table, List.forall_mem_cons] at hv
    obtain ⟨hinput, hstart, hstop, houtput, -⟩ := hv
    exact .subclip hinput hstart hstop houtput
  | deliver d =>
    simp only [table, List.forall_mem_cons] at hv
    obtain ⟨hinput, hdestination, hfps, hcodec, hpreset, hthreads, hparams, -⟩ := hv
    obtain ⟨params, htext, hwords⟩ := exists_params h.2.2.2.2
    have hnamed : v "preset" = (some d.preset).map .text := hpreset
    have hstated := StatedBy.deliver hinput hdestination hfps hcodec hnamed hthreads
      (hparams.trans htext)
    rw [hwords] at hstated
    exact hstated

/-- No key occurs twice among the fields of an operation. -/
lemma nodup_table (op : Operation) : (op.table.map Prod.fst).Nodup := by
  cases op with
  | define d => simp [table]
  | effect input output e => cases e <;> simp [table, Effect.table]
  | mix output m => cases m <;> simp [table, Mix.table]
  | subclip s => simp [table]
  | deliver d => simp [table]

end Operation

/-- A block stands for a step exactly when its lines make assignments whose values state the
operation of the step, which is of the kind of the block; what its kind does not take is
reported. -/
theorem Step.ofBlock_eq_ok {b : Block} {step : Step} {events : List Event} :
    ofBlock b = .ok (step, events) ↔ ∃ as, Attributes.ofBlock b = .ok as ∧ step.line = b.line ∧
      step.operation.kind.token = b.kind ∧
      Operation.StatedBy (fun key => as.value? key) step.operation.kind step.operation ∧
      events = (as.without step.operation.kind.keys).unusedEvents := by
  unfold ofBlock
  cases hkind : Kind.ofToken? b.kind with
  | none =>
    have hunknown (k : Kind) : k.token ≠ b.kind := by
      intro htoken
      rw [← htoken, Kind.ofToken?_token] at hkind
      cases hkind
    simp [hunknown]
  | some k =>
    have htoken : k.token = b.kind := Kind.token_of_ofToken? hkind
    dsimp only
    simp only [bind_eq_ok, pure_eq_ok]
    constructor
    · rintro ⟨as, has, ⟨op, left⟩, hbuilt, heq⟩
      obtain ⟨hstated, rfl⟩ := Operation.builder_eq_ok.1 hbuilt
      obtain ⟨rfl, rfl⟩ := Prod.mk.inj heq
      have hop : op.kind = k := hstated.kind_eq
      subst hop
      exact ⟨as, has, rfl, htoken, hstated, rfl⟩
    · rintro ⟨as, has, hline, hop, hstated, rfl⟩
      have hsame : step.operation.kind = k := by
        rw [← hop, Kind.ofToken?_token] at hkind
        exact Option.some.inj hkind
      rw [hsame] at hstated
      refine ⟨as, has, _, Operation.builder_eq_ok.2 ⟨hstated, rfl⟩, ?_⟩
      rw [hsame, ← hline]

end Montage
