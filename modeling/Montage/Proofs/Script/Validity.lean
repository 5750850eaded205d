import Montage.Proofs.Script.Builders

/-!
# The meaning of a block

A block stands for an operation exactly when it is `Valid`: its kind is known, each of its lines
assigns a value of the type of its key, and its kind admits the last value of each key.  The fields
of the operation are then these values (`ofBlock_iff_valid`).

`Kind.Admits` is what the kind asks of the values, apart from their types: the keys that it
requires, and those whose values have to fit something smaller.  For values of the right types this
is exactly what it takes for an operation to be stated by them (`exists_statedBy_iff`).
-/

namespace Montage

/-! ### Values that a kind admits -/

namespace Kind

/-- The keys that a block of a kind has to assign to. -/
def requiredKeys : Kind → List String
  | .define => ["name", "type", "source"]
  | .resize | .position | .margin => ["clip", "out"]
  | .concatenate | .compose => ["out", "clips"]
  | .setAudio => ["out", "clip", "audio"]
  | .subclip => ["clip", "start", "out"]
  | .deliver => ["clip", "out", "fps", "codec"]

/-- The number that the numbers of a key have to be below. -/
def countLimit (key : String) : Nat :=
  if key ∈ ["red", "green", "blue"] then UInt8.size
  else if key = "duration" then UInt64.size
  else UInt32.size

/-- The kind admits the values of its keys: those that it requires are there, the width and the
height of a composition only with each other, the type of a definition names a medium, and numbers
are below their limits. -/
structure Admits (k : Kind) (v : String → Option Value) : Prop where
  required : ∀ key ∈ k.requiredKeys, v key ≠ none
  paired : k = .compose → (v "width" = none ↔ v "height" = none)
  medium : k = .define → ∃ m : Medium, v "type" = some (.text m.token)
  fits : ∀ key ∈ k.keys, ∀ n, v key = some (.count n) → n.toNat < countLimit key

end Kind

namespace Operation

open Attribute

variable {v : String → Option Value} {k : Kind} {op : Operation} {key : String}

/-- What a kind requires is there. -/
lemma StatedBy.required (h : StatedBy v k op) : ∀ key ∈ k.requiredKeys, v key ≠ none := by
  cases h <;> simp [Kind.requiredKeys, *]

/-- A composition has both sides or none. -/
lemma StatedBy.paired (h : StatedBy v .compose op) : v "width" = none ↔ v "height" = none := by
  cases h with
  | compose houtput hclips hwidth hheight =>
    rw [hwidth, hheight, Option.map_eq_none_iff, Option.map_eq_none_iff]

/-- The type of a definition names a medium. -/
lemma StatedBy.medium (h : StatedBy v .define op) :
    ∃ m : Medium, v "type" = some (.text m.token) := by
  cases h with
  | define hname htype hsource hsound hduration hfrom => exact ⟨_, htype⟩

/-- Numbers are below the limits of their keys. -/
lemma StatedBy.fits (h : StatedBy v k op) :
    ∀ key ∈ k.keys, ∀ n, v key = some (.count n) → n.toNat < Kind.countLimit key := by
  have hword (n : UInt64) : n.toNat < UInt64.size := n.toNat_lt_size
  have hhalf (n : UInt32) : n.toNat < UInt32.size := n.toNat_lt_size
  have hbyte (n : UInt8) : n.toNat < UInt8.size := n.toNat_lt_size
  cases h <;> simp [Kind.keys, Kind.countLimit, *]

/-! ### Values of the right types -/

/-- A value that is there has the form that it would have. -/
lemma exists_of_ne_none {α : Type} {make : α → Value} (hsome : v key ≠ none)
    (h : ∃ a : Option α, v key = a.map make) : ∃ a, v key = some (make a) := by
  obtain ⟨a, ha⟩ := h
  cases a with
  | none => exact absurd ha hsome
  | some a => exact ⟨a, ha⟩

/-- The values have the types of their keys. -/
def Typed (v : String → Option Value) : Prop :=
  ∀ key value, v key = some value → value.type = valueType key

namespace Typed

variable (hv : Typed v) (key : String)
include hv

/-- A key has a value of the form that its type has, if it has a value. -/
lemma exists_map {α : Type} {make : α → Value}
    (hmake : ∀ value : Value, value.type = valueType key → ∃ a, value = make a) :
    ∃ a : Option α, v key = a.map make := by
  cases hvalue : v key with
  | none => exact ⟨none, rfl⟩
  | some value =>
    obtain ⟨a, rfl⟩ := hmake value (hv key value hvalue)
    exact ⟨some a, rfl⟩

/-- A key that takes texts has a text, if it has a value. -/
lemma text (hkey : valueType key = .text) : ∃ s : Option String, v key = s.map .text := by
  refine hv.exists_map key fun value htype => ?_
  rw [hkey] at htype
  cases value with
  | text s => exact ⟨s, rfl⟩
  | _ => cases htype

/-- A key that takes truth values has one, if it has a value. -/
lemma flag (hkey : valueType key = .flag) : ∃ b : Option Bool, v key = b.map .flag := by
  refine hv.exists_map key fun value htype => ?_
  rw [hkey] at htype
  cases value with
  | flag b => exact ⟨b, rfl⟩
  | _ => cases htype

/-- A key that takes timestamps has one, if it has a value. -/
lemma time (hkey : valueType key = .time) : ∃ t : Option Timestamp, v key = t.map .time := by
  refine hv.exists_map key fun value htype => ?_
  rw [hkey] at htype
  cases value with
  | time t => exact ⟨t, rfl⟩
  | _ => cases htype

/-- A key that takes numbers has one, if it has a value. -/
lemma count (hkey : valueType key = .count) : ∃ n : Option UInt64, v key = n.map .count := by
  refine hv.exists_map key fun value htype => ?_
  rw [hkey] at htype
  cases value with
  | count n => exact ⟨n, rfl⟩
  | _ => cases htype

/-- A number below its limit is one of another type that has the numbers below the limit. -/
lemma narrow {α : Type} {limit : Nat} {make : UInt64 → α} {widen : α → UInt64}
    (hmake : ∀ n, n.toNat < limit → widen (make n) = n) (hkey : valueType key = .count)
    (hfits : ∀ n, v key = some (.count n) → n.toNat < limit) :
    ∃ c : Option α, v key = c.map fun m => .count (widen m) := by
  obtain ⟨n, hn⟩ := hv.count key hkey
  refine ⟨n.map make, ?_⟩
  cases n with
  | none => exact hn
  | some n =>
    have hback : widen (make n) = n := hmake n (hfits n hn)
    rw [hn, Option.map_some, Option.map_some, Option.map_some, hback]

/-- A number below its limit is one of 32 bits. -/
lemma count32 (hkey : valueType key = .count)
    (hfits : ∀ n, v key = some (.count n) → n.toNat < UInt32.size) :
    ∃ n : Option UInt32, v key = n.map fun m => .count m.toUInt64 :=
  hv.narrow key (fun _ hn => Builder.toUInt64_toUInt32 hn) hkey hfits

/-- A number below its limit is one of eight bits. -/
lemma count8 (hkey : valueType key = .count)
    (hfits : ∀ n, v key = some (.count n) → n.toNat < UInt8.size) :
    ∃ n : Option UInt8, v key = n.map fun m => .count m.toUInt64 :=
  hv.narrow key (fun _ hn => Builder.toUInt64_toUInt8 hn) hkey hfits

end Typed

/-- A width and a height of which both are there or none is are those of a canvas, if there is
one. -/
lemma exists_canvas {width height : Option UInt32} (hboth : width = none ↔ height = none) :
    ∃ size : Option Canvas, width = size.map (·.width) ∧ height = size.map (·.height) := by
  cases width with
  | none =>
    obtain rfl : height = none := hboth.1 rfl
    exact ⟨none, rfl, rfl⟩
  | some w =>
    obtain ⟨h, rfl⟩ := Option.ne_none_iff_exists'.1 (mt hboth.2 (Option.some_ne_none w))
    exact ⟨some ⟨w, h⟩, rfl, rfl⟩

/-- Values of the right types, which the kind admits, state an operation. -/
lemma exists_statedBy (hv : Typed v) (h : k.Admits v) : ∃ op, StatedBy v k op := by
  obtain ⟨hrequired, hpaired, hmedium, hfits⟩ := h
  -- most keys take texts that are required, or numbers of 32 bits
  have htext (key : String) (hkey : key ∈ k.requiredKeys) (htype : valueType key = .text) :
      ∃ s, v key = some (.text s) := exists_of_ne_none (hrequired key hkey) (hv.text key htype)
  have hcount (key : String) (hkey : key ∈ k.keys) (htype : valueType key = .count)
      (hlimit : Kind.countLimit key = UInt32.size) :
      ∃ n : Option UInt32, v key = n.map fun m => .count m.toUInt64 :=
    hv.count32 key htype (hlimit ▸ hfits key hkey)
  cases k with
  | define =>
    obtain ⟨name, hname⟩ := htext "name" (by decide) (by decide)
    obtain ⟨medium, htype⟩ := hmedium rfl
    obtain ⟨source, hsource⟩ := htext "source" (by decide) (by decide)
    obtain ⟨sound, hsound⟩ := hv.flag "hasaudio" (by decide)
    obtain ⟨duration, hduration⟩ := hv.count "duration" (by decide)
    obtain ⟨other, hfrom⟩ := hv.text "duration_from" (by decide)
    exact ⟨_, .define hname htype hsource hsound hduration hfrom⟩
  | resize =>
    obtain ⟨input, hinput⟩ := htext "clip" (by decide) (by decide)
    obtain ⟨output, houtput⟩ := htext "out" (by decide) (by decide)
    obtain ⟨height, hheight⟩ := hcount "height" (by decide) (by decide) (by decide)
    obtain ⟨width, hwidth⟩ := hcount "width" (by decide) (by decide) (by decide)
    exact ⟨_, .resize hinput houtput hheight hwidth⟩
  | position =>
    obtain ⟨input, hinput⟩ := htext "clip" (by decide) (by decide)
    obtain ⟨output, houtput⟩ := htext "out" (by decide) (by decide)
    obtain ⟨x, hx⟩ := hcount "x" (by decide) (by decide) (by decide)
    obtain ⟨y, hy⟩ := hcount "y" (by decide) (by decide) (by decide)
    exact ⟨_, .position hinput houtput hx hy⟩
  | margin =>
    have hbyte (key : String) (hkey : key ∈ Kind.margin.keys) (htype : valueType key = .count)
        (hlimit : Kind.countLimit key = UInt8.size) :
        ∃ n : Option UInt8, v key = n.map fun m => .count m.toUInt64 :=
      hv.count8 key htype (hlimit ▸ hfits key hkey)
    obtain ⟨input, hinput⟩ := htext "clip" (by decide) (by decide)
    obtain ⟨output, houtput⟩ := htext "out" (by decide) (by decide)
    obtain ⟨size, hsize⟩ := hcount "size" (by decide) (by decide) (by decide)
    obtain ⟨opacity, hopacity⟩ := hcount "opacity" (by decide) (by decide) (by decide)
    obtain ⟨red, hred⟩ := hbyte "red" (by decide) (by decide) (by decide)
    obtain ⟨green, hgreen⟩ := hbyte "green" (by decide) (by decide) (by decide)
    obtain ⟨blue, hblue⟩ := hbyte "blue" (by decide) (by decide) (by decide)
    exact ⟨_, .margin hinput houtput hsize hopacity hred hgreen hblue⟩
  | concatenate =>
    obtain ⟨output, houtput⟩ := htext "out" (by decide) (by decide)
    obtain ⟨clips, hclips⟩ := htext "clips" (by decide) (by decide)
    exact ⟨_, .concatenate houtput hclips⟩
  | compose =>
    obtain ⟨output, houtput⟩ := htext "out" (by decide) (by decide)
    obtain ⟨clips, hclips⟩ := htext "clips" (by decide) (by decide)
    obtain ⟨width, hwidth⟩ := hcount "width" (by decide) (by decide) (by decide)
    obtain ⟨height, hheight⟩ := hcount "height" (by decide) (by decide) (by decide)
    have hboth : width = none ↔ height = none := by
      simpa [hwidth, hheight] using hpaired rfl
    obtain ⟨size, rfl, rfl⟩ := exists_canvas hboth
    rw [Option.map_map] at hwidth hheight
    exact ⟨_, .compose houtput hclips hwidth hheight⟩
  | setAudio =>
    obtain ⟨output, houtput⟩ := htext "out" (by decide) (by decide)
    obtain ⟨picture, hpicture⟩ := htext "clip" (by decide) (by decide)
    obtain ⟨sound, hsound⟩ := htext "audio" (by decide) (by decide)
    exact ⟨_, .setAudio houtput hpicture hsound⟩
  | subclip =>
    obtain ⟨input, hinput⟩ := htext "clip" (by decide) (by decide)
    obtain ⟨start, hstart⟩ :=
      exists_of_ne_none (hrequired "start" (by decide)) (hv.time "start" (by decide))
    obtain ⟨stop, hstop⟩ := hv.time "end" (by decide)
    obtain ⟨output, houtput⟩ := htext "out" (by decide) (by decide)
    exact ⟨_, .subclip hinput hstart hstop houtput⟩
  | deliver =>
    obtain ⟨input, hinput⟩ := htext "clip" (by decide) (by decide)
    obtain ⟨destination, hdestination⟩ := htext "out" (by decide) (by decide)
    obtain ⟨fps, hfps⟩ := exists_of_ne_none (hrequired "fps" (by decide))
      (hcount "fps" (by decide) (by decide) (by decide))
    obtain ⟨codec, hcodec⟩ := htext "codec" (by decide) (by decide)
    obtain ⟨preset, hpreset⟩ := hv.text "preset" (by decide)
    obtain ⟨threads, hthreads⟩ := hcount "threads" (by decide) (by decide) (by decide)
    obtain ⟨params, hparams⟩ := hv.text "params" (by decide)
    exact ⟨_, .deliver hinput hdestination hfps hcodec hpreset hthreads hparams⟩

/-- The kind admits the values of an operation that is stated by them. -/
lemma StatedBy.admits (h : StatedBy v k op) : k.Admits v where
  required := h.required
  paired := by
    rintro rfl
    exact h.paired
  medium := by
    rintro rfl
    exact h.medium
  fits := h.fits

/-- Values of the right types state an operation exactly when the kind admits them. -/
theorem exists_statedBy_iff (hv : Typed v) : (∃ op, StatedBy v k op) ↔ k.Admits v :=
  ⟨fun ⟨_, h⟩ => h.admits, exists_statedBy hv⟩

end Operation

/-! ### Assignments -/

namespace Attribute

/-- What a text assigns: the key and the value that it gives to the key, if it fits the grammar of
assignments and the key can have such a value. -/
def assignment? (text : String) : Option (String × Value) :=
  (split? text.toList).bind fun parts =>
    (readValue (String.ofList parts.1) (String.ofList parts.2)).toOption.map fun value =>
      (String.ofList parts.1, value)

/-- The attribute of a line is what its text assigns, with the number of the line. -/
lemma ofLine_eq_ok {l : Line} {a : Attribute} :
    ofLine l = .ok a ↔ assignment? l.text = some (a.key, a.value) ∧ a.line = l.number := by
  unfold ofLine assignment?
  cases split? l.text.toList with
  | none => simp
  | some parts =>
    obtain ⟨key, raw⟩ := parts
    obtain ⟨key', value', line'⟩ := a
    simp only [Option.bind_some]
    cases readValue (String.ofList key) (String.ofList raw) with
    | error e => simp [Except.toOption]
    | ok value => simp [Except.toOption, eq_comm, and_assoc]

/-- A value that is read is of the type of its key. -/
lemma type_of_readValue {key raw : String} {value : Value} (h : readValue key raw = .ok value) :
    value.type = valueType key := by
  unfold readValue at h
  cases htype : valueType key with
  | flag =>
    rw [htype] at h
    dsimp only at h
    split at h
    · cases h
      rfl
    · split at h <;> cases h
      rfl
  | count =>
    rw [htype] at h
    dsimp only at h
    split at h <;> cases h
    rfl
  | time =>
    rw [htype] at h
    dsimp only at h
    split at h <;> cases h
    rfl
  | text =>
    rw [htype] at h
    cases h
    rfl

/-- What a text assigns is of the type of the key. -/
lemma type_of_assignment? {text key : String} {value : Value}
    (h : assignment? text = some (key, value)) : value.type = valueType key := by
  obtain ⟨parts, -, h⟩ := Option.bind_eq_some_iff.1 h
  obtain ⟨value', hread, h⟩ := Option.map_eq_some_iff.1 h
  cases h
  exact type_of_readValue (toOption_eq_some.1 hread)

end Attribute

/-! ### Blocks -/

namespace Block

open Attribute

variable {b : Block} {key : String} {as : Attributes}

/-- What the lines of a block assign, in order. -/
def assignments (b : Block) : List (String × Value) :=
  b.lines.filterMap fun l => assignment? l.text

/-- The value of the last assignment to a key. -/
def last? (b : Block) (key : String) : Option Value :=
  ((b.assignments.filter fun a => a.1 == key).getLast?).map Prod.snd

/-- The attributes of lines are what the lines assign. -/
lemma map_of_mapM_ofLine {ls : List Line} {entries : List Attribute}
    (h : ls.mapM ofLine = .ok entries) :
    entries.map (fun a => (a.key, a.value)) = ls.filterMap fun l => assignment? l.text := by
  induction mapM_eq_ok.1 h with
  | nil => rfl
  | cons hl hls ih =>
    obtain ⟨hassign, -⟩ := ofLine_eq_ok.1 hl
    rw [List.map_cons, List.filterMap_cons, hassign, ih (mapM_eq_ok.2 hls)]

/-- The attributes of a block have the values of the last assignments. -/
lemma value?_of_ofBlock (h : Attributes.ofBlock b = .ok as) : as.value? key = b.last? key := by
  obtain ⟨entries, hentries, heq⟩ := bind_eq_ok.1 h
  cases heq
  unfold last? assignments Attributes.value? Attributes.find?
  rw [← map_of_mapM_ofLine hentries, List.filter_map, List.getLast?_map,
    List.getLast?_eq_head?_reverse, ← List.filter_reverse, List.head?_filter, Option.map_map]
  rfl

/-- The last assignments have the types of their keys. -/
lemma typed_last? (b : Block) : Operation.Typed b.last? := by
  intro key value h
  obtain ⟨a, ha, rfl⟩ := Option.map_eq_some_iff.1 h
  obtain ⟨hmem, hkey⟩ := List.mem_filter.1 (List.mem_of_getLast? ha)
  obtain ⟨l, -, hassign⟩ := List.mem_filterMap.1 hmem
  rw [← beq_iff_eq.1 hkey]
  exact type_of_assignment? hassign

/-- A block has attributes exactly when each of its lines assigns something. -/
lemma exists_ofBlock_iff :
    (∃ as, Attributes.ofBlock b = .ok as) ↔ ∀ l ∈ b.lines, ∃ a, assignment? l.text = some a := by
  constructor
  · rintro ⟨as, has⟩ l hl
    obtain ⟨entries, hentries, -⟩ := bind_eq_ok.1 has
    obtain ⟨a, ha⟩ := exists_eq_ok_of_mapM hentries l hl
    exact ⟨_, (ofLine_eq_ok.1 ha).1⟩
  · intro h
    have hlines : ∀ l ∈ b.lines, ∃ a, ofLine l = .ok a := by
      intro l hl
      obtain ⟨⟨key, value⟩, hassign⟩ := h l hl
      exact ⟨⟨key, value, l.number⟩, ofLine_eq_ok.2 ⟨hassign, rfl⟩⟩
    obtain ⟨entries, hentries⟩ := exists_mapM_of_forall hlines
    exact ⟨_, bind_eq_ok.2 ⟨entries, hentries, rfl⟩⟩

/-- A block stands for a step exactly when each of its lines assigns something, and the last
assignments state the operation of the step, which is of the kind of the block. -/
theorem exists_step_iff {step : Step} :
    (∃ events, Step.ofBlock b = .ok (step, events)) ↔
      (∀ l ∈ b.lines, ∃ a, assignment? l.text = some a) ∧ step.line = b.line ∧
        step.operation.kind.token = b.kind ∧
        Operation.StatedBy b.last? step.operation.kind step.operation := by
  constructor
  · rintro ⟨events, h⟩
    obtain ⟨as, has, hline, hkind, hstated, -⟩ := Step.ofBlock_eq_ok.1 h
    have hvalues : (fun key => as.value? key) = b.last? := funext fun _ => value?_of_ofBlock has
    exact ⟨exists_ofBlock_iff.1 ⟨as, has⟩, hline, hkind, hvalues ▸ hstated⟩
  · rintro ⟨hlines, hline, hkind, hstated⟩
    obtain ⟨as, has⟩ := exists_ofBlock_iff.2 hlines
    have hvalues : (fun key => as.value? key) = b.last? := funext fun _ => value?_of_ofBlock has
    exact ⟨_, Step.ofBlock_eq_ok.2 ⟨as, has, hline, hkind, hvalues ▸ hstated, rfl⟩⟩

/-- The block is as its kind asks: each of its lines, whatever its key, assigns something, and the
kind admits the value of the last assignment to each key. -/
structure Valid (b : Block) (k : Kind) : Prop where
  token : k.token = b.kind
  lines : ∀ l ∈ b.lines, ∃ a, assignment? l.text = some a
  admits : k.Admits b.last?

/-- A block stands for a step exactly when it is valid for one of the kinds.  The step then has the
line of the block, and its operation is of the kind of the block, each field being the value of the
last assignment to its key, or the default when there is none. -/
theorem ofBlock_iff_valid (b : Block) :
    ((∃ step events, Step.ofBlock b = .ok (step, events)) ↔ ∃ k, b.Valid k) ∧
      ∀ step events, Step.ofBlock b = .ok (step, events) → step.line = b.line ∧
        step.operation.kind.token = b.kind ∧
        Operation.StatedBy b.last? step.operation.kind step.operation := by
  refine ⟨⟨?_, ?_⟩, fun step events h => (exists_step_iff.1 ⟨events, h⟩).2⟩
  · rintro ⟨step, hstep⟩
    obtain ⟨hlines, -, hkind, hstated⟩ := exists_step_iff.1 hstep
    exact ⟨_, hkind, hlines, hstated.admits⟩
  · rintro ⟨k, hkind, hlines, hadmits⟩
    obtain ⟨op, hstated⟩ := (Operation.exists_statedBy_iff b.typed_last?).2 hadmits
    have hop : op.kind = k := hstated.kind_eq
    subst hop
    exact ⟨⟨b.line, op⟩, exists_step_iff.2 ⟨hlines, rfl, hkind, hstated⟩⟩

end Block

end Montage
