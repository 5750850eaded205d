import Montage.Operation.Json
import Montage.Proofs.Json.Restated

/-!
# Steps read back from JSON

A step is read back from the JSON that it was written as, in whatever words this reaches the reader
(`read_of_restates`): the fields of any of its objects may be reordered, those that are `null`
left out, and others added.

There is one lemma for each part of a step, from numbers up to operations.  Each of them says which
fields its object offers and what these are read as; the tag of the object, which is one of its
fields, selects the reader.
-/

namespace Montage

open Json

/-! ### Numbers and tags -/

namespace Json

/-- A number is read as what is made of it, when it is below the limit. -/
lemma reads_natBelow_map {α : Type} {limit n : Nat} {make : Nat → α} {a : α} (h : n < limit)
    (hmake : make n = a) : Reads (fun j => (natBelow? limit j).map make) (.nat n) a := by
  obtain ⟨hnull, hread⟩ := reads_natBelow h
  refine ⟨hnull, fun j hj => ?_⟩
  dsimp only
  rw [hread j hj, Option.map_some, hmake]

/-- A number of 64 bits is read. -/
lemma reads_word64 (n : UInt64) : Reads word64? (word64 n) n :=
  reads_natBelow_map n.toNat_lt UInt64.ofNat_toNat

/-- A number of 32 bits is read. -/
lemma reads_word32 (n : UInt32) : Reads word32? (word32 n) n :=
  reads_natBelow_map n.toNat_lt UInt32.ofNat_toNat

/-- A number of eight bits is read. -/
lemma reads_word8 (n : UInt8) : Reads word8? (word8 n) n :=
  reads_natBelow_map n.toNat_lt UInt8.ofNat_toNat

variable {words : List String} {word : String}

/-- One of several words is read. -/
lemma reads_choice (h : word ∈ words) : Reads (choice? words) (.string word) word := by
  refine reads_of_eq nofun nofun ?_
  unfold choice?
  exact if_pos (List.contains_iff_mem.2 h)

/-- An object that offers a tag is read by the reader for the tag. -/
lemma read_tagged {α : Type} {fields : List (String × Json String)}
    (hoffers : Offers (fun name => lookupLast name fields) "kind" (.string word))
    (h : word ∈ words) (reader : String → Json String → Option α) :
    (do let tag ← tag? (.object fields); reader (← choice? words tag) (.object fields)) =
      reader word (.object fields) := by
  have htag : (lookupLast "kind" fields).bind (choice? words) = some word :=
    hoffers.required (reads_choice h)
  obtain ⟨tag, hfound, hchoice⟩ := Option.bind_eq_some_iff.1 htag
  change (lookupLast "kind" fields >>= fun tag => choice? words tag >>= fun word =>
    reader word (.object fields)) = _
  rw [hfound, Option.bind_eq_bind, Option.bind_some, hchoice]
  rfl

end Json

/-! ### The parts of operations -/

/-- A timestamp is read. -/
lemma Timestamp.reads_toJson (t : Timestamp) : Reads ofJson? t.toJson t := by
  refine reads_object (by simp) fun fields hfields => ?_
  simp only [List.forall_mem_cons] at hfields
  obtain ⟨hhours, hminutes, hseconds, -⟩ := hfields
  simp [ofJson?, record?, hhours.required (reads_word64 _), hminutes.required (reads_word64 _),
    hseconds.required (reads_word64 _)]

/-- A size is read. -/
lemma Canvas.reads_toJson (c : Canvas) : Reads ofJson? c.toJson c := by
  refine reads_object (by simp) fun fields hfields => ?_
  simp only [List.forall_mem_cons] at hfields
  obtain ⟨hwidth, hheight, -⟩ := hfields
  simp [ofJson?, record?, hwidth.required (reads_word32 _), hheight.required (reads_word32 _)]

/-- A medium is read. -/
lemma Medium.reads_token (m : Medium) : Reads ofJson? (.string m.token) m :=
  reads_of_eq nofun nofun (ofToken?_token m)

/-- An effect is read. -/
lemma Effect.reads_toJson (e : Effect) : Reads ofPart? e.toJson e := by
  cases e with
  | margin m =>
    refine reads_object (by simp) fun fields hfields => ?_
    simp only [List.forall_mem_cons] at hfields
    obtain ⟨hkind, hsize, hopacity, hred, hgreen, hblue, -⟩ := hfields
    have hread : marginOfJson? (.object fields) = some (.margin m) := by
      simp [marginOfJson?, record?, hsize.omitted fun n _ => reads_word32 n,
        hopacity.omitted fun n _ => reads_word32 n, hred.omitted fun n _ => reads_word8 n,
        hgreen.omitted fun n _ => reads_word8 n, hblue.omitted fun n _ => reads_word8 n]
    exact (read_tagged hkind (by simp [tags]) ofTagged?).trans hread
  | position x y =>
    refine reads_object (by simp) fun fields hfields => ?_
    simp only [List.forall_mem_cons] at hfields
    obtain ⟨hkind, hx, hy, -⟩ := hfields
    have hread : positionOfJson? (.object fields) = some (.position x y) := by
      simp [positionOfJson?, record?, hx.omitted fun n _ => reads_word32 n,
        hy.omitted fun n _ => reads_word32 n]
    exact (read_tagged hkind (by simp [tags]) ofTagged?).trans hread
  | resize height width =>
    refine reads_object (by simp) fun fields hfields => ?_
    simp only [List.forall_mem_cons] at hfields
    obtain ⟨hkind, hheight, hwidth, -⟩ := hfields
    have hread : resizeOfJson? (.object fields) = some (.resize height width) := by
      simp [resizeOfJson?, record?, hheight.omitted fun n _ => reads_word32 n,
        hwidth.omitted fun n _ => reads_word32 n]
    exact (read_tagged hkind (by simp [tags]) ofTagged?).trans hread

/-- A combination is read. -/
lemma Mix.reads_toJson (m : Mix) : Reads ofPart? m.toJson m := by
  cases m with
  | concatenate clips =>
    refine reads_object (by simp) fun fields hfields => ?_
    simp only [List.forall_mem_cons] at hfields
    obtain ⟨hkind, hclips, -⟩ := hfields
    have hread : concatenateOfJson? (.object fields) = some (.concatenate clips) := by
      simp [concatenateOfJson?, record?, hclips.required (reads_strings _)]
    exact (read_tagged hkind (by simp [tags]) ofTagged?).trans hread
  | composite clips size =>
    refine reads_object (by simp) fun fields hfields => ?_
    simp only [List.forall_mem_cons] at hfields
    obtain ⟨hkind, hclips, hsize, -⟩ := hfields
    have hread : compositeOfJson? (.object fields) = some (.composite clips size) := by
      simp [compositeOfJson?, record?, hclips.required (reads_strings _),
        hsize.omitted fun c _ => c.reads_toJson]
    exact (read_tagged hkind (by simp [tags]) ofTagged?).trans hread
  | setAudio picture sound =>
    refine reads_object (by simp) fun fields hfields => ?_
    simp only [List.forall_mem_cons] at hfields
    obtain ⟨hkind, hpicture, hsound, -⟩ := hfields
    have hread : setAudioOfJson? (.object fields) = some (.setAudio picture sound) := by
      simp [setAudioOfJson?, record?, hpicture.required (reads_string _),
        hsound.required (reads_string _)]
    exact (read_tagged hkind (by simp [tags]) ofTagged?).trans hread

/-! ### Operations and steps -/

namespace Operation

/-- The names of the fields of an operation differ. -/
lemma nodup_fields (op : Operation) :
    ("line" :: "op" :: op.fields.map Prod.fst).Nodup := by
  cases op <;> simp [fields]

/-- The tag of an operation is one of the tags. -/
lemma tag_mem_tags (op : Operation) : op.tag ∈ tags := by
  cases op <;> simp [tag, tags]

/-- An operation is read from the fields that it has. -/
lemma ofFields?_of_offers (op : Operation) {f : String → Option (Json String)}
    (h : ∀ p ∈ op.fields, Offers f p.1 p.2) : ofFields? op.tag f = some op := by
  cases op with
  | define d =>
    simp only [fields, List.forall_mem_cons] at h
    obtain ⟨hname, hmedium, hsource, hhasAudio, hduration, hfrom, -⟩ := h
    change defineOfFields? f = _
    simp [defineOfFields?, hname.required (reads_string _), hmedium.required d.medium.reads_token,
      hsource.required (reads_string _), hhasAudio.required (reads_bool _),
      hduration.omitted fun n _ => reads_word64 n, hfrom.omitted fun s _ => reads_string s]
  | effect input output e =>
    simp only [fields, List.forall_mem_cons] at h
    obtain ⟨hinput, houtput, heffect, -⟩ := h
    change effectOfFields? f = _
    simp [effectOfFields?, hinput.required (reads_string _), houtput.required (reads_string _),
      heffect.required e.reads_toJson]
  | mix output m =>
    simp only [fields, List.forall_mem_cons] at h
    obtain ⟨houtput, hmix, -⟩ := h
    change mixOfFields? f = _
    simp [mixOfFields?, houtput.required (reads_string _), hmix.required m.reads_toJson]
  | subclip s =>
    simp only [fields, List.forall_mem_cons] at h
    obtain ⟨hinput, hstart, hstop, houtput, -⟩ := h
    change subclipOfFields? f = _
    simp [subclipOfFields?, hinput.required (reads_string _), hstart.required s.start.reads_toJson,
      hstop.omitted fun t _ => t.reads_toJson, houtput.required (reads_string _)]
  | deliver d =>
    simp only [fields, List.forall_mem_cons] at h
    obtain ⟨hinput, hdestination, hfps, hcodec, hpreset, hthreads, hparams, -⟩ := h
    change deliverOfFields? f = _
    simp [deliverOfFields?, hinput.required (reads_string _),
      hdestination.required (reads_string _), hfps.required (reads_word32 _),
      hcodec.required (reads_string _), hpreset.required (reads_string _),
      hthreads.omitted fun n _ => reads_word32 n, hparams.required (reads_strings _)]

end Operation

namespace Step

variable {s : Step}

/-- A step is read. -/
lemma reads_toJson (h : s.line < UInt64.size) : Reads ofJson? s.toJson s := by
  refine reads_object s.operation.nodup_fields fun fields hfields => ?_
  simp only [List.forall_mem_cons] at hfields
  obtain ⟨hline, hop, hrest⟩ := hfields
  simp [ofJson?, hline.required (reads_natBelow h),
    hop.required (reads_choice s.operation.tag_mem_tags),
    Operation.ofFields?_of_offers s.operation hrest]

/-- A step, with a line that 64 bits can hold, is read back from the JSON that it is written as; and
also when, in any of the objects in it, the fields are reordered, those that are `null` are left out
and others are added. -/
theorem read_of_restates (h : s.line < UInt64.size) :
    ofJson? s.toJson = some s ∧ ∀ j, Restates s.toJson j → ofJson? j = some s := by
  obtain ⟨-, hread⟩ := reads_toJson h
  exact ⟨hread _ (.same _), hread⟩

/-- The rest of a film from a minute and a half on. -/
def finale : Step := ⟨3, .subclip ⟨"film", ⟨0, 1, 30⟩, none, "finale"⟩⟩

/-- The position in other words: its fields stand in the opposite order. -/
def finaleStart : Json String :=
  .object (List.reverse [("hours", .nat 0), ("minutes", .nat 1), ("seconds", .nat 30)])

/-- The fields of the step in other words: the missing end is left out. -/
def finaleFields : List (String × Json String) :=
  [("line", .nat 3), ("op", .string "subclip"), ("input_clip", .string "film"),
    ("start", finaleStart), ("output_name", .string "finale")]

/-- A field that no step has. -/
def note : String × Json String := ("note", .array [.null])

/-- The step is read back when its fields stand in the opposite order, after a note. -/
theorem read_finaleFields :
    Restates finale.toJson (.object (finaleFields ++ [note]).reverse) ∧
      ofJson? (.object (finaleFields ++ [note]).reverse) = some finale := by
  have hstart : Restates (Timestamp.toJson ⟨0, 1, 30⟩) finaleStart :=
    .object (.keep (.same _) (.keep (.same _) (.keep (.same _) .nil))) (List.forall_mem_nil _)
      (List.reverse_perm _)
  have hfields : Keeps Restates
      (("line", .nat 3) :: ("op", .string "subclip") :: finale.operation.fields) finaleFields :=
    .keep (.same _) (.keep (.same _) (.keep (.same _)
      (.keep hstart (.drop (.keep (.same _) .nil)))))
  have hnote : ∀ f ∈ [note], f.1 ∉
      (("line", .nat 3) :: ("op", .string "subclip") :: finale.operation.fields).map Prod.fst := by
    simp [note, finale, Operation.fields]
  have hrestates : Restates finale.toJson (.object (finaleFields ++ [note]).reverse) :=
    .object hfields hnote (List.reverse_perm _)
  exact ⟨hrestates, (read_of_restates (by decide)).2 _ hrestates⟩

end Step

end Montage
