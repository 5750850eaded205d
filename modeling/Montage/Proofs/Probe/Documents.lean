import Montage.Probe
import Montage.Proofs.Json.Reading
import Montage.Proofs.Seconds.Numbers

/-!
# Documents of the prober

A document in object form states a list of streams and a length.  Each record may have its fields in
any order and further fields of other names with any values; an optional field may be left out or
`null` (`States`).  `DocumentForm` says when a JSON value is such a document.

Every text of such a value is read, and gives what the streams and the length come to
(`ofBytes?_of_isText`); `Describes` says what that is without regard to how it is found.
-/

namespace Montage.Probe

open Json

variable {α : Type} {fields : List (Bytes × Json Bytes)} {names : List String} {name : String}

/-! ### Documents -/

/-- The names of the fields of an object: they are texts, and the known ones among them are not
repeated.  Any other name is refused (`fields?_of_no_text`). -/
structure Named (names : List String) (fields : List (Bytes × Json Bytes)) : Prop where
  text : ∀ f ∈ fields, ∃ name, f.1 = bytesOf name
  once : ∀ name ∈ names, (fields.map Prod.fst).count (bytesOf name) ≤ 1

/-- The fields state an optional value under a name: a form of the value stands there or, if there
is none, `null` or no field. -/
inductive States (fields : List (Bytes × Json Bytes)) (name : String)
    (form : α → Json Bytes → Prop) : Option α → Prop where
  | value {a : α} {j : Json Bytes} :
      (bytesOf name, j) ∈ fields → form a j → States fields name form (some a)
  | null : (bytesOf name, .null) ∈ fields → States fields name form none
  | omitted : (∀ f ∈ fields, f.1 ≠ bytesOf name) → States fields name form none

/-- A text in a document. -/
def TextForm (s : String) (j : Json Bytes) : Prop := j = .string (bytesOf s)

/-- A number of 32 bits in a document. -/
def SideForm (n : UInt32) (j : Json Bytes) : Prop := j = .nat n.toNat

/-- A stream in a document. -/
inductive TrackForm (t : Track) : Json Bytes → Prop where
  | object {fields : List (Bytes × Json Bytes)} :
      Named ["codec_type", "width", "height"] fields →
      States fields "codec_type" TextForm t.codecType → States fields "width" SideForm t.width →
      States fields "height" SideForm t.height → TrackForm t (.object fields)

/-- A format in a document, with the text of the length. -/
inductive FormatForm (duration : Option String) : Json Bytes → Prop where
  | object {fields : List (Bytes × Json Bytes)} :
      Named ["duration"] fields → States fields "duration" TextForm duration →
      FormatForm duration (.object fields)

/-- The fields state the streams: all of them in order or, if there are none, no field. -/
inductive StatesTracks (fields : List (Bytes × Json Bytes)) : List Track → Prop where
  | listed {tracks : List Track} {items : List (Json Bytes)} :
      (bytesOf "streams", .array items) ∈ fields → List.Forall₂ TrackForm tracks items →
      StatesTracks fields tracks
  | omitted : (∀ f ∈ fields, f.1 ≠ bytesOf "streams") → StatesTracks fields []

/-- A document with the given streams and the given format. -/
inductive DocumentForm (tracks : List Track) (format : Option (Option String)) :
    Json Bytes → Prop where
  | object {fields : List (Bytes × Json Bytes)} :
      Named ["streams", "format"] fields → StatesTracks fields tracks →
      States fields "format" FormatForm format → DocumentForm tracks format (.object fields)

/-- What a probe says of streams and the text of a length. -/
structure Describes (tracks : List Track) (duration : Option String) (p : Probe) : Prop where
  hasVideo : p.hasVideo = true ↔ ∃ t ∈ tracks, t.codecType = some "video"
  hasAudio : p.hasAudio = true ↔ ∃ t ∈ tracks, t.codecType = some "audio"
  /-- The size is that of the first video stream, if it has both sides. -/
  size : ∀ canvas, p.size = some canvas ↔
    ∃ before t after, tracks = before ++ t :: after ∧
      (∀ s ∈ before, s.codecType ≠ some "video") ∧ t.codecType = some "video" ∧
      t.width = some canvas.width ∧ t.height = some canvas.height
  /-- The length is the number that the text stands for, if it is finite and not below zero. -/
  duration : ∀ x, p.duration = some x ↔
    ∃ text, duration = some text ∧ Seconds.Stands (Text.trim text.toList) x ∧
      ∃ negative ticks, x = .finite negative ticks ∧ (negative = true → ticks = 0)

/-! ### Fields -/

/-- Texts with the same bytes are the same. -/
lemma bytesOf_injective : Function.Injective bytesOf := fun s t h => by
  have hs := textOf?_bytesOf s
  rw [h, textOf?_bytesOf] at hs
  exact (Option.some.inj hs).symm

/-- Fields whose names are texts. -/
lemma exists_namedFields? (h : ∀ f ∈ fields, ∃ name, f.1 = bytesOf name) :
    ∃ own : List (String × Json Bytes), namedFields? fields = some own ∧
      fields = own.map fun f => (bytesOf f.1, f.2) := by
  induction fields with
  | nil => exact ⟨[], rfl, rfl⟩
  | cons f fields ih =>
    obtain ⟨⟨name, hname⟩, hfields⟩ := List.forall_mem_cons.1 h
    obtain ⟨own, hown, hmap⟩ := ih hfields
    refine ⟨(name, f.2) :: own, ?_, by rw [List.map_cons, ← hmap, ← hname]⟩
    unfold namedFields? at hown ⊢
    rw [List.mapM_cons, hown, hname, textOf?_bytesOf]
    rfl

/-- An object with a name that is no text is refused. -/
theorem fields?_of_no_text {f : Bytes × Json Bytes} (hf : f ∈ fields) (hname : textOf? f.1 = none) :
    fields? names (.object fields) = none := by
  have hnone : namedFields? fields = none := by
    obtain ⟨before, after, rfl⟩ := List.append_of_mem hf
    have hstop : namedFields? (f :: after) = none := by
      rw [namedFields?, List.mapM_cons, hname]
      rfl
    unfold namedFields? at hstop ⊢
    rw [List.mapM_append, hstop]
    exact Option.bind_fun_none _
  simp only [fields?, hnone, Option.bind_eq_bind, Option.bind_none]

/-- A list of at most one element has no two different ones. -/
lemma eq_of_length_le_one {l : List α} (h : l.length ≤ 1) {a b : α} (ha : a ∈ l) (hb : b ∈ l) :
    a = b := by
  cases l with
  | nil => cases ha
  | cons c l =>
    have hnil : l = [] := List.length_eq_zero_iff.1 (by simpa using h)
    subst hnil
    rw [List.mem_singleton.1 ha, List.mem_singleton.1 hb]

/-- The only value under a name is found. -/
lemma lookup_of_once {own : List (String × Json Bytes)} {j : Json Bytes} (hmem : (name, j) ∈ own)
    (honce : (own.filter fun f => f.1 == name).length ≤ 1) : own.lookup name = some j := by
  cases hfound : own.lookup name with
  | none =>
    have hne := List.lookup_eq_none_iff.1 hfound (name, j) hmem
    exact absurd rfl (bne_iff_ne.1 hne)
  | some j' =>
    obtain ⟨before, after, hown, -⟩ := List.lookup_eq_some_iff.1 hfound
    have hmem' : (name, j') ∈ own := by
      rw [hown]
      exact List.mem_append_right before List.mem_cons_self
    have hfilter (i : Json Bytes) (hi : (name, i) ∈ own) :
        (name, i) ∈ own.filter fun f => f.1 == name :=
      List.mem_filter.2 ⟨hi, beq_self_eq_true name⟩
    rw [(Prod.mk.inj (eq_of_length_le_one honce (hfilter j' hmem') (hfilter j hmem))).2]

/-- What reading finds under the names of fields. -/
structure Finds (names : List String) (fields : List (Bytes × Json Bytes))
    (own : List (String × Json Bytes)) : Prop where
  value : ∀ name ∈ names, ∀ j, (bytesOf name, j) ∈ fields → own.lookup name = some j
  nothing : ∀ name, (∀ f ∈ fields, f.1 ≠ bytesOf name) → own.lookup name = none

/-- The fields of a record are read. -/
lemma Named.exists_fields? (h : Named names fields) :
    ∃ own, fields? names (.object fields) = some own ∧ Finds names fields own := by
  obtain ⟨own, hown, rfl⟩ := exists_namedFields? h.text
  have honce : ∀ name ∈ names, (own.filter fun f => f.1 == name).length ≤ 1 := by
    intro name hname
    have hcount := h.once name hname
    have hsame : ∀ f ∈ own, (f.1 == name) = true ↔ (bytesOf f.1 == bytesOf name) = true := by
      intro f _
      rw [beq_iff_eq, beq_iff_eq, bytesOf_injective.eq_iff]
    rw [List.map_map, List.count, List.countP_map] at hcount
    rw [← List.countP_eq_length_filter, List.countP_congr hsame]
    exact hcount
  refine ⟨own, ?_, fun name hname j hj => ?_, fun name hname => ?_⟩
  · have hall : (names.all fun name => (own.filter fun f => f.1 == name).length ≤ 1) = true := by
      simpa using honce
    simp only [fields?, hown, Option.bind_eq_bind, Option.bind_some, hall, if_true]
  · obtain ⟨f, hf, heq⟩ := List.mem_map.1 hj
    obtain ⟨hname', rfl⟩ := Prod.mk.inj heq
    have hf' : (name, f.2) ∈ own := by
      rwa [← bytesOf_injective hname']
    exact lookup_of_once hf' (honce name hname)
  · refine List.lookup_eq_none_iff.2 fun f hf => bne_iff_ne.2 ?_
    rintro rfl
    exact hname _ (List.mem_map_of_mem hf) rfl

/-- A value that is not `null` is read as it is. -/
lemma optional?_of_ne_null {item : Json Bytes → Option α} {j : Json Bytes} (h : j ≠ .null) :
    optional? item j = (item j).map some := by
  cases j with
  | null => exact absurd rfl h
  | _ => rfl

/-- An optional value is read from the fields that state it. -/
lemma Finds.field?_eq {own : List (String × Json Bytes)} (h : Finds names fields own)
    (hname : name ∈ names) {form : α → Json Bytes → Prop} {o : Option α}
    (hstates : States fields name form o) {item : Json Bytes → Option α}
    (hitem : ∀ a j, form a j → item j = some a ∧ j ≠ .null) : field? own name item = some o := by
  unfold field?
  cases hstates with
  | value hmem hform =>
    obtain ⟨hread, hnull⟩ := hitem _ _ hform
    rw [h.value name hname _ hmem]
    dsimp only
    rw [optional?_of_ne_null hnull, hread]
    rfl
  | null hmem =>
    rw [h.value name hname _ hmem]
    rfl
  | omitted hno => rw [h.nothing name hno]

/-! ### Records -/

/-- A text is read. -/
lemma text?_of_form (s : String) (j : Json Bytes) (h : TextForm s j) :
    text? j = some s ∧ j ≠ .null := by
  cases h
  refine ⟨?_, by simp⟩
  simp only [text?, string?, Option.bind_some, textOf?_bytesOf]

/-- A number of 32 bits is read. -/
lemma side?_of_form (n : UInt32) (j : Json Bytes) (h : SideForm n j) :
    side? j = some n ∧ j ≠ .null := by
  cases h
  refine ⟨?_, by simp [nat]⟩
  have hlt : n.toNat < UInt32.size := n.toNat_lt_size
  simp only [side?, natBelow?, nat?_nat, Option.filter_some, hlt, decide_true, if_true,
    Option.map_some, UInt32.ofNat_toNat]

/-- A stream is read. -/
lemma track?_of_form {t : Track} {j : Json Bytes} (h : TrackForm t j) : track? j = some t := by
  obtain ⟨hnamed, hcodec, hwidth, hheight⟩ := h
  obtain ⟨own, hown, hfinds⟩ := hnamed.exists_fields?
  simp only [track?, hown, hfinds.field?_eq (by simp) hcodec text?_of_form,
    hfinds.field?_eq (by simp) hwidth side?_of_form,
    hfinds.field?_eq (by simp) hheight side?_of_form, Option.bind_eq_bind, Option.bind_some,
    Option.pure_def]

/-- The text of the length is read. -/
lemma durationText?_of_form (d : Option String) (j : Json Bytes) (h : FormatForm d j) :
    durationText? j = some d ∧ j ≠ .null := by
  obtain ⟨hnamed, hduration⟩ := h
  obtain ⟨own, hown, hfinds⟩ := hnamed.exists_fields?
  refine ⟨?_, by simp⟩
  simp only [durationText?, hown, hfinds.field?_eq (by simp) hduration text?_of_form,
    Option.bind_eq_bind, Option.bind_some]

/-- The streams are read in order. -/
lemma mapM_track? {tracks : List Track} {items : List (Json Bytes)}
    (h : List.Forall₂ TrackForm tracks items) : items.mapM track? = some tracks := by
  induction h with
  | nil => rfl
  | cons hform _ ih =>
    rw [List.mapM_cons, track?_of_form hform, ih]
    rfl

/-- The streams are read from the fields that state them. -/
lemma Finds.tracks?_eq {own : List (String × Json Bytes)} (h : Finds names fields own)
    (hname : "streams" ∈ names) {tracks : List Track} (hstates : StatesTracks fields tracks) :
    tracks? own = some tracks := by
  unfold tracks?
  cases hstates with
  | listed hmem hforms =>
    rw [h.value _ hname _ hmem]
    exact mapM_track? hforms
  | omitted hno => rw [h.nothing _ hno]

/-- A document comes to what its streams and its length come to. -/
lemma ofJson?_of_form {tracks : List Track} {format : Option (Option String)} {j : Json Bytes}
    (h : DocumentForm tracks format j) : ofJson? j = some (ofTracks tracks format.join) := by
  obtain ⟨hnamed, htracks, hformat⟩ := h
  obtain ⟨own, hown, hfinds⟩ := hnamed.exists_fields?
  have hjoin : format.getD none = format.join := by cases format <;> rfl
  simp only [ofJson?, hown, hfinds.tracks?_eq (by simp) htracks,
    hfinds.field?_eq (by simp) hformat durationText?_of_form, Option.bind_eq_bind,
    Option.bind_some, Option.pure_def, hjoin]

/-! ### What a document comes to -/

/-- A possible length is a finite number that is not below zero. -/
lemma isLength_iff (x : Seconds) : x.isLength = true ↔
    ∃ negative ticks, x = .finite negative ticks ∧ (negative = true → ticks = 0) := by
  constructor
  · intro h
    cases x with
    | finite negative ticks =>
      refine ⟨negative, ticks, rfl, ?_⟩
      rintro rfl
      simpa [Seconds.isLength] using h
    | infinite => cases h
    | undefined => cases h
  · rintro ⟨negative, ticks, rfl, h⟩
    cases negative with
    | false => rfl
    | true => simp [Seconds.isLength, h rfl]

/-- The length of a text is the number that it stands for, if that is a possible length. -/
lemma length?_eq_some_iff {text : String} {x : Seconds} : length? text = some x ↔
    Seconds.Stands (Text.trim text.toList) x ∧
      ∃ negative ticks, x = .finite negative ticks ∧ (negative = true → ticks = 0) := by
  rw [length?, Option.filter_eq_some_iff, Seconds.ofText?_eq_some_iff, isLength_iff]

/-- What streams and a length come to describes them. -/
theorem describes_ofTracks (tracks : List Track) (duration : Option String) :
    Describes tracks duration (ofTracks tracks duration) where
  hasVideo := by simp [ofTracks, List.find?_isSome]
  hasAudio := by simp [ofTracks]
  size canvas := by
    constructor
    · intro h
      obtain ⟨t, hfind, hsize⟩ := Option.bind_eq_some_iff.1 h
      obtain ⟨hvideo, before, after, htracks, hbefore⟩ := List.find?_eq_some_iff_append.1 hfind
      obtain ⟨width, hwidth, hsize⟩ := Option.bind_eq_some_iff.1 hsize
      obtain ⟨height, hheight, hsize⟩ := Option.bind_eq_some_iff.1 hsize
      cases hsize
      exact ⟨before, t, after, htracks, by simpa using hbefore, by simpa using hvideo, hwidth,
        hheight⟩
    · rintro ⟨before, t, after, htracks, hbefore, hvideo, hwidth, hheight⟩
      have hfind : tracks.find? (fun t => t.codecType = some "video") = some t :=
        List.find?_eq_some_iff_append.2
          ⟨by simpa using hvideo, before, after, htracks, by simpa using hbefore⟩
      simp only [ofTracks, hfind, Option.bind_some, hwidth, hheight, Option.bind_eq_bind,
        Option.pure_def]
  duration x := by
    simp only [ofTracks, Option.bind_eq_some_iff, length?_eq_some_iff]

/-- Every text of a document is read, and gives what describes its streams and its length. -/
theorem ofBytes?_of_isText {tracks : List Track} {format : Option (Option String)} {j : Json Bytes}
    {text : Bytes} (hform : DocumentForm tracks format j) (htext : IsText j text) :
    ∃ p, ofBytes? text = some p ∧ Describes tracks format.join p := by
  refine ⟨ofTracks tracks format.join, ?_, describes_ofTracks tracks format.join⟩
  rw [ofBytes?, read?_eq_some_iff.2 htext, Option.bind_some, ofJson?_of_form hform]

/-- A stream whose sides stand in another order, with a further field and an escape, after a format
that is `null`. -/
theorem ofBytes?_of_isText_video :
    ∃ p, ofBytes? (bytesOf ("\x7b \"format\":null, \"streams\" : [\x7b\"height\":480,\n" ++
        "\"index\":[0,\x7b\x7d], \"codec_type\":\"vid\\u0065o\", \"width\":640\x7d]\x7d")) =
          some p ∧
      Describes [⟨some "video", some 640, some 480⟩] none p := by
  have htrack : TrackForm ⟨some "video", some 640, some 480⟩ (.object [
      (bytesOf "height", .nat 480), (bytesOf "index", .array [.nat 0, .object []]),
      (bytesOf "codec_type", .string (bytesOf "video")), (bytesOf "width", .nat 640)]) :=
    .object ⟨by simp, by decide⟩ (.value (by simp) rfl) (.value (by simp) rfl)
      (.value (by simp) rfl)
  have hform : DocumentForm [⟨some "video", some 640, some 480⟩] none (.object [
      (bytesOf "format", .null), (bytesOf "streams", .array [.object [
        (bytesOf "height", .nat 480), (bytesOf "index", .array [.nat 0, .object []]),
        (bytesOf "codec_type", .string (bytesOf "video")), (bytesOf "width", .nat 640)]])]) :=
    .object ⟨by simp, by decide⟩ (.listed (by simp) (.cons htrack .nil)) (.null (by simp))
  exact ofBytes?_of_isText hform (read?_eq_some_iff.1 (by with_unfolding_all rfl))

end Montage.Probe
