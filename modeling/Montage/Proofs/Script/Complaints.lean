import Montage.Proofs.Script.Validity

/-!
# What builders complain about

A builder fails with an error about one of its keys.  `Attributes.Faulty` lists what that can be,
given attributes whose values have the types of their keys: a word that names no medium, a key that
lacks, or a number that is too large for its key, at the line of the last assignment to the key.  A
value of an unexpected type is not among them, because each reader of a key asks for the type that
the key has.

`Builder.Complains` states this as a law of builders, which goes along chains (`Complains.bind`),
and so it holds for every kind of block (`complains_builder`).
-/

namespace Montage

open Attribute

/-! ### Faults of attributes -/

namespace Attributes

variable {as : Attributes} {key : String} {keys ks ls : List String} {e : Error}

/-- The values have the types of their keys. -/
def Typed (as : Attributes) : Prop := ∀ a ∈ as.entries, a.value.type = valueType a.key

/-- The error says what is wrong with one of the keys. -/
inductive Faulty (as : Attributes) (keys : List String) : Error → Prop
  /-- The word under the key `type` names no medium. -/
  | unknownMedium {token : String} (hkey : "type" ∈ keys)
      (hvalue : as.value? "type" = some (.text token)) (hnone : Medium.ofToken? token = none) :
      Faulty as keys (.unknownKind token as.line)
  /-- Nothing is assigned to the key. -/
  | missing {key : String} (hkey : key ∈ keys) (hnone : as.value? key = none) :
      Faulty as keys (.missingField as.kind key as.line)
  /-- The number that is last assigned to the key is too large for it. -/
  | tooLarge {a : Attribute} {n : UInt64} (hkey : a.key ∈ keys) (hlast : as.find? a.key = some a)
      (hvalue : a.value = .count n) (hlimit : ¬ n.toNat < Kind.countLimit a.key) :
      Faulty as keys (.badLine a.line (.outOfRange a.key n.toNat))

/-- A value that is found is under its key, and of its type. -/
lemma Typed.of_find? (h : as.Typed) {a : Attribute} (ha : as.find? key = some a) :
    a.key = key ∧ a.value.type = valueType key := by
  have hkey : a.key = key := by simpa using List.find?_some ha
  have hmem : a ∈ as.entries := List.mem_reverse.1 (List.mem_of_find?_eq_some ha)
  exact ⟨hkey, hkey ▸ h a hmem⟩

/-- Values keep their types when keys are taken out. -/
lemma Typed.without (h : as.Typed) (keys : List String) : (as.without keys).Typed := fun a ha =>
  h a (List.mem_of_mem_filter ha)

/-- What is wrong with a key after others were taken out was wrong before. -/
lemma Faulty.of_without (hdisjoint : ∀ key ∈ ls, key ∉ ks) (h : (as.without ks).Faulty ls e) :
    as.Faulty (ks ++ ls) e := by
  cases h with
  | unknownMedium hkey hvalue hnone =>
    rw [value?_without (hdisjoint _ hkey)] at hvalue
    exact .unknownMedium (List.mem_append_right _ hkey) hvalue hnone
  | missing hkey hnone =>
    rw [value?_without (hdisjoint _ hkey)] at hnone
    exact .missing (List.mem_append_right _ hkey) hnone
  | tooLarge hkey hlast hvalue hlimit =>
    rw [find?_without (hdisjoint _ hkey)] at hlast
    exact .tooLarge (List.mem_append_right _ hkey) hlast hvalue hlimit

/-- What is wrong with one of some keys is wrong with one of more. -/
lemma Faulty.mono (hsub : ks ⊆ ls) (h : as.Faulty ks e) : as.Faulty ls e := by
  cases h with
  | unknownMedium hkey hvalue hnone => exact .unknownMedium (hsub hkey) hvalue hnone
  | missing hkey hnone => exact .missing (hsub hkey) hnone
  | tooLarge hkey hlast hvalue hlimit => exact .tooLarge (hsub hkey) hlast hvalue hlimit

end Attributes

/-! ### Chains of builders -/

namespace Builder

variable {α β : Type} {b : Builder α} {key : String} {keys ks ls : List String}
  {P : (String → Option Value) → α → Prop}

/-- The builder takes its keys, and when the values have the types of their keys, it only fails with
what is wrong with one of its keys. -/
structure Complains (b : Builder α) (keys : List String) : Prop where
  takes : ∃ P : (String → Option Value) → α → Prop, b.Takes keys P
  faulty : keys.Nodup → ∀ (as : Attributes) (e : Error), as.Typed → b as = .error e →
    as.Faulty keys e

/-- A chain of builders fails where its first link fails, or the second one on what the first one
has left. -/
lemma bind_apply_eq_error {k : α → Builder β} {as : Attributes} {e : Error} :
    (b >>= k) as = .error e ↔
      b as = .error e ∨ ∃ a left, b as = .ok (a, left) ∧ k a left = .error e := by
  have hchain : (b >>= k) as = b as >>= fun made => k made.1 made.2 := rfl
  rw [hchain, bind_eq_error]
  simp

/-- A chain of builders fails with what is wrong with a key of the first one, or with the failure of
the second one, which what the first one has made may explain. -/
lemma Complains.faulty_bind {k : α → Builder β} (hb : b.Complains ks) (htakes : b.Takes ks P)
    (hkeys : ks ⊆ ls) {as : Attributes} {e : Error}
    (hk : ∀ a, P (fun key => as.value? key) a → k a (as.without ks) = .error e → as.Faulty ls e)
    (hnodup : ks.Nodup) (htyped : as.Typed) (herror : (b >>= k) as = .error e) :
    as.Faulty ls e := by
  rcases bind_apply_eq_error.1 herror with herror | ⟨a, left, hmade, herror⟩
  · exact (hb.faulty hnodup as e htyped herror).mono hkeys
  · obtain ⟨ha, rfl⟩ := (htakes.eq_ok hnodup as a left).1 hmade
    exact hk a ha herror

/-- What a builder complains about after keys were taken out was wrong before. -/
lemma Complains.of_without (hb : b.Complains ls) (hnodup : (ks ++ ls).Nodup) {as : Attributes}
    {e : Error} (htyped : as.Typed) (herror : b (as.without ks) = .error e) :
    as.Faulty (ks ++ ls) e := by
  obtain ⟨-, hls, hdisjoint⟩ := List.nodup_append.1 hnodup
  have hfaulty := hb.faulty hls (as.without ks) e (htyped.without ks) herror
  exact hfaulty.of_without fun key hkey hin => hdisjoint key hin key hkey rfl

/-- A chain of builders that complain about their keys complains about all these keys. -/
lemma Complains.bind {k : α → Builder β} (hb : b.Complains ks) (hk : ∀ a, (k a).Complains ls) :
    (b >>= k).Complains (ks ++ ls) := by
  obtain ⟨P, hP⟩ := hb.takes
  choose Q hQ using fun a => (hk a).takes
  refine ⟨⟨_, hP.bind hQ⟩, fun hnodup as e htyped herror => ?_⟩
  have hfirst := (List.nodup_append.1 hnodup).1
  refine hb.faulty_bind hP (List.subset_append_left ks ls) (fun a _ herror => ?_) hfirst htyped
    herror
  exact (hk a).of_without hnodup htyped herror

/-- A plain value is no reason to complain. -/
lemma complains_pure (a : α) : Complains (pure a) [] where
  takes := ⟨_, takes_pure a⟩
  faulty _ as e _ herror := by
    rw [pure_apply] at herror
    cases herror

/-- What a builder makes can be passed through a function. -/
lemma Complains.map (hb : b.Complains ks) (g : α → β) :
    (b >>= fun a => pure (g a)).Complains ks := by
  have hchain := hb.bind fun a => complains_pure (g a)
  rwa [List.append_nil] at hchain

/-! ### Builders of one key -/

/-- What is made of a key that is taken out fails only for a value of another type than that of the
key, or for a number that is too large for it. -/
lemma complains_take {k : Option Attribute → Builder α} (htakes : (take key >>= k).Takes [key] P)
    (hk : ∀ found as e, k found as = .error e → ∃ a, found = some a ∧
      (a.value.type ≠ valueType key ∨ ∃ n, a.value = .count n ∧ ¬ n.toNat < Kind.countLimit key ∧
        e = .badLine a.line (.outOfRange key n.toNat))) :
    (take key >>= k).Complains [key] := by
  refine ⟨⟨P, htakes⟩, fun _ as e htyped herror => ?_⟩
  have hchain : (take key >>= k) as = k (as.find? key) (as.erase key) := rfl
  rw [hchain] at herror
  obtain ⟨a, ha, hreason⟩ := hk _ _ _ herror
  obtain ⟨rfl, htype⟩ := htyped.of_find? ha
  rcases hreason with hother | ⟨n, hvalue, hlimit, rfl⟩
  · exact absurd htype hother
  · exact .tooLarge List.mem_cons_self ha hvalue hlimit

/-- A text is never refused. -/
lemma complains_text (hkey : valueType key = .text) : (text key).Complains [key] := by
  refine complains_take (takes_text key) fun found as e herror => ?_
  rcases found with _ | ⟨name, value, line⟩
  · cases herror
  · cases value with
    | text s => cases herror
    | _ => exact ⟨_, rfl, .inl (by simp [Value.type, hkey])⟩

/-- A truth value is never refused. -/
lemma complains_flag (hkey : valueType key = .flag) : (flag key).Complains [key] := by
  refine complains_take (takes_flag key) fun found as e herror => ?_
  rcases found with _ | ⟨name, value, line⟩
  · cases herror
  · cases value with
    | flag b => cases herror
    | _ => exact ⟨_, rfl, .inl (by simp [Value.type, hkey])⟩

/-- A timestamp is never refused. -/
lemma complains_time (hkey : valueType key = .time) : (time key).Complains [key] := by
  refine complains_take (takes_time key) fun found as e herror => ?_
  rcases found with _ | ⟨name, value, line⟩
  · cases herror
  · cases value with
    | time t => cases herror
    | _ => exact ⟨_, rfl, .inl (by simp [Value.type, hkey])⟩

/-- A number is refused when it is not below its limit. -/
lemma complains_countBelow {make : UInt64 → α} (hkey : valueType key = .count) :
    (countBelow (Kind.countLimit key) make key).Complains [key] := by
  refine complains_take (takes_countBelow _ make key) fun found as e herror => ?_
  rcases found with _ | ⟨name, value, line⟩
  · cases herror
  · cases value with
    | count n =>
      by_cases hlimit : n.toNat < Kind.countLimit key
      · simp only [if_pos hlimit] at herror
        cases herror
      · simp only [if_neg hlimit] at herror
        cases herror
        exact ⟨_, rfl, .inr ⟨n, rfl, hlimit, rfl⟩⟩
    | _ => exact ⟨_, rfl, .inl (by simp [Value.type, hkey])⟩

/-- A number of 32 bits is refused when it is not below its limit. -/
lemma complains_count32 (hkey : valueType key = .count)
    (hlimit : Kind.countLimit key = UInt32.size) : (count32 key).Complains [key] := by
  unfold count32
  rw [← hlimit]
  exact complains_countBelow hkey

/-- A number of eight bits is refused when it is not below its limit. -/
lemma complains_count8 (hkey : valueType key = .count) (hlimit : Kind.countLimit key = UInt8.size) :
    (count8 key).Complains [key] := by
  unfold count8
  rw [← hlimit]
  exact complains_countBelow hkey

/-- A number of 64 bits is refused when it is not below its limit. -/
lemma complains_count64 (hkey : valueType key = .count)
    (hlimit : Kind.countLimit key = UInt64.size) : (count64 key).Complains [key] := by
  unfold count64
  rw [← hlimit]
  exact complains_countBelow hkey

/-- A list of words is never refused. -/
lemma complains_list (hkey : valueType key = .text) : (list key).Complains [key] :=
  (complains_text hkey).map _

/-- A key that lacks is reported, with the kind and the line of the block. -/
lemma faulty_of_missing {as : Attributes} {e : Error} (hkey : key ∈ ls)
    (hnone : as.value? key = none) (herror : (missing key : Builder α) (as.without ks) = .error e) :
    as.Faulty ls e := by
  unfold missing at herror
  cases herror
  exact .missing hkey hnone

/-- A key that is required is reported when it lacks. -/
lemma Complains.required {read : String → Builder (Option α)}
    {P : (String → Option Value) → Option α → Prop} (h : (read key).Complains [key])
    (htakes : (read key).Takes [key] P) (hnone : ∀ v, P v none → v key = none) :
    (Builder.required read key).Complains [key] := by
  refine ⟨⟨_, htakes.required⟩, fun hnodup as e htyped herror => ?_⟩
  refine h.faulty_bind htakes (List.Subset.refl _) (fun found hfound herror => ?_) hnodup htyped
    herror
  cases found with
  | none => exact faulty_of_missing List.mem_cons_self (hnone _ hfound) herror
  | some a => cases herror

/-- A text that is required is reported when it lacks. -/
lemma complains_requiredText (hkey : valueType key = .text) :
    (required text key).Complains [key] :=
  (complains_text hkey).required (takes_text key) fun _ hv => hv

/-- A list of words that is required is reported when it lacks. -/
lemma complains_requiredList (hkey : valueType key = .text) :
    (required list key).Complains [key] := by
  refine (complains_list hkey).required (takes_list key) fun v hv => ?_
  obtain ⟨s, hs, hnone⟩ := hv
  rw [hs, Option.map_eq_none_iff.1 hnone.symm, Option.map_none]

end Builder

/-! ### Kinds of blocks -/

namespace Operation

open Builder

variable {α : Type} {ls : List String}

/-- A word that names no medium is reported. -/
lemma complains_medium {k : Medium → Builder α} (hk : ∀ m, (k m).Complains ls) :
    (required text "type" >>= fun token => readMedium token >>= k).Complains ("type" :: ls) := by
  choose Q hQ using fun m => (hk m).takes
  have hmedium (token : String) := (takes_readMedium token).bind hQ
  have htext := takes_requiredText "type"
  refine ⟨⟨_, htext.bind hmedium⟩, fun hnodup as e htyped herror => ?_⟩
  refine (complains_requiredText (by decide)).faulty_bind htext (by simp)
    (fun token hvalue herror => ?_) (List.nodup_singleton _) htyped herror
  rcases bind_apply_eq_error.1 herror with herror | ⟨m, left, hmade, herror⟩
  · unfold readMedium at herror
    split at herror
    · cases herror
    · rename_i hnone
      cases herror
      exact .unknownMedium List.mem_cons_self hvalue hnone
  · obtain ⟨-, rfl⟩ := ((takes_readMedium token).eq_ok List.nodup_nil _ m left).1 hmade
    rw [Attributes.without_nil] at herror
    exact (hk m).of_without hnodup htyped herror

/-- A side of a canvas that lacks is reported when the other one is there. -/
lemma complains_readCanvas : readCanvas.Complains ["width", "height"] := by
  have hwidth := takes_count32 "width"
  have hheight := takes_count32 "height"
  refine ⟨⟨_, takes_readCanvas⟩, fun hnodup as e htyped herror => ?_⟩
  refine (complains_count32 (by decide) (by decide)).faulty_bind hwidth (by simp)
    (fun width hwidth herror => ?_) (List.nodup_singleton _) htyped herror
  rcases bind_apply_eq_error.1 herror with herror | ⟨height, left, hmade, herror⟩
  · exact (complains_count32 (by decide) (by decide)).of_without hnodup htyped herror
  · have hkept : (as.without ["width"]).value? "height" = as.value? "height" :=
      Attributes.value?_without (by decide)
    obtain ⟨hheight, rfl⟩ := (hheight.eq_ok (List.nodup_singleton _) _ height left).1 hmade
    rw [Attributes.without_without] at herror
    dsimp only at hwidth hheight
    rw [hkept] at hheight
    cases width with
    | none =>
      cases height with
      | none => cases herror
      | some h => exact faulty_of_missing (by decide) hwidth herror
    | some w =>
      cases height with
      | none => exact faulty_of_missing (by decide) hheight herror
      | some h => cases herror

/-- An effect complains about the keys that every effect has and about its own. -/
lemma complains_buildEffect {own : Builder Effect} {keys : List String} (h : own.Complains keys) :
    (buildEffect own).Complains ("clip" :: "out" :: keys) := by
  refine (complains_requiredText (by decide)).bind fun input => ?_
  refine (complains_requiredText (by decide)).bind fun output => ?_
  exact h.map _

/-- The builder of a kind complains about the keys of the kind. -/
theorem complains_builder (k : Kind) : (builder k).Complains k.keys := by
  cases k with
  | define =>
    refine (complains_requiredText (by decide)).bind fun name => ?_
    refine complains_medium fun medium => ?_
    refine (complains_requiredText (by decide)).bind fun source => ?_
    refine (complains_flag (by decide)).bind fun sound => ?_
    refine (complains_count64 (by decide) (by decide)).bind fun duration => ?_
    exact (complains_text (by decide)).map _
  | resize =>
    refine complains_buildEffect ?_
    refine (complains_count32 (by decide) (by decide)).bind fun height => ?_
    exact (complains_count32 (by decide) (by decide)).map _
  | position =>
    refine complains_buildEffect ?_
    refine (complains_count32 (by decide) (by decide)).bind fun x => ?_
    exact (complains_count32 (by decide) (by decide)).map _
  | margin =>
    refine complains_buildEffect ?_
    refine (complains_count32 (by decide) (by decide)).bind fun size => ?_
    refine (complains_count32 (by decide) (by decide)).bind fun opacity => ?_
    refine (complains_count8 (by decide) (by decide)).bind fun red => ?_
    refine (complains_count8 (by decide) (by decide)).bind fun green => ?_
    exact (complains_count8 (by decide) (by decide)).map _
  | concatenate =>
    refine (complains_requiredText (by decide)).bind fun output => ?_
    exact (complains_requiredList (by decide)).map _
  | compose =>
    refine (complains_requiredText (by decide)).bind fun output => ?_
    refine (complains_requiredList (by decide)).bind fun clips => ?_
    exact complains_readCanvas.map _
  | setAudio =>
    refine (complains_requiredText (by decide)).bind fun output => ?_
    refine (complains_requiredText (by decide)).bind fun picture => ?_
    exact (complains_requiredText (by decide)).map _
  | subclip =>
    refine (complains_requiredText (by decide)).bind fun input => ?_
    refine ((complains_time (by decide)).required (takes_time "start") fun _ hv => hv).bind
      fun start => ?_
    refine (complains_time (by decide)).bind fun stop => ?_
    exact (complains_requiredText (by decide)).map _
  | deliver =>
    refine (complains_requiredText (by decide)).bind fun input => ?_
    refine (complains_requiredText (by decide)).bind fun destination => ?_
    refine ((complains_count32 (by decide) (by decide)).required (takes_count32 "fps")
      fun _ hv => hv).bind fun fps => ?_
    refine (complains_requiredText (by decide)).bind fun codec => ?_
    refine (complains_text (by decide)).bind fun preset => ?_
    refine (complains_count32 (by decide) (by decide)).bind fun threads => ?_
    exact (complains_list (by decide)).map _

end Operation

end Montage
