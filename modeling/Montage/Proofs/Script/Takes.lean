import Mathlib.Data.List.Nodup
import Montage.Proofs.Outcome
import Montage.Script.Attributes

/-!
# What builders take

A builder takes the keys of its block out of the attributes, one after another.  `Builder.Takes`
says exactly when it succeeds, in terms of the values that are assigned to its keys, and what it
leaves then: the attributes without these keys.

Each reader of one key has such a law, and a chain of builders takes the keys of its links
(`Takes.bind`), as long as no key occurs twice.
-/

namespace Montage

/-- The words of a text. -/
def Text.wordsOf (s : String) : List String := (Text.words s.toList).map String.ofList

/-! ### The values of keys -/

namespace Attributes

variable {as : Attributes} {key : String} {keys ks ls : List String}

/-- The value of the last assignment to a key. -/
def value? (key : String) (as : Attributes) : Option Value := (as.find? key).map (·.value)

/-- What is left without the assignments to some keys. -/
def without (keys : List String) (as : Attributes) : Attributes :=
  { as with entries := as.entries.filter fun a => !keys.contains a.key }

/-- Nothing is taken out without a key. -/
lemma without_nil : as.without [] = as := by
  simp [without]

/-- A key that is taken out is one key less. -/
lemma erase_eq_without : as.erase key = as.without [key] := by
  unfold erase without
  congr 2
  funext a
  rw [List.contains_cons, List.contains_nil, Bool.or_false]

/-- Keys can be taken out one after another. -/
lemma without_without : (as.without ks).without ls = as.without (ks ++ ls) := by
  unfold without
  dsimp only
  rw [List.filter_filter]
  congr 2
  funext a
  rw [List.contains_append, Bool.not_or, Bool.and_comm]

/-- The last assignment to a key is found when other keys are taken out. -/
lemma find?_without (hkey : key ∉ keys) : (as.without keys).find? key = as.find? key := by
  unfold find? without
  dsimp only
  rw [← List.filter_reverse, List.find?_filter]
  congr 1
  funext a
  by_cases ha : a.key = key
  · simp [ha, hkey]
  · simp [ha]

/-- Keys that are taken out take no other key with them. -/
lemma value?_without (hkey : key ∉ keys) : (as.without keys).value? key = as.value? key := by
  unfold value?
  rw [find?_without hkey]

end Attributes

/-! ### Chains of builders -/

namespace Builder

variable {α β : Type} {keys ks ls : List String}

/-- The builder makes `a` exactly when the values of its keys are related to `a`, and it leaves the
attributes without these keys. -/
structure Takes (b : Builder α) (keys : List String) (P : (String → Option Value) → α → Prop) :
    Prop where
  eq_ok : keys.Nodup → ∀ (as : Attributes) (a : α) (left : Attributes),
    b as = .ok (a, left) ↔ P (fun key => as.value? key) a ∧ left = as.without keys
  /-- Other keys have no part in this. -/
  local_keys : ∀ v w : String → Option Value, (∀ key ∈ keys, v key = w key) → ∀ a, P v a → P w a

namespace Takes

variable {b : Builder α} {P P' : (String → Option Value) → α → Prop}

/-- The relation can be put in another way. -/
lemma congr (h : b.Takes keys P) (hP : ∀ v a, P v a ↔ P' v a) : b.Takes keys P' where
  eq_ok hnodup as a left := by rw [h.eq_ok hnodup, hP]
  local_keys v w hvw a ha := (hP w a).1 (h.local_keys v w hvw a ((hP v a).2 ha))

/-- In a chain of two builders, the second one takes its keys out of what the first one has left. -/
lemma bind {k : α → Builder β} {Q : α → (String → Option Value) → β → Prop} (hb : b.Takes ks P)
    (hk : ∀ a, (k a).Takes ls (Q a)) :
    Takes (b >>= k) (ks ++ ls) fun v c => ∃ a, P v a ∧ Q a v c where
  eq_ok hnodup as c left := by
    obtain ⟨hks, hls, hdisjoint⟩ := List.nodup_append.1 hnodup
    -- the second builder finds its keys as they were: no key is taken twice
    have hkept : ∀ key ∈ ls, (as.without ks).value? key = as.value? key := fun key hkey =>
      Attributes.value?_without fun hin => hdisjoint key hin key hkey rfl
    have hchain : (b >>= k) as = b as >>= fun r => k r.1 r.2 := rfl
    rw [hchain, bind_eq_ok]
    constructor
    · rintro ⟨⟨a, mid⟩, hmid, hleft⟩
      obtain ⟨ha, rfl⟩ := (hb.eq_ok hks as a mid).1 hmid
      obtain ⟨hc, rfl⟩ := ((hk a).eq_ok hls _ c left).1 hleft
      exact ⟨⟨a, ha, (hk a).local_keys _ _ hkept c hc⟩, Attributes.without_without⟩
    · rintro ⟨⟨a, ha, hc⟩, rfl⟩
      refine ⟨(a, as.without ks), (hb.eq_ok hks as a _).2 ⟨ha, rfl⟩, ?_⟩
      have hkept' := (hk a).local_keys _ _ (fun key hkey => (hkept key hkey).symm) c hc
      exact ((hk a).eq_ok hls _ c _).2 ⟨hkept', Attributes.without_without.symm⟩
  local_keys v w hvw c := by
    rintro ⟨a, ha, hc⟩
    refine ⟨a, hb.local_keys v w (fun key hkey => ?_) a ha,
      (hk a).local_keys v w (fun key hkey => ?_) c hc⟩
    · exact hvw key (List.mem_append_left _ hkey)
    · exact hvw key (List.mem_append_right _ hkey)

end Takes

/-- A plain value leaves the attributes as they are. -/
lemma pure_apply (a : α) (as : Attributes) : (pure a : Builder α) as = .ok (a, as) := rfl

/-- A plain value takes nothing. -/
lemma takes_pure (a : α) : Takes (pure a) [] fun _ c => c = a where
  eq_ok _ as c left := by
    rw [pure_apply, Attributes.without_nil, Except.ok.injEq, Prod.mk.injEq, eq_comm (a := a),
      eq_comm (a := as)]
  local_keys _ _ _ _ ha := ha

/-- What a builder makes can be passed through a function. -/
lemma Takes.map {b : Builder α} {P : (String → Option Value) → α → Prop} (hb : b.Takes keys P)
    (g : α → β) : Takes (b >>= fun a => pure (g a)) keys fun v c => ∃ a, P v a ∧ c = g a := by
  have hchain := hb.bind fun a => takes_pure (g a)
  rwa [List.append_nil] at hchain

/-! ### Builders of one key -/

variable {key : String}

/-- What is made of a key that is taken out is made of its value, when what one goes on to does not
look at the other attributes. -/
lemma takes_take {k : Option Attribute → Builder α} {P : Option Value → α → Prop}
    (hk : ∀ found as a left,
      k found as = .ok (a, left) ↔ P (found.map (·.value)) a ∧ left = as) :
    Takes (take key >>= k) [key] fun v => P (v key) where
  eq_ok _ as a left := by
    have hchain : (take key >>= k) as = k (as.find? key) (as.erase key) := rfl
    rw [hchain, hk, Attributes.erase_eq_without]
    rfl
  local_keys v w hvw a ha := hvw key List.mem_cons_self ▸ ha

/-- A text is taken. -/
lemma takes_text (key : String) : Takes (text key) [key] fun v s => v key = s.map .text := by
  refine takes_take (P := fun x (s : Option String) => x = s.map .text) fun found as s left => ?_
  rcases found with _ | ⟨name, value, line⟩
  · cases s <;> simp [pure_apply, eq_comm]
  · cases value <;> cases s <;> simp [wrongType, pure_apply, eq_comm]

/-- A truth value is taken. -/
lemma takes_flag (key : String) : Takes (flag key) [key] fun v b => v key = b.map .flag := by
  refine takes_take (P := fun x (b : Option Bool) => x = b.map .flag) fun found as b left => ?_
  rcases found with _ | ⟨name, value, line⟩
  · cases b <;> simp [pure_apply, eq_comm]
  · cases value <;> cases b <;> simp [wrongType, pure_apply, eq_comm]

/-- A timestamp is taken. -/
lemma takes_time (key : String) : Takes (time key) [key] fun v t => v key = t.map .time := by
  refine takes_take (P := fun x (t : Option Timestamp) => x = t.map .time) fun found as t left => ?_
  rcases found with _ | ⟨name, value, line⟩
  · cases t <;> simp [pure_apply, eq_comm]
  · cases value <;> cases t <;> simp [wrongType, pure_apply, eq_comm]

/-- A number is taken when it is below the limit. -/
lemma takes_countBelow (limit : Nat) (make : UInt64 → α) (key : String) :
    Takes (countBelow limit make key) [key] fun v c => v key = none ∧ c = none ∨
      ∃ n, v key = some (.count n) ∧ n.toNat < limit ∧ c = some (make n) := by
  refine takes_take (P := fun x c => x = none ∧ c = none ∨
    ∃ n, x = some (.count n) ∧ n.toNat < limit ∧ c = some (make n)) fun found as c left => ?_
  rcases found with _ | ⟨name, value, line⟩
  · simp [pure_apply, eq_comm]
  · cases value with
    | count n =>
      by_cases hlimit : n.toNat < limit
      · simp [hlimit, pure_apply, eq_comm]
      · have hfails : (throw (.badLine line (.outOfRange key n.toNat)) : Builder (Option α)) as =
            .error (.badLine line (.outOfRange key n.toNat)) := rfl
        simp [hlimit, hfails]
    | _ => simp [wrongType]

/-- A number is taken in another type of numbers, which has the numbers below the limit. -/
lemma takes_narrow {limit : Nat} {make : UInt64 → α} {widen : α → UInt64}
    (hmake : ∀ n, n.toNat < limit → widen (make n) = n)
    (hwiden : ∀ m, (widen m).toNat < limit ∧ make (widen m) = m) (key : String) :
    Takes (countBelow limit make key) [key] fun v c => v key = c.map fun m => .count (widen m) := by
  refine (takes_countBelow limit make key).congr fun v c => ?_
  cases c with
  | none => simp
  | some m =>
    have hfits (n : UInt64) : n.toNat < limit ∧ m = make n ↔ n = widen m := by
      constructor
      · rintro ⟨hlt, rfl⟩
        exact (hmake n hlt).symm
      · rintro rfl
        exact ⟨(hwiden m).1, (hwiden m).2.symm⟩
    simp [hfits]

/-- A number that fits 32 bits is kept when it is cut to them. -/
lemma toUInt64_toUInt32 {n : UInt64} (h : n.toNat < UInt32.size) : n.toUInt32.toUInt64 = n :=
  UInt64.toNat_inj.1 (by simpa using Nat.mod_eq_of_lt h)

/-- A number that fits eight bits is kept when it is cut to them. -/
lemma toUInt64_toUInt8 {n : UInt64} (h : n.toNat < UInt8.size) : n.toUInt8.toUInt64 = n :=
  UInt64.toNat_inj.1 (by simpa using Nat.mod_eq_of_lt h)

/-- A number of 64 bits is taken. -/
lemma takes_count64 (key : String) : Takes (count64 key) [key] fun v n => v key = n.map .count :=
  @takes_narrow _ _ id id (fun _ _ => rfl) (fun m => ⟨m.toNat_lt_size, rfl⟩) key

/-- A number of 32 bits is taken. -/
lemma takes_count32 (key : String) :
    Takes (count32 key) [key] fun v n => v key = n.map fun m => .count m.toUInt64 := by
  refine takes_narrow (fun n hn => toUInt64_toUInt32 hn) (fun m => ?_) key
  exact ⟨by simpa using m.toNat_lt_size, by simp⟩

/-- A number of eight bits is taken. -/
lemma takes_count8 (key : String) :
    Takes (count8 key) [key] fun v n => v key = n.map fun m => .count m.toUInt64 := by
  refine takes_narrow (fun n hn => toUInt64_toUInt8 hn) (fun m => ?_) key
  exact ⟨by simpa using m.toNat_lt_size, by simp⟩

/-- A list of words is taken. -/
lemma takes_list (key : String) : Takes (list key) [key] fun v ws =>
    ∃ s : Option String, v key = s.map .text ∧ ws = s.map Text.wordsOf :=
  (takes_text key).map _

/-- Nothing is made of a key that is missing. -/
lemma takes_missing (key : String) : Takes (missing key : Builder α) [] fun _ _ => False where
  eq_ok _ as a left := by simp [missing]
  local_keys _ _ _ _ hfalse := hfalse

/-- What is required is taken when it is there. -/
lemma Takes.required {read : String → Builder (Option α)}
    {P : (String → Option Value) → Option α → Prop} (h : (read key).Takes keys P) :
    (Builder.required read key).Takes keys fun v a => P v (some a) := by
  have hchain : (Builder.required read key).Takes (keys ++ []) fun v a =>
      ∃ found, P v found ∧ found = some a := by
    refine h.bind fun found => ?_
    cases found with
    | none => exact (takes_missing key).congr fun _ _ => by simp
    | some a => exact (takes_pure a).congr fun _ _ => by simp [eq_comm]
  rw [List.append_nil] at hchain
  exact hchain.congr fun v a => by simp

/-- A text that is required is taken. -/
lemma takes_requiredText (key : String) :
    Takes (required text key) [key] fun v s => v key = some (.text s) :=
  (takes_text key).required

/-- A list of words that is required is taken. -/
lemma takes_requiredList (key : String) : Takes (required list key) [key] fun v ws =>
    ∃ s, v key = some (.text s) ∧ ws = Text.wordsOf s := by
  refine (takes_list key).required.congr fun v ws => ?_
  constructor
  · rintro ⟨s, hs, heq⟩
    obtain ⟨s, rfl, rfl⟩ := Option.map_eq_some_iff.1 heq.symm
    exact ⟨s, hs, rfl⟩
  · rintro ⟨s, hs, rfl⟩
    exact ⟨some s, hs, rfl⟩

end Builder

end Montage
