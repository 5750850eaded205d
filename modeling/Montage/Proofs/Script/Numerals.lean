import Mathlib.Data.List.Induction
import Mathlib.Data.Nat.Digits.Defs
import Montage.Proofs.Script.Assignment

/-!
# Numbers and timestamps in scripts

A number is written as a numeral: one or more decimal digits, with any number of leading zeros.  A
timestamp is written as three numerals with colons between them.  Keys of these types accept exactly
such texts, as long as the numbers fit 64 bits, and get the values of the numerals
(`readCount?_eq_some_iff`, `readTime?_eq_some_iff`).

The digits of a numeral without its leading zeros are the decimal digits of its value
(`Numeral.digits_eq`), so numerals of one value differ in leading zeros alone.
-/

namespace Montage.Attribute

/-! ### Numerals -/

/-- The value of a decimal digit. -/
def digitValue (c : Char) : Nat := c.toNat - '0'.toNat

/-- The value of digits: each counts as often as its place says, the last one once. -/
def decimalValue (cs : List Char) : Nat := Nat.ofDigits 10 (cs.reverse.map digitValue)

/-- The text is one or more decimal digits of ASCII, and their value is the number. -/
structure Numeral (cs : List Char) (n : Nat) : Prop where
  nonempty : cs ≠ []
  digits : ∀ c ∈ cs, c.isDigit = true
  value : decimalValue cs = n

/-- The text is a numeral for each part of the timestamp, with colons between them. -/
inductive TimeNumerals : List Char → Timestamp → Prop
  | parts {hours minutes seconds : List Char} {t : Timestamp} (hhours : Numeral hours t.hours.toNat)
      (hminutes : Numeral minutes t.minutes.toNat) (hseconds : Numeral seconds t.seconds.toNat) :
      TimeNumerals (hours ++ ':' :: (minutes ++ ':' :: seconds)) t

variable {cs ds : List Char} {n m : Nat}

/-- Reading digits from the left, ten times what was read and the next digit, gives their value. -/
lemma ofDigitChars_eq_decimalValue (cs : List Char) :
    Nat.ofDigitChars 10 cs 0 = decimalValue cs := by
  induction cs using List.reverseRecOn with
  | nil => rfl
  | append_singleton cs c ih =>
    have hlast : decimalValue (cs ++ [c]) = digitValue c + 10 * decimalValue cs := by
      unfold decimalValue
      rw [List.reverse_append, List.reverse_singleton, List.singleton_append, List.map_cons,
        Nat.ofDigits_cons]
    rw [Nat.ofDigitChars_append, ih, Nat.ofDigitChars_cons, Nat.ofDigitChars_nil, hlast,
      Nat.add_comm]
    rfl

/-- A number is read from a text exactly when the text is a numeral of the number. -/
theorem readCount?_eq_some_iff {n : UInt64} : readCount? cs = some n ↔ Numeral cs n.toNat := by
  constructor
  · intro h
    unfold readCount? at h
    dsimp only at h
    split at h
    · rename_i hall
      obtain ⟨hne, hdigits, hlimit⟩ := hall
      cases h
      refine ⟨hne, by simpa using hdigits, ?_⟩
      rw [← ofDigitChars_eq_decimalValue, UInt64.toNat_ofNat', Nat.mod_eq_of_lt hlimit]
    · cases h
  · rintro ⟨hne, hdigits, hvalue⟩
    rw [← ofDigitChars_eq_decimalValue] at hvalue
    exact readCount?_of_digits hne hdigits hvalue

/-- A numeral has no colon. -/
lemma Numeral.no_colon (h : Numeral cs n) : ∀ c ∈ cs, decide (c = ':') = false := by
  intro c hc
  refine decide_eq_false ?_
  rintro rfl
  have hdigit := h.digits _ hc
  revert hdigit
  decide

/-- The parts of a text between colons. -/
def parts (cs : List Char) : List (List Char) := Text.splitAll (fun c => c = ':') cs

/-- A numeral is one part. -/
lemma Numeral.parts_eq (h : Numeral cs n) : parts cs = [cs] :=
  Text.splitAll_eq_singleton h.no_colon

/-- Three numerals with colons between them are three parts. -/
lemma parts_of_numerals {hours minutes seconds : List Char} {h m s : Nat}
    (hhours : Numeral hours h) (hminutes : Numeral minutes m) (hseconds : Numeral seconds s) :
    parts (hours ++ ':' :: (minutes ++ ':' :: seconds)) = [hours, minutes, seconds] := by
  unfold parts
  rw [Text.splitAll_append_cons hhours.no_colon (by decide),
    Text.splitAll_append_cons hminutes.no_colon (by decide),
    Text.splitAll_eq_singleton hseconds.no_colon]

/-- A timestamp is read from a text exactly when the text has a numeral for each part of it. -/
theorem readTime?_eq_some_iff {t : Timestamp} : readTime? cs = some t ↔ TimeNumerals cs t := by
  constructor
  · intro h
    unfold readTime? at h
    split at h
    · rename_i hours minutes seconds hparts
      obtain ⟨h', hhours, h⟩ := Option.bind_eq_some_iff.1 h
      obtain ⟨m', hminutes, h⟩ := Option.bind_eq_some_iff.1 h
      obtain ⟨s', hseconds, h⟩ := Option.bind_eq_some_iff.1 h
      cases h
      have hjoined : [':'].intercalate [hours, minutes, seconds] = cs := by
        rw [← hparts]
        exact Text.intercalate_splitAll ':' cs
      have hlist : [':'].intercalate [hours, minutes, seconds] =
          hours ++ ':' :: (minutes ++ ':' :: seconds) := by simp [List.intercalate_cons_cons]
      rw [← hjoined, hlist]
      exact .parts (readCount?_eq_some_iff.1 hhours) (readCount?_eq_some_iff.1 hminutes)
        (readCount?_eq_some_iff.1 hseconds)
    · cases h
  · rintro ⟨hhours, hminutes, hseconds⟩
    have hparts := parts_of_numerals hhours hminutes hseconds
    unfold parts at hparts
    unfold readTime?
    rw [hparts]
    dsimp only
    rw [readCount?_eq_some_iff.2 hhours, readCount?_eq_some_iff.2 hminutes,
      readCount?_eq_some_iff.2 hseconds]
    rfl

/-! ### Leading zeros -/

/-- The digits after the leading zeros. -/
def significant (cs : List Char) : List Char := cs.dropWhile fun c => c = '0'

/-- A decimal digit is found from its value. -/
lemma ofNat_digitValue {c : Char} (h : c.isDigit = true) :
    Char.ofNat (digitValue c + '0'.toNat) = c := by
  have hzero : '0'.toNat ≤ c.toNat := (Text.toNat_of_isDigit h).1
  unfold digitValue
  rw [Nat.sub_add_cancel hzero, Char.ofNat_toNat]

/-- Leading zeros do not change the value. -/
lemma decimalValue_significant (cs : List Char) :
    decimalValue (significant cs) = decimalValue cs := by
  have hzeros : ((cs.takeWhile fun c => c = '0').reverse.map digitValue) =
      List.replicate (cs.takeWhile fun c => c = '0').length 0 := by
    refine List.eq_replicate_iff.2 ⟨by simp, fun d hd => ?_⟩
    obtain ⟨c, hc, rfl⟩ := List.mem_map.1 hd
    have hzero : c = '0' := by simpa using List.mem_takeWhile_imp (List.mem_reverse.1 hc)
    rw [hzero]
    rfl
  have hsplit : (cs.takeWhile fun c => c = '0') ++ significant cs = cs :=
    List.takeWhile_append_dropWhile
  conv_rhs => rw [← hsplit]
  unfold decimalValue
  rw [List.reverse_append, List.map_append, hzeros, Nat.ofDigits_append_replicate_zero]

/-- The digits of a numeral after its leading zeros are the decimal digits of its value. -/
lemma Numeral.digits_eq (h : Numeral cs n) :
    (significant cs).reverse.map digitValue = Nat.digits 10 n := by
  have hdigits : ∀ c ∈ significant cs, c.isDigit = true := fun c hc =>
    h.digits c ((List.dropWhile_sublist _).subset hc)
  have hbelow : ∀ d ∈ (significant cs).reverse.map digitValue, d < 10 := by
    intro d hd
    obtain ⟨c, hc, rfl⟩ := List.mem_map.1 hd
    have hrange := Text.toNat_of_isDigit (hdigits c (List.mem_reverse.1 hc))
    have hzero : '0'.toNat = 0x30 := rfl
    unfold digitValue
    omega
  have hlead : ∀ hne : (significant cs).reverse.map digitValue ≠ [],
      ((significant cs).reverse.map digitValue).getLast hne ≠ 0 := by
    intro hne
    have hnil : significant cs ≠ [] := by simpa using hne
    rw [List.getLast_map, List.getLast_reverse]
    intro hvalue
    have hdigit := ofNat_digitValue (hdigits _ (List.head_mem hnil))
    rw [hvalue] at hdigit
    have hfirst := List.head_dropWhile_not (fun c => decide (c = '0')) hnil
    exact of_decide_eq_false hfirst hdigit.symm
  rw [← h.value, ← decimalValue_significant]
  exact (Nat.digits_ofDigits 10 (by decide) _ hbelow hlead).symm

/-- Numerals have the same value exactly when they differ in leading zeros alone. -/
lemma Numeral.value_eq_iff (hc : Numeral cs n) (hd : Numeral ds m) :
    n = m ↔ significant cs = significant ds := by
  have hback {es : List Char} {k : Nat} (h : Numeral es k) :
      ((significant es).reverse.map digitValue).map (fun d => Char.ofNat (d + '0'.toNat)) =
        (significant es).reverse := by
    rw [List.map_map]
    refine (List.map_congr_left fun c hc => ?_).trans (List.map_id _)
    exact ofNat_digitValue (h.digits c ((List.dropWhile_sublist _).subset (List.mem_reverse.1 hc)))
  constructor
  · rintro rfl
    have hsame : (significant cs).reverse = (significant ds).reverse := by
      rw [← hback hc, ← hback hd, hc.digits_eq, hd.digits_eq]
    exact List.reverse_injective hsame
  · intro hsame
    rw [← hc.value, ← hd.value, ← decimalValue_significant, hsame, decimalValue_significant]

/-! ### Values of keys -/

/-- The texts differ in leading zeros alone, those of their parts between colons included. -/
def SameButZeros (raw raw' : String) : Prop :=
  (parts raw.toList).map significant = (parts raw'.toList).map significant

variable {key raw raw' : String} {value value' : Value}

/-- A key of numbers accepts the numerals of numbers of 64 bits, and gets their values. -/
lemma readValue_count_iff (hkey : valueType key = .count) :
    readValue key raw = .ok value ↔
      ∃ n, Numeral raw.toList n ∧ n < UInt64.size ∧ value = .count (UInt64.ofNat n) := by
  have hread : readValue key raw = .ok value ↔
      ∃ n, readCount? raw.toList = some n ∧ value = .count n := by
    unfold readValue
    rw [hkey]
    cases readCount? raw.toList with
    | none => simp
    | some n => simp [eq_comm]
  rw [hread]
  constructor
  · rintro ⟨n, hn, rfl⟩
    exact ⟨n.toNat, readCount?_eq_some_iff.1 hn, n.toNat_lt_size, by rw [UInt64.ofNat_toNat]⟩
  · rintro ⟨n, hn, hlimit, rfl⟩
    have hvalue : (UInt64.ofNat n).toNat = n := by rw [UInt64.toNat_ofNat', Nat.mod_eq_of_lt hlimit]
    exact ⟨UInt64.ofNat n, readCount?_eq_some_iff.2 (hvalue.symm ▸ hn), rfl⟩

/-- A key of timestamps accepts three numerals of numbers of 64 bits with colons between them, and
gets the timestamp of their values. -/
lemma readValue_time_iff (hkey : valueType key = .time) :
    readValue key raw = .ok value ↔ ∃ t, TimeNumerals raw.toList t ∧ value = .time t := by
  simp only [← readTime?_eq_some_iff]
  unfold readValue
  rw [hkey]
  cases readTime? raw.toList with
  | none => simp
  | some t => simp [eq_comm]

/-- Numerals of numbers of 64 bits have the same number exactly when they differ in leading zeros
alone. -/
lemma count_eq_iff (hn : Numeral raw.toList n) (hm : Numeral raw'.toList m)
    (hnLimit : n < UInt64.size) (hmLimit : m < UInt64.size) :
    Value.count (UInt64.ofNat n) = .count (UInt64.ofNat m) ↔ SameButZeros raw raw' := by
  have hvalue : UInt64.ofNat n = UInt64.ofNat m ↔ n = m := by
    rw [← UInt64.toNat_inj, UInt64.toNat_ofNat', UInt64.toNat_ofNat', Nat.mod_eq_of_lt hnLimit,
      Nat.mod_eq_of_lt hmLimit]
  unfold SameButZeros
  rw [Value.count.injEq, hvalue, hn.parts_eq, hm.parts_eq, hn.value_eq_iff hm, List.map_singleton,
    List.map_singleton, List.cons.injEq, and_iff_left rfl]

/-- Texts of timestamps have the same timestamp exactly when they differ in leading zeros alone. -/
lemma time_eq_iff {t t' : Timestamp} (ht : TimeNumerals raw.toList t)
    (ht' : TimeNumerals raw'.toList t') : t = t' ↔ SameButZeros raw raw' := by
  unfold SameButZeros
  generalize raw.toList = cs at ht ⊢
  generalize raw'.toList = ds at ht' ⊢
  obtain ⟨hhours, hminutes, hseconds⟩ := ht
  obtain ⟨hhours', hminutes', hseconds'⟩ := ht'
  rw [parts_of_numerals hhours hminutes hseconds, parts_of_numerals hhours' hminutes' hseconds']
  have hparts : t = t' ↔ t.hours.toNat = t'.hours.toNat ∧ t.minutes.toNat = t'.minutes.toNat ∧
      t.seconds.toNat = t'.seconds.toNat := by
    rw [UInt64.toNat_inj, UInt64.toNat_inj, UInt64.toNat_inj]
    cases t
    cases t'
    exact Timestamp.mk.injEq .. ▸ Iff.rfl
  rw [hparts, hhours.value_eq_iff hhours', hminutes.value_eq_iff hminutes',
    hseconds.value_eq_iff hseconds']
  simp

/-- Numbers and timestamps are read exactly.  A key of numbers accepts one or more decimal digits of
a value below `2 ^ 64`, and nothing else, and gets this value; a key of timestamps accepts three
such texts with colons between them, and gets the timestamp of their values.  So every number is
read from its decimal digits and every timestamp from its text, and two texts that are accepted have
the same value exactly when they differ in leading zeros alone. -/
theorem readValue_numbers (key : String) :
    (valueType key = .count →
      (∀ raw value, readValue key raw = .ok value ↔
        ∃ n, Numeral raw.toList n ∧ n < UInt64.size ∧ value = .count (UInt64.ofNat n)) ∧
      ∀ n : UInt64, readValue key (toString n.toNat) = .ok (.count n)) ∧
    (valueType key = .time →
      (∀ raw value, readValue key raw = .ok value ↔
        ∃ t, TimeNumerals raw.toList t ∧ value = .time t) ∧
      ∀ t : Timestamp, readValue key t.text = .ok (.time t)) ∧
    (valueType key = .count ∨ valueType key = .time →
      ∀ raw raw' value value', readValue key raw = .ok value → readValue key raw' = .ok value' →
        (value = value' ↔ SameButZeros raw raw')) := by
  refine ⟨fun hkey => ⟨fun raw value => readValue_count_iff hkey, fun n => ?_⟩,
    fun hkey => ⟨fun raw value => readValue_time_iff hkey, fun t => ?_⟩,
    fun hkey raw raw' value value' h h' => ?_⟩
  · exact readValue_written (v := .count n) hkey
  · exact readValue_written (v := .time t) hkey
  · rcases hkey with hkey | hkey
    · obtain ⟨n, hn, hnLimit, rfl⟩ := (readValue_count_iff hkey).1 h
      obtain ⟨m, hm, hmLimit, rfl⟩ := (readValue_count_iff hkey).1 h'
      exact count_eq_iff hn hm hnLimit hmLimit
    · obtain ⟨t, ht, rfl⟩ := (readValue_time_iff hkey).1 h
      obtain ⟨t', ht', rfl⟩ := (readValue_time_iff hkey).1 h'
      rw [Value.time.injEq]
      exact time_eq_iff ht ht'

/-- Ninety minutes may be written with leading zeros, and are not an hour and a half. -/
theorem readValue_numbers_start :
    readValue "start" "0:90:00" = .ok (.time ⟨0, 90, 0⟩) ∧ SameButZeros "0:90:00" "00:090:0" ∧
      ¬ SameButZeros "0:90:00" "1:30:00" := by
  have hkey : valueType "start" = .count ∨ valueType "start" = .time := .inr (by decide)
  have hninety : readValue "start" "0:90:00" = .ok (.time ⟨0, 90, 0⟩) := by decide +kernel
  have hpadded : readValue "start" "00:090:0" = .ok (.time ⟨0, 90, 0⟩) := by decide +kernel
  have hhalf : readValue "start" "1:30:00" = .ok (.time ⟨1, 30, 0⟩) := by decide +kernel
  have hsame := (readValue_numbers "start").2.2 hkey
  exact ⟨hninety, (hsame _ _ _ _ hninety hpadded).1 rfl,
    fun h => absurd ((hsame _ _ _ _ hninety hhalf).2 h) (by decide)⟩

end Montage.Attribute
