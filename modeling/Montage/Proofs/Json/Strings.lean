import Mathlib.Tactic.Lemma
import Montage.Proofs.Json.Grammar

/-!
# Reading strings

A string is read from exactly what spells it (`exists_pieces?_iff`).  Reading has two steps.  What
stands between the quotes is first cut into pieces (`pieces?_eq_some_iff`), and the pieces are then
joined to bytes (`Spells.exists_pieced`, `Pieced.spells`).  Two pieces become one code point only
where the spelling is that of a surrogate pair, because a high surrogate that stands alone is not
followed by a low one.
-/

namespace Montage.Json

/-! ### Characters -/

/-- The bound of the code points. -/
lemma toNat_lt (c : Char) : c.toNat < 0x110000 := by
  rcases c.valid with h | h
  · exact Nat.lt_trans h (by decide)
  · exact h.2

/-- The bytes of a character are those of its code point. -/
lemma utf8EncodeChar_eq (c : Char) : String.utf8EncodeChar c = encodePoint c.toNat := by
  have hbound := toNat_lt c
  unfold String.utf8EncodeChar encodePoint
  simp only [Char.toNat_val]
  generalize c.toNat = n at hbound
  by_cases h1 : n < 0x80
  · rw [if_pos (Nat.le_of_lt_succ h1), if_pos h1]
  · rw [if_neg (by omega), if_neg h1]
    by_cases h2 : n < 0x800
    · rw [if_pos (Nat.le_of_lt_succ h2), if_pos h2, Nat.mod_eq_of_lt (by omega : n / 64 < 32),
        Nat.add_comm (n / 64), Nat.add_comm (n % 64)]
    · rw [if_neg (by omega), if_neg h2]
      by_cases h3 : n < 0x10000
      · rw [if_pos (Nat.le_of_lt_succ h3), if_pos h3, Nat.mod_eq_of_lt (by omega : n / 4096 < 16),
          Nat.add_comm (n / 4096), Nat.add_comm (n / 64 % 64), Nat.add_comm (n % 64)]
      · rw [if_neg (by omega), if_neg h3, Nat.mod_eq_of_lt (by omega : n / 262144 < 8),
          Nat.add_comm (n / 262144), Nat.add_comm (n / 4096 % 64), Nat.add_comm (n / 64 % 64),
          Nat.add_comm (n % 64)]

/-- A character is no surrogate. -/
lemma not_surrogate (c : Char) : ¬ IsHigh c.toNat ∧ ¬ IsLow c.toNat := by
  unfold IsHigh IsLow
  rcases c.valid with h | h
  · have hlow : c.toNat < 0xD800 := h
    omega
  · have hhigh : 0xDFFF < c.toNat := h.1
    omega

/-! ### Pieces -/

/-- Pieces, and what may stand between the quotes for them one by one. -/
inductive Pieced : List Piece → Bytes → Prop where
  | nil : Pieced [] []
  | byte {b : UInt8} {ps : List Piece} {t : Bytes} :
      0x20 ≤ b → b ≠ 0x22 → b ≠ 0x5C → Pieced ps t → Pieced (.byte b :: ps) (b :: t)
  | short {letter b : UInt8} {ps : List Piece} {t : Bytes} :
      (letter, b) ∈ shortEscapes → Pieced ps t → Pieced (.byte b :: ps) (0x5C :: letter :: t)
  | unit {u : Nat} {ps : List Piece} {e t : Bytes} :
      UnitEscape u e → Pieced ps t → Pieced (.unit u :: ps) (e ++ t)

/-- A hexadecimal digit is read as its value. -/
lemma hexDigit?_eq_some_iff {n : Nat} {b : UInt8} : hexDigit? b = some n ↔ HexDigit n b := by
  have hdigits : ∀ n < 16, hexDigit? (UInt8.ofNat (Nat.digitChar n).toNat) = some n ∧
      hexDigit? (UInt8.ofNat (Nat.digitChar n).toUpper.toNat) = some n := by decide
  have hbytes : ∀ k < 256, ∀ n ∈ hexDigit? (UInt8.ofNat k), n < 16 ∧
      (k = (Nat.digitChar n).toNat ∨ k = (Nat.digitChar n).toUpper.toNat) := by decide +kernel
  constructor
  · intro h
    rw [← UInt8.ofNat_toNat (x := b)] at h
    exact hbytes b.toNat b.toNat_lt n h
  · rintro ⟨hn, hb | hb⟩
    · rw [← UInt8.ofNat_toNat (x := b), hb]
      exact (hdigits n hn).1
    · rw [← UInt8.ofNat_toNat (x := b), hb]
      exact (hdigits n hn).2

/-- The code unit of hexadecimal digits is that of their escape. -/
lemma codeUnit?_eq_some_iff {a b c d : UInt8} {u : Nat} :
    codeUnit? a b c d = some u ↔ UnitEscape u [0x5C, 0x75, a, b, c, d] := by
  have hunit (i j k l : Nat) :
      i * 4096 + j * 256 + k * 16 + l = ((i * 16 + j) * 16 + k) * 16 + l := by omega
  constructor
  · intro h
    obtain ⟨i, hi, h⟩ := Option.bind_eq_some_iff.1 h
    obtain ⟨j, hj, h⟩ := Option.bind_eq_some_iff.1 h
    obtain ⟨k, hk, h⟩ := Option.bind_eq_some_iff.1 h
    obtain ⟨l, hl, h⟩ := Option.bind_eq_some_iff.1 h
    cases h
    rw [hunit]
    exact .digits (hexDigit?_eq_some_iff.1 hi) (hexDigit?_eq_some_iff.1 hj)
      (hexDigit?_eq_some_iff.1 hk) (hexDigit?_eq_some_iff.1 hl)
  · intro h
    cases h with
    | digits ha hb hc hd =>
      simp only [codeUnit?, hexDigit?_eq_some_iff.2 ha, hexDigit?_eq_some_iff.2 hb,
        hexDigit?_eq_some_iff.2 hc, hexDigit?_eq_some_iff.2 hd, Option.bind_eq_bind,
        Option.bind_some, Option.pure_def, hunit]

/-- The escape of a code unit is read as a piece. -/
lemma pieces?_unitEscape {u : Nat} {e : Bytes} (h : UnitEscape u e) (bytes : Bytes) :
    pieces? (e ++ bytes) = (pieces? bytes).map (Piece.unit u).before := by
  cases h with
  | digits ha hb hc hd =>
    have hunit := codeUnit?_eq_some_iff.2 (.digits ha hb hc hd)
    simp only [List.cons_append, List.nil_append, pieces?, hunit, Option.bind_some]

/-- A byte as it is is read as a piece. -/
lemma pieces?_byte {b : UInt8} (hcontrol : 0x20 ≤ b) (hquote : b ≠ 0x22) (hbackslash : b ≠ 0x5C)
    (bytes : Bytes) : pieces? (b :: bytes) = (pieces? bytes).map (Piece.byte b).before := by
  rw [pieces?.eq_5 b bytes hquote (fun _ _ _ _ _ hb _ => hbackslash hb)
    (fun _ _ hb _ => hbackslash hb), if_neg (UInt8.not_lt.2 hcontrol)]

/-- The escapes of one letter are those that are listed. -/
lemma escape?_eq_some_iff {letter b : UInt8} :
    escape? letter = some b ↔ (letter, b) ∈ shortEscapes := by
  have hlisted : ∀ p ∈ shortEscapes, escape? p.1 = some p.2 := by
    simp [shortEscapes, escape?]
  -- By `Option.all`, since a statement about all bytes that are given is decided by trying every
  -- byte.
  have hbytes : ∀ k < 256, (escape? (UInt8.ofNat k)).all
      (fun b => shortEscapes.contains (UInt8.ofNat k, b)) = true := by
    decide +kernel
  constructor
  · intro h
    have hletter := hbytes letter.toNat letter.toNat_lt
    rw [UInt8.ofNat_toNat, h] at hletter
    simpa using hletter
  · exact hlisted (letter, b)

/-- The escape of one letter is read as a piece. -/
lemma pieces?_short {letter b : UInt8} (h : (letter, b) ∈ shortEscapes) (bytes : Bytes) :
    pieces? (0x5C :: letter :: bytes) = (pieces? bytes).map (Piece.byte b).before := by
  have hletter : ∀ p ∈ shortEscapes, p.1 ≠ 0x75 := by simp [shortEscapes]
  rw [pieces?.eq_4 letter bytes (fun _ _ _ _ _ hu _ => hletter _ h hu), escape?_eq_some_iff.2 h,
    Option.bind_some]

/-- What stands between the quotes of a string is read piece by piece. -/
theorem pieces?_eq_some_iff {bytes rest : Bytes} {ps : List Piece} :
    pieces? bytes = some (ps, rest) ↔ ∃ t, bytes = t ++ 0x22 :: rest ∧ Pieced ps t := by
  constructor
  · intro h
    fun_induction pieces? bytes generalizing ps with
    | case1 => cases h
    | case2 =>
      cases h
      exact ⟨[], rfl, .nil⟩
    | case3 a b c d bytes ih =>
      obtain ⟨u, hunit, h⟩ := Option.bind_eq_some_iff.1 h
      obtain ⟨⟨ps', rest'⟩, hread, heq⟩ := Option.map_eq_some_iff.1 h
      cases heq
      obtain ⟨t, rfl, hpieced⟩ := ih hread
      exact ⟨_, rfl, .unit (codeUnit?_eq_some_iff.1 hunit) hpieced⟩
    | case4 e bytes _ ih =>
      obtain ⟨b, hescape, h⟩ := Option.bind_eq_some_iff.1 h
      obtain ⟨⟨ps', rest'⟩, hread, heq⟩ := Option.map_eq_some_iff.1 h
      cases heq
      obtain ⟨t, rfl, hpieced⟩ := ih hread
      exact ⟨_, rfl, .short (escape?_eq_some_iff.1 hescape) hpieced⟩
    | case5 => cases h
    | case6 b bytes hquote _ hescape hcontrol ih =>
      obtain ⟨⟨ps', rest'⟩, hread, heq⟩ := Option.map_eq_some_iff.1 h
      cases heq
      obtain ⟨t, hbytes, hpieced⟩ := ih hread
      have hbackslash : b ≠ 0x5C := by
        intro hb
        obtain ⟨e, more, hmore⟩ := List.exists_cons_of_ne_nil
          (show bytes ≠ [] by simp [hbytes])
        exact hescape e more hb hmore
      rw [hbytes]
      exact ⟨_, rfl, .byte (UInt8.not_lt.1 hcontrol) hquote hbackslash hpieced⟩
  · rintro ⟨t, rfl, hpieced⟩
    induction hpieced with
    | nil => exact pieces?.eq_2 rest
    | byte hcontrol hquote hbackslash _ ih =>
      rw [List.cons_append, pieces?_byte hcontrol hquote hbackslash, ih]
      rfl
    | short hletter _ ih =>
      rw [List.cons_append, List.cons_append, pieces?_short hletter, ih]
      rfl
    | unit hescape _ ih =>
      rw [List.append_assoc, pieces?_unitEscape hescape, ih]
      rfl

/-! ### Joined pieces -/

/-- The pieces begin with the second half of a surrogate pair. -/
def LowFirst (ps : List Piece) : Prop := ∃ low more, ps = .unit low :: more ∧ IsLow low

/-- A code unit that is not the first half of a pair is a code point. -/
lemma joinPieces_unit {u : Nat} {ps : List Piece} (h : ¬ (IsHigh u ∧ LowFirst ps)) :
    joinPieces (.unit u :: ps) = encodePoint u ++ joinPieces ps := by
  by_cases hunit : ∃ low more, ps = .unit low :: more
  · obtain ⟨low, more, rfl⟩ := hunit
    rw [joinPieces, if_neg]
    rintro ⟨hhigh, hhigh', hlow⟩
    exact h ⟨⟨hhigh, hhigh'⟩, low, more, rfl, hlow⟩
  · exact joinPieces.eq_4 u ps fun low more heq => hunit ⟨low, more, heq⟩

/-- The halves of a surrogate pair are one code point. -/
lemma joinPieces_pair {n : Nat} (hlarge : 0x10000 ≤ n) (hbound : n < 0x110000) (ps : List Piece) :
    joinPieces (.unit (0xD800 + (n - 0x10000) / 0x400) ::
      .unit (0xDC00 + (n - 0x10000) % 0x400) :: ps) = encodePoint n ++ joinPieces ps := by
  have hpoint : 0x10000 + (0xD800 + (n - 0x10000) / 0x400 - 0xD800) * 0x400 +
      (0xDC00 + (n - 0x10000) % 0x400 - 0xDC00) = n := by omega
  rw [joinPieces, if_pos (by omega), hpoint]

/-- The four hexadecimal digits of an escape have one value, of 16 bits. -/
lemma UnitEscape.exists_digits {u : Nat} {e : Bytes} (h : UnitEscape u e) :
    ∃ a b c d, e = [0x5C, 0x75, a, b, c, d] ∧ codeUnit? a b c d = some u ∧ u < 0x10000 := by
  cases h with
  | digits ha hb hc hd =>
    have hbounds := And.intro ha.1 (And.intro hb.1 (And.intro hc.1 hd.1))
    exact ⟨_, _, _, _, rfl, codeUnit?_eq_some_iff.2 (.digits ha hb hc hd), by omega⟩

/-- Pieces begin with the second half of a surrogate pair exactly when their text does. -/
lemma Pieced.lowFirst_iff {ps : List Piece} {t : Bytes} (h : Pieced ps t) :
    LowFirst ps ↔ BeginsLow t := by
  constructor
  · rintro ⟨low, more, rfl, hlow⟩
    cases h with
    | unit hescape _ => exact ⟨low, _, _, hlow, hescape, rfl⟩
  · rintro ⟨low, e, rest, hlow, hescape, rfl⟩
    have hread : pieces? (e ++ rest ++ [0x22]) = some (ps, []) :=
      pieces?_eq_some_iff.2 ⟨_, rfl, h⟩
    rw [List.append_assoc, pieces?_unitEscape hescape] at hread
    obtain ⟨⟨more, _⟩, -, heq⟩ := Option.map_eq_some_iff.1 hread
    cases heq
    exact ⟨low, more, rfl, hlow⟩

/-! ### Strings -/

/-- What a string spells is spelled piece by piece. -/
lemma Spells.exists_pieced {s t : Bytes} (h : Spells s t) :
    ∃ ps, Pieced ps t ∧ joinPieces ps = s := by
  induction h with
  | nil => exact ⟨[], .nil, rfl⟩
  | byte hcontrol hquote hbackslash _ ih =>
    obtain ⟨ps, hpieced, rfl⟩ := ih
    exact ⟨_, .byte hcontrol hquote hbackslash hpieced, rfl⟩
  | short hletter _ ih =>
    obtain ⟨ps, hpieced, rfl⟩ := ih
    exact ⟨_, .short hletter hpieced, rfl⟩
  | @unit c e s t _ hescape _ ih =>
    obtain ⟨ps, hpieced, rfl⟩ := ih
    refine ⟨_, .unit hescape hpieced, ?_⟩
    rw [joinPieces_unit fun hpair => (not_surrogate c).1 hpair.1, utf8EncodeChar_eq]
  | @pair c high low s t hlarge hhigh hlow _ ih =>
    obtain ⟨ps, hpieced, rfl⟩ := ih
    refine ⟨_, .unit hhigh (.unit hlow hpieced), ?_⟩
    rw [joinPieces_pair hlarge (toNat_lt c), utf8EncodeChar_eq]
  | @alone u e s t halone hescape _ ih =>
    obtain ⟨ps, hpieced, rfl⟩ := ih
    refine ⟨_, .unit hescape hpieced, joinPieces_unit ?_⟩
    rintro ⟨hhigh, hlowFirst⟩
    rcases halone with ⟨-, hnot⟩ | hlow
    · exact hnot (hpieced.lowFirst_iff.1 hlowFirst)
    · exact absurd hhigh.2 (Nat.not_lt.2 hlow.1)

/-- The character of a code point that is no surrogate. -/
lemma exists_char {n : Nat} (hbound : n < 0x110000) (hno : ¬ IsHigh n ∧ ¬ IsLow n) :
    ∃ c : Char, c.toNat = n := by
  unfold IsHigh IsLow at hno
  have hvalid : n.isValidChar := by
    unfold Nat.isValidChar
    omega
  exact ⟨Char.ofNatAux n hvalid, rfl⟩

/-- An escape that is not the first half of a pair spells its code point. -/
lemma Spells.unitEscape {u : Nat} {e s t : Bytes} (hescape : UnitEscape u e) (h : Spells s t)
    (hpair : IsHigh u → ¬ BeginsLow t) : Spells (encodePoint u ++ s) (e ++ t) := by
  by_cases hhigh : IsHigh u
  · exact .alone (.inl ⟨hhigh, hpair hhigh⟩) hescape h
  · by_cases hlow : IsLow u
    · exact .alone (.inr hlow) hescape h
    · obtain ⟨_, _, _, _, -, -, hbound⟩ := hescape.exists_digits
      obtain ⟨c, rfl⟩ := exists_char (Nat.lt_trans hbound (by decide)) ⟨hhigh, hlow⟩
      rw [← utf8EncodeChar_eq]
      exact .unit hbound hescape h

/-- The escapes of the halves of a pair spell one code point. -/
lemma Spells.pairEscape {high low : Nat} {e e' s t : Bytes} (hhigh : IsHigh high) (hlow : IsLow low)
    (he : UnitEscape high e) (he' : UnitEscape low e') (h : Spells s t) :
    Spells (encodePoint (0x10000 + (high - 0xD800) * 0x400 + (low - 0xDC00)) ++ s)
      (e ++ (e' ++ t)) := by
  unfold IsHigh at hhigh
  unfold IsLow at hlow
  obtain ⟨c, hc⟩ : ∃ c : Char, c.toNat = 0x10000 + (high - 0xD800) * 0x400 + (low - 0xDC00) :=
    exists_char (by omega) ⟨by unfold IsHigh; omega, by unfold IsLow; omega⟩
  have hfirst : 0xD800 + (c.toNat - 0x10000) / 0x400 = high := by omega
  have hsecond : 0xDC00 + (c.toNat - 0x10000) % 0x400 = low := by omega
  rw [← hc, ← utf8EncodeChar_eq]
  exact .pair (by omega) (by rwa [hfirst]) (by rwa [hsecond]) h

/-- What is spelled piece by piece spells the joined pieces. -/
lemma Pieced.spells {ps : List Piece} {t : Bytes} (h : Pieced ps t) : Spells (joinPieces ps) t := by
  fun_induction joinPieces ps generalizing t with
  | case1 =>
    cases h
    exact .nil
  | case2 b ps ih =>
    cases h with
    | byte hcontrol hquote hbackslash hrest => exact .byte hcontrol hquote hbackslash (ih hrest)
    | short hletter hrest => exact .short hletter (ih hrest)
  | case3 high low ps hpair ih =>
    cases h with
    | unit hescape hrest =>
      cases hrest with
      | unit hescape' hrest =>
        exact .pairEscape ⟨hpair.1, hpair.2.1⟩ hpair.2.2 hescape hescape' (ih hrest)
  | case4 high low ps hpair ih =>
    cases h with
    | unit hescape hrest =>
      refine .unitEscape hescape (ih hrest) fun hhigh hlow => hpair ?_
      obtain ⟨_, _, heq, hlow⟩ := hrest.lowFirst_iff.2 hlow
      cases heq
      exact ⟨hhigh.1, hhigh.2, hlow⟩
  | case5 u ps hnot ih =>
    cases h with
    | unit hescape hrest =>
      refine .unitEscape hescape (ih hrest) fun _ hlow => ?_
      obtain ⟨low, more, heq, -⟩ := hrest.lowFirst_iff.2 hlow
      exact hnot low more heq

/-- A string is read from exactly what spells it, up to its closing quote. -/
theorem exists_pieces?_iff {s bytes rest : Bytes} :
    (∃ ps, pieces? bytes = some (ps, rest) ∧ joinPieces ps = s) ↔
      ∃ t, bytes = t ++ 0x22 :: rest ∧ Spells s t := by
  constructor
  · rintro ⟨ps, hread, rfl⟩
    obtain ⟨t, hbytes, hpieced⟩ := pieces?_eq_some_iff.1 hread
    exact ⟨t, hbytes, hpieced.spells⟩
  · rintro ⟨t, hbytes, hspells⟩
    obtain ⟨ps, hpieced, hjoin⟩ := hspells.exists_pieced
    exact ⟨ps, pieces?_eq_some_iff.2 ⟨t, hbytes, hpieced⟩, hjoin⟩

end Montage.Json
