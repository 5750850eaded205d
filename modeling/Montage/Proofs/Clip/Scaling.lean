import Mathlib.Algebra.Order.Round
import Mathlib.Data.Rat.Floor
import Mathlib.Tactic.Linarith
import Montage.Clip
import Montage.Proofs.Outcome

/-!
# The side that goes with a scaled one

When one side of a picture is scaled and the other one is to keep the aspect ratio, the recorded
side is `Clip.evenScale`: the ratio is rounded, cut off at the largest number of 32 bits, rounded
down to an even number and raised to 2.  `EvenNear` says what this leads to, in terms of the exact
ratio.

The definition computes with whole numbers.  `wordScale?` computes with words of 64 bits and gives
nothing when a product or a sum does not fit or a divisor is zero.  It always gives the recorded
side, except for a divisor of zero; and the size of a resized picture never asks for that
(`evenNear_evenScale`).
-/

namespace Montage.Clip

/-! ### Arithmetic of words -/

/-- The product of two words, when it fits a word. -/
def times? (a b : UInt64) : Option UInt64 :=
  if a.toNat * b.toNat < UInt64.size then some (a * b) else none

/-- The sum of two words, when it fits a word. -/
def plus? (a b : UInt64) : Option UInt64 :=
  if a.toNat + b.toNat < UInt64.size then some (a + b) else none

/-- The quotient of two words, unless the divisor is zero. -/
def over? (a b : UInt64) : Option UInt64 := if b = 0 then none else some (a / b)

/-- The number of 32 bits that a word is, or the largest one. -/
def narrow (n : UInt64) : UInt32 :=
  if n.toNat < UInt32.size then n.toUInt32 else UInt32.ofNat (UInt32.size - 1)

/-- The side that goes with a scaled one, computed with words. -/
def wordScale? (value num den : UInt32) : Option UInt32 := do
  let product ← times? value.toUInt64 num.toUInt64
  let half ← over? den.toUInt64 2
  let sum ← plus? product half
  let scaled ← over? sum den.toUInt64
  return max (narrow scaled &&& ~~~1) 2

/-- The size of a resized picture, computed with words. -/
def wordSize? (width height : Option UInt32) (current : Option Canvas) : Option (Option Canvas) :=
  match width, height, current with
  | some width, some height, _ => some (some ⟨width, height⟩)
  | some width, none, some c =>
    if 0 < c.width then (wordScale? c.height width c.width).map fun side => some ⟨width, side⟩
    else some none
  | none, some height, some c =>
    if 0 < c.height then (wordScale? c.width height c.height).map fun side => some ⟨side, height⟩
    else some none
  | none, none, current => some current
  | _, _, none => some none

/-- A product that fits has the value of the product. -/
lemma exists_times? {a b : UInt64} (h : a.toNat * b.toNat < UInt64.size) :
    ∃ c, times? a b = some c ∧ c.toNat = a.toNat * b.toNat := by
  refine ⟨a * b, if_pos h, ?_⟩
  rw [UInt64.toNat_mul]
  exact Nat.mod_eq_of_lt h

/-- A sum that fits has the value of the sum. -/
lemma exists_plus? {a b : UInt64} (h : a.toNat + b.toNat < UInt64.size) :
    ∃ c, plus? a b = some c ∧ c.toNat = a.toNat + b.toNat := by
  refine ⟨a + b, if_pos h, ?_⟩
  rw [UInt64.toNat_add]
  exact Nat.mod_eq_of_lt h

/-- A quotient has the value of the quotient. -/
lemma exists_over? (a : UInt64) {b : UInt64} (h : 0 < b.toNat) :
    ∃ c, over? a b = some c ∧ c.toNat = a.toNat / b.toNat := by
  have hb : b ≠ 0 := by
    rintro rfl
    exact Nat.lt_irrefl 0 h
  exact ⟨a / b, if_neg hb, UInt64.toNat_div a b⟩

/-- Larger words than there are numbers of 32 bits become the largest one. -/
lemma toNat_narrow (n : UInt64) : (narrow n).toNat = min n.toNat (UInt32.size - 1) := by
  have hsize : UInt32.size = 4294967296 := rfl
  unfold narrow
  split
  · rw [UInt64.toNat_toUInt32]
    omega
  · rw [UInt32.toNat_ofNat_of_lt' (by omega)]
    omega

/-- Without its lowest bit a number is rounded down to an even one. -/
lemma toNat_and_not_one (n : UInt32) : (n &&& ~~~1).toNat = n.toNat / 2 * 2 := by
  have hmask : (~~~(1 : UInt32)).toNat = 4294967294 := rfl
  have hn : n.toNat < 4294967296 := n.toNat_lt
  have hhalf : (n.toNat &&& 4294967294) / 2 = n.toNat / 2 := by
    rw [Nat.and_div_two, show 4294967294 / 2 = 2 ^ 31 - 1 from rfl,
      Nat.and_two_pow_sub_one_eq_mod]
    omega
  have heven : (n.toNat &&& 4294967294) % 2 ≠ 1 := by
    rw [Ne, Nat.and_mod_two_eq_one]
    omega
  rw [UInt32.toNat_and, hmask]
  omega

/-! ### The recorded side -/

/-- The recorded side, as a number. -/
lemma toNat_evenScale (value num den : UInt32) :
    (evenScale value num den).toNat =
      max (min ((value.toNat * num.toNat + den.toNat / 2) / den.toNat) (UInt32.size - 1) / 2 * 2)
        2 := by
  unfold evenScale
  refine UInt32.toNat_ofNat_of_lt' ?_
  have hsize : UInt32.size = 4294967296 := rfl
  omega

/-- The product of two sides with half of a third one fits 64 bits. -/
lemma product_add_half_lt (value num den : UInt32) :
    value.toNat * num.toNat + den.toNat / 2 < UInt64.size := by
  have hvalue : value.toNat ≤ 4294967295 := Nat.le_of_lt_succ value.toNat_lt
  have hnum : num.toNat ≤ 4294967295 := Nat.le_of_lt_succ num.toNat_lt
  have hden : den.toNat ≤ 4294967295 := Nat.le_of_lt_succ den.toNat_lt
  have hproduct : value.toNat * num.toNat ≤ 4294967295 * 4294967295 := Nat.mul_le_mul hvalue hnum
  have hsize : UInt64.size = 18446744073709551616 := rfl
  omega

/-- With words nothing overflows, and the recorded side is what they give. -/
lemma wordScale?_eq (value num : UInt32) {den : UInt32} (hden : 0 < den) :
    wordScale? value num den = some (evenScale value num den) := by
  have hpos : 0 < den.toUInt64.toNat := by
    rw [UInt32.toNat_toUInt64]
    exact UInt32.lt_iff_toNat_lt.1 hden
  have hfits := product_add_half_lt value num den
  rw [← UInt32.toNat_toUInt64 value, ← UInt32.toNat_toUInt64 num, ← UInt32.toNat_toUInt64 den]
    at hfits
  obtain ⟨product, hproduct, hp⟩ := exists_times? (Nat.lt_of_le_of_lt (Nat.le_add_right _ _) hfits)
  obtain ⟨half, hhalf, hh⟩ := exists_over? den.toUInt64 (show 0 < (2 : UInt64).toNat by decide)
  have hsum : product.toNat + half.toNat < UInt64.size := by
    rw [hp, hh]
    exact hfits
  obtain ⟨sum, hsum, hs⟩ := exists_plus? hsum
  obtain ⟨scaled, hscaled, hq⟩ := exists_over? sum hpos
  have hside : max (narrow scaled &&& ~~~1) 2 = evenScale value num den := by
    rw [← UInt32.toNat_inj, UInt32.toNat_max, toNat_and_not_one, toNat_narrow, toNat_evenScale, hq,
      hs, hp, hh]
    simp only [UInt32.toNat_toUInt64]
    rfl
  simp only [wordScale?, hproduct, hhalf, hsum, hscaled, Option.bind_eq_bind, Option.bind_some,
    Option.pure_def, hside]

/-- A divisor of zero gives nothing. -/
lemma wordScale?_zero (value num : UInt32) : wordScale? value num 0 = none := by
  have hover (sum : UInt64) : over? sum (0 : UInt32).toUInt64 = none := rfl
  simp only [wordScale?, hover, Option.bind_eq_bind, Option.bind_none, Option.bind_fun_none]

/-- The size of a resized picture divides by zero nowhere. -/
lemma wordSize?_eq (width height : Option UInt32) (current : Option Canvas) :
    wordSize? width height current = some (scaledSize width height current) := by
  rcases width with _ | width <;> rcases height with _ | height <;> rcases current with _ | c
  -- A side is only computed from one given side and a known size.
  all_goals try rfl
  · unfold wordSize? scaledSize
    dsimp only
    by_cases hheight : 0 < c.height
    · rw [if_pos hheight, if_pos hheight, wordScale?_eq _ _ hheight]
      rfl
    · rw [if_neg hheight, if_neg hheight]
  · unfold wordSize? scaledSize
    dsimp only
    by_cases hwidth : 0 < c.width
    · rw [if_pos hwidth, if_pos hwidth, wordScale?_eq _ _ hwidth]
      rfl
    · rw [if_neg hwidth, if_neg hwidth]

/-! ### Rounding -/

/-- A number is the side that goes with an exact ratio `q`. -/
structure EvenNear (q : ℚ) (n : ℕ) : Prop where
  even : Even n
  two_le : 2 ≤ n
  le : n ≤ UInt32.size - 2
  /-- Inside the range it is the largest even number that is not above the rounded ratio. -/
  greatest : 2 ≤ round q → round q < UInt32.size →
    IsGreatest {m : ℕ | Even m ∧ (m : ℤ) ≤ round q} n
  /-- Inside the range it is near the ratio. -/
  near : 2 ≤ round q → round q < UInt32.size → q - 3 / 2 < n ∧ n ≤ q + 1 / 2
  /-- Below the range it is the smallest side. -/
  small : round q < 2 → n = 2
  /-- Above the range it is the largest even number of 32 bits. -/
  large : UInt32.size ≤ round q → n = UInt32.size - 2

/-- Half of the divisor is added to round a ratio with halves up. -/
lemma round_ratio (p : ℕ) {q : ℕ} (hq : 0 < q) : round (p / q : ℚ) = ((p + q / 2) / q : ℕ) := by
  have hpos : (0 : ℚ) < q := Nat.cast_pos.2 hq
  have hbelow : (p + q / 2) / q * q ≤ p + q / 2 := Nat.div_mul_le_self _ _
  have habove : p + q / 2 < ((p + q / 2) / q + 1) * q :=
    Nat.lt_mul_of_div_lt (Nat.lt_succ_self _) hq
  generalize (p + q / 2) / q = m at *
  have hlow : 2 * (m * q) ≤ 2 * p + q := by omega
  have hhigh : 2 * p + q < 2 * ((m + 1) * q) := by omega
  have hlow' : (2 * (m * q) : ℚ) ≤ 2 * p + q := by exact_mod_cast hlow
  have hhigh' : (2 * p + q : ℚ) < 2 * ((m + 1) * q) := by exact_mod_cast hhigh
  rw [round_eq_iff]
  refine ⟨?_, ?_⟩
  · rw [le_div_iff₀ hpos]
    push_cast
    linarith
  · rw [div_lt_iff₀ hpos]
    push_cast
    linarith

/-- A rounded ratio that is cut off at the largest number of 32 bits, rounded down to an even number
and raised to 2 is the side that goes with the ratio. -/
lemma evenNear_of_round {q : ℚ} {m : ℕ} (hm : round q = m) :
    EvenNear q (max (min m (UInt32.size - 1) / 2 * 2) 2) := by
  have hsize : UInt32.size = 4294967296 := rfl
  obtain ⟨hlow, hhigh⟩ := round_eq_iff.1 hm
  rw [Int.cast_natCast] at hlow hhigh
  have hinside (htwo : 2 ≤ round q) (hfits : round q < UInt32.size) :
      max (min m (UInt32.size - 1) / 2 * 2) 2 = m / 2 * 2 := by
    rw [hm] at htwo hfits
    omega
  refine ⟨?_, by omega, by omega, ?_, ?_, ?_, ?_⟩
  · rw [Nat.even_iff]
    omega
  · intro htwo hfits
    rw [hinside htwo hfits, hm]
    refine ⟨⟨even_two.mul_left _, by omega⟩, ?_⟩
    rintro n ⟨⟨k, rfl⟩, hn⟩
    omega
  · intro htwo hfits
    have hdown : m / 2 * 2 ≤ m ∧ m ≤ m / 2 * 2 + 1 := by omega
    rw [hinside htwo hfits]
    have hle : ((m / 2 * 2 : ℕ) : ℚ) ≤ m := Nat.cast_le.2 hdown.1
    have hge : (m : ℚ) ≤ (m / 2 * 2 : ℕ) + 1 := by exact_mod_cast hdown.2
    constructor
    · linarith
    · linarith
  · intro hsmall
    rw [hm] at hsmall
    omega
  · intro hlarge
    rw [hm] at hlarge
    omega

/-- A larger value has no smaller side. -/
lemma evenScale_le {value value' num num' : UInt32} (hvalue : value ≤ value') (hnum : num ≤ num')
    (den : UInt32) : evenScale value num den ≤ evenScale value' num' den := by
  rw [UInt32.le_iff_toNat_le, toNat_evenScale, toNat_evenScale]
  have hproduct : value.toNat * num.toNat ≤ value'.toNat * num'.toNat :=
    Nat.mul_le_mul (UInt32.le_iff_toNat_le.1 hvalue) (UInt32.le_iff_toNat_le.1 hnum)
  have hratio : (value.toNat * num.toNat + den.toNat / 2) / den.toNat ≤
      (value'.toNat * num'.toNat + den.toNat / 2) / den.toNat :=
    Nat.div_le_div_right (Nat.add_le_add_right hproduct _)
  omega

/-- The arithmetic of aspect ratios is safe.  For a divisor that is not zero, no word overflows and
what the words give is the recorded side, which is the one that goes with the exact ratio.  The side
does not get smaller when the value or the numerator gets larger.  And where the size of a resized
picture needs a side, the divisor is not zero, whatever the current size is. -/
theorem evenNear_evenScale :
    (∀ value num den : UInt32, 0 < den →
      wordScale? value num den = some (evenScale value num den) ∧
      EvenNear ((value.toNat * num.toNat : ℚ) / den.toNat) (evenScale value num den).toNat) ∧
    (∀ value value' num den : UInt32, value ≤ value' →
      evenScale value num den ≤ evenScale value' num den) ∧
    (∀ value num num' den : UInt32, num ≤ num' →
      evenScale value num den ≤ evenScale value num' den) ∧
    (∀ value num : UInt32, wordScale? value num 0 = none) ∧
    (∀ width height current,
      wordSize? width height current = some (scaledSize width height current)) ∧
    ∀ (c c' : Clip) (width height : Option UInt32), c.resize width height = .ok c' →
      wordSize? width height c.size = some c'.size := by
  refine ⟨fun value num den hden => ⟨wordScale?_eq value num hden, ?_⟩, ?_, ?_, wordScale?_zero,
    wordSize?_eq, ?_⟩
  · rw [toNat_evenScale, ← Nat.cast_mul]
    exact evenNear_of_round (round_ratio _ (UInt32.lt_iff_toNat_lt.1 hden))
  · intro value value' num den hvalue
    exact evenScale_le hvalue (UInt32.le_refl num) den
  · intro value num num' den hnum
    exact evenScale_le (UInt32.le_refl value) hnum den
  · intro c c' width height h
    obtain ⟨-, -, heq⟩ := bind_eq_ok.1 h
    cases heq
    exact wordSize?_eq width height c.size

/-- A film without a width, as a broken file may report it. -/
def flatFilm : Clip := ofSource .video ⟨"film.mp4"⟩ none none false (some ⟨0, 1080⟩)

/-- A picture of 1920 by 1080 that is made 641 wide becomes 360 high: the ratio is 360 and a bit
more than a half, and 361 is odd.  A film without a width has no size after that. -/
theorem evenNear_evenScale_of_hd :
    wordScale? 1080 641 1920 = some 360 ∧ EvenNear (1080 * 641 / 1920) 360 ∧
      evenScale 1080 641 1920 ≤ evenScale 1081 641 1920 ∧
      evenScale 1080 641 1920 ≤ evenScale 1080 642 1920 ∧
      wordSize? (some 641) none flatFilm.size = some none := by
  obtain ⟨hscale, hvalue, hnum, -, -, hresize⟩ := evenNear_evenScale
  have hside : evenScale 1080 641 1920 = 360 := by decide
  obtain ⟨hwords, hnear⟩ := hscale 1080 641 1920 (by decide)
  rw [hside] at hwords hnear
  exact ⟨hwords, hnear, hvalue 1080 1081 641 1920 (by decide), hnum 1080 641 642 1920 (by decide),
    hresize flatFilm _ (some 641) none rfl⟩

end Montage.Clip
