import Mathlib.Tactic.ByContra
import Montage.Proofs.Json.Strings

/-!
# The order of texts

Texts are compared character by character.  Their bytes in UTF-8 are in the same order
(`bytesOf_lt_iff`): the bytes of a smaller code point come first, whatever follows
(`encodePoint_append_lt`).
-/

namespace Montage.Text

open Json

/-- Bytes are compared as numbers, and what follows them only counts when they are the same. -/
lemma byte_cons_lt {m n : Nat} {P : Prop} {s t : Bytes} (h : m < n ∨ m = n ∧ P) (hn : n < 256)
    (hrest : P → s < t) : UInt8.ofNat m :: s < UInt8.ofNat n :: t := by
  have hm : m < 256 := by omega
  rw [List.cons_lt_cons_iff, UInt8.lt_iff_toNat_lt, ← UInt8.toNat_inj,
    UInt8.toNat_ofNat_of_lt' hm, UInt8.toNat_ofNat_of_lt' hn]
  exact h.imp_right fun hsame => ⟨hsame.1, hrest hsame.2⟩

/-- A smaller byte comes first, whatever follows. -/
lemma byte_cons_lt_of_lt {m n : Nat} (h : m < n) (hn : n < 256) (s t : Bytes) :
    UInt8.ofNat m :: s < UInt8.ofNat n :: t :=
  byte_cons_lt (P := False) (.inl h) hn False.elim

/-- The bytes of a smaller code point come first, whatever follows. -/
lemma encodePoint_append_lt {m n : Nat} (h : m < n) (hn : n < 0x110000) (s t : Bytes) :
    encodePoint m ++ s < encodePoint n ++ t := by
  unfold encodePoint
  -- The first byte grows with the number of bytes, so the bytes after it only count between code
  -- points that take equally many.
  by_cases m1 : m < 0x80
  · rw [if_pos m1]
    split
    · exact byte_cons_lt_of_lt h (by omega) _ _
    · split
      · exact byte_cons_lt_of_lt (by omega) (by omega) _ _
      · split <;> exact byte_cons_lt_of_lt (by omega) (by omega) _ _
  · rw [if_neg m1, if_neg (by omega : ¬ n < 0x80)]
    by_cases m2 : m < 0x800
    · rw [if_pos m2]
      split
      · have hdigits : 0xC0 + m / 0x40 < 0xC0 + n / 0x40 ∨ 0xC0 + m / 0x40 = 0xC0 + n / 0x40 ∧
            0x80 + m % 0x40 < 0x80 + n % 0x40 := by omega
        exact byte_cons_lt hdigits (by omega) fun hlast => byte_cons_lt_of_lt hlast (by omega) _ _
      · split <;> exact byte_cons_lt_of_lt (by omega) (by omega) _ _
    · rw [if_neg m2, if_neg (by omega : ¬ n < 0x800)]
      by_cases m3 : m < 0x10000
      · rw [if_pos m3]
        split
        · have hdigits : 0xE0 + m / 0x1000 < 0xE0 + n / 0x1000 ∨
              0xE0 + m / 0x1000 = 0xE0 + n / 0x1000 ∧
                (0x80 + m / 0x40 % 0x40 < 0x80 + n / 0x40 % 0x40 ∨
                  0x80 + m / 0x40 % 0x40 = 0x80 + n / 0x40 % 0x40 ∧
                    0x80 + m % 0x40 < 0x80 + n % 0x40) := by omega
          exact byte_cons_lt hdigits (by omega) fun hmore => byte_cons_lt hmore (by omega)
            fun hlast => byte_cons_lt_of_lt hlast (by omega) _ _
        · exact byte_cons_lt_of_lt (by omega) (by omega) _ _
      · rw [if_neg m3, if_neg (by omega : ¬ n < 0x10000)]
        have hdigits : 0xF0 + m / 0x40000 < 0xF0 + n / 0x40000 ∨
            0xF0 + m / 0x40000 = 0xF0 + n / 0x40000 ∧
              (0x80 + m / 0x1000 % 0x40 < 0x80 + n / 0x1000 % 0x40 ∨
                0x80 + m / 0x1000 % 0x40 = 0x80 + n / 0x1000 % 0x40 ∧
                  (0x80 + m / 0x40 % 0x40 < 0x80 + n / 0x40 % 0x40 ∨
                    0x80 + m / 0x40 % 0x40 = 0x80 + n / 0x40 % 0x40 ∧
                      0x80 + m % 0x40 < 0x80 + n % 0x40)) := by omega
        exact byte_cons_lt hdigits (by omega) fun hmore => byte_cons_lt hmore (by omega)
          fun hrest => byte_cons_lt hrest (by omega)
            fun hlast => byte_cons_lt_of_lt hlast (by omega) _ _

/-- The bytes of a text are those of its characters. -/
lemma bytesOf_eq_flatMap (s : String) : bytesOf s = s.toList.flatMap String.utf8EncodeChar := by
  have hbytes : s.toUTF8 = (s.toList.flatMap String.utf8EncodeChar).toByteArray :=
    String.utf8Encode_toList.symm
  rw [bytesOf, hbytes, List.toList_data_toByteArray]

/-- Characters that come first have bytes that come first. -/
lemma flatMap_encode_lt {cs ds : List Char} (h : cs < ds) :
    cs.flatMap String.utf8EncodeChar < ds.flatMap String.utf8EncodeChar := by
  induction h with
  | @nil d ds =>
    obtain ⟨b, bs, hbytes⟩ := List.exists_cons_of_ne_nil (String.utf8EncodeChar_ne_nil (c := d))
    rw [List.flatMap_nil, List.flatMap_cons, hbytes]
    exact List.nil_lt_cons b _
  | @rel c cs d ds hless =>
    rw [List.flatMap_cons, List.flatMap_cons, utf8EncodeChar_eq, utf8EncodeChar_eq]
    exact encodePoint_append_lt hless (toNat_lt d) _ _
  | cons hrest ih =>
    rw [List.flatMap_cons, List.flatMap_cons]
    exact List.append_left_lt ih

/-- Texts are in the order of their bytes. -/
theorem bytesOf_lt_iff {s t : String} : bytesOf s < bytesOf t ↔ s < t := by
  have hmono {s t : String} (h : s < t) : bytesOf s < bytesOf t := by
    rw [bytesOf_eq_flatMap, bytesOf_eq_flatMap]
    exact flatMap_encode_lt h
  refine ⟨fun h => ?_, hmono⟩
  by_contra hnot
  by_cases heq : t = s
  · exact List.lt_irrefl _ (heq ▸ h)
  · have hbefore : t < s := Std.lt_of_le_of_ne (String.not_lt.1 hnot) heq
    exact List.lt_asymm h (hmono hbefore)

end Montage.Text
