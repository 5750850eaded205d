import Mathlib.Tactic.Lemma
import Montage.Timestamp

/-!
# The order of timestamps

Timestamps are ordered as they are written: by hours, then by minutes, then by seconds
(`compare_eq_lt`).  As the parts are not range checked, this is not the order in time: `0:61:00` is
written before `1:00:00`, and it is the later position (`not_totalSeconds_le_of_sixtyOne`).

The two orders differ exactly where the smaller parts of a timestamp outweigh the part by which it
is written before another one (`totalSeconds_le_iff`).  They never do when there are less than 60
minutes and less than 60 seconds.
-/

namespace Montage.Timestamp

variable {a b : Timestamp}

/-- One timestamp is written before another one when the first part that differs is smaller. -/
lemma compare_eq_lt : Ord.compare a b = .lt ↔ a.hours < b.hours ∨ a.hours = b.hours ∧
    (a.minutes < b.minutes ∨ a.minutes = b.minutes ∧ a.seconds < b.seconds) := by
  have hcompare : Ord.compare a b = (Ord.compare a.hours b.hours).then
      ((Ord.compare a.minutes b.minutes).then (Ord.compare a.seconds b.seconds)) := rfl
  simp only [hcompare, Ordering.then_eq_lt, Std.compare_eq_lt, Std.compare_eq_iff_eq]

/-- The minutes and seconds of a timestamp, in seconds. -/
def pastHour (t : Timestamp) : Nat := t.minutes.toNat * 60 + t.seconds.toNat

/-- The smaller parts of `a` outweigh the part by which `a` is written before `b`: its minutes and
seconds are more than those of `b` and the hours that `a` has less, or its seconds are more than
those of `b` and the minutes that `a` has less. -/
inductive Outweighs (a b : Timestamp) : Prop
  | hours (hhours : a.hours < b.hours)
      (hmore : 3600 * (b.hours.toNat - a.hours.toNat) + b.pastHour < a.pastHour)
  | minutes (hhours : a.hours = b.hours) (hminutes : a.minutes < b.minutes)
      (hmore : 60 * (b.minutes.toNat - a.minutes.toNat) + b.seconds.toNat < a.seconds.toNat)

/-- The position of a timestamp in seconds, however large it is. -/
def wholeSeconds (t : Timestamp) : Nat := t.hours.toNat * 3600 + t.pastHour

/-- The position in seconds is cut off at the largest number of 64 bits. -/
lemma totalSeconds_eq (t : Timestamp) : t.totalSeconds = min t.wholeSeconds (UInt64.size - 1) := by
  unfold totalSeconds wholeSeconds pastHour
  rw [Nat.add_assoc]

/-- The smaller parts outweigh the others exactly when the timestamp that is written first is the
later position. -/
lemma outweighs_iff (h : Ord.compare a b = .lt) :
    a.Outweighs b ↔ b.wholeSeconds < a.wholeSeconds := by
  unfold wholeSeconds
  constructor
  · rintro (⟨hhours, hmore⟩ | ⟨hhours, hminutes, hmore⟩)
    · have hless := UInt64.lt_iff_toNat_lt.1 hhours
      omega
    · have hless := UInt64.lt_iff_toNat_lt.1 hminutes
      rw [hhours]
      unfold pastHour
      omega
  · intro hlater
    rcases compare_eq_lt.1 h with hhours | ⟨hhours, hminutes | ⟨hminutes, hseconds⟩⟩
    · have hless := UInt64.lt_iff_toNat_lt.1 hhours
      exact .hours hhours (by omega)
    · have hless := UInt64.lt_iff_toNat_lt.1 hminutes
      rw [hhours] at hlater
      unfold pastHour at hlater
      exact .minutes hhours hminutes (by omega)
    · have hless := UInt64.lt_iff_toNat_lt.1 hseconds
      rw [hhours] at hlater
      unfold pastHour at hlater
      rw [hminutes] at hlater
      omega

/-- Less than 60 minutes and less than 60 seconds outweigh nothing. -/
lemma not_outweighs_of_lt (hminutes : a.minutes < 60) (hseconds : a.seconds < 60) :
    ¬ a.Outweighs b := by
  have hm : a.minutes.toNat < 60 := UInt64.lt_iff_toNat_lt.1 hminutes
  have hs : a.seconds.toNat < 60 := UInt64.lt_iff_toNat_lt.1 hseconds
  rintro (⟨hhours, hmore⟩ | ⟨-, hless, hmore⟩)
  · have hless := UInt64.lt_iff_toNat_lt.1 hhours
    unfold pastHour at hmore
    omega
  · have hless := UInt64.lt_iff_toNat_lt.1 hless
    omega

/-- A timestamp that is written before another one is not the later position, unless its smaller
parts outweigh the part by which it is; where they do, it is the later position, as long as the
other one is not cut off.  With less than 60 minutes and less than 60 seconds it never is,
whatever the other timestamp is. -/
theorem totalSeconds_le_iff (h : Ord.compare a b = .lt) :
    (a.totalSeconds ≤ b.totalSeconds ↔
      ¬ a.Outweighs b ∨ b.totalSeconds = UInt64.size - 1) ∧
    (a.minutes < 60 → a.seconds < 60 → a.totalSeconds ≤ b.totalSeconds) := by
  have hiff : a.totalSeconds ≤ b.totalSeconds ↔
      ¬ a.Outweighs b ∨ b.totalSeconds = UInt64.size - 1 := by
    rw [outweighs_iff h, totalSeconds_eq, totalSeconds_eq]
    omega
  refine ⟨hiff, fun hminutes hseconds => ?_⟩
  exact hiff.2 (.inl (not_outweighs_of_lt hminutes hseconds))

/-- Ninety minutes are written before two hours and are the earlier position, although minutes
and seconds are out of range. -/
theorem totalSeconds_le_of_ninety :
    Ord.compare (⟨0, 90, 75⟩ : Timestamp) ⟨2, 0, 0⟩ = .lt ∧
      totalSeconds ⟨0, 90, 75⟩ ≤ totalSeconds ⟨2, 0, 0⟩ := by
  have hbefore : Ord.compare (⟨0, 90, 75⟩ : Timestamp) ⟨2, 0, 0⟩ = .lt := by decide
  refine ⟨hbefore, (totalSeconds_le_iff hbefore).1.2 (.inl ?_)⟩
  rw [outweighs_iff hbefore]
  decide

/-- Sixty-one minutes are written before one hour, and they are the later position. -/
theorem not_totalSeconds_le_of_sixtyOne :
    ¬ ∀ a b : Timestamp, Ord.compare a b = .lt → a.totalSeconds ≤ b.totalSeconds := by
  intro h
  exact absurd (h ⟨0, 61, 0⟩ ⟨1, 0, 0⟩ (by decide)) (by decide)

end Montage.Timestamp
