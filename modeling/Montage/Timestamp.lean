import Montage.Seconds.Basic

/-!
# Timestamps

A script names a position in time as hours, minutes and seconds.  The parts are not range checked:
`0:90:00` is a legal way to write ninety minutes.  `Timestamp.totalSeconds` is the position in whole
seconds, at most `2 ^ 64 - 1`.
-/

namespace Montage

/-- A position in time, as a script writes it. -/
structure Timestamp where
  hours : UInt64
  minutes : UInt64
  seconds : UInt64
  deriving DecidableEq, Repr

namespace Timestamp

/-- The whole position in seconds, or `2 ^ 64 - 1` when it is larger. -/
def totalSeconds (t : Timestamp) : Nat :=
  min (t.hours.toNat * 3600 + t.minutes.toNat * 60 + t.seconds.toNat)
    (UInt64.size - 1)

/-- The position as a binary64 number of seconds. -/
def toSeconds (t : Timestamp) : Seconds := .ofNat t.totalSeconds

/-- Timestamps are ordered by hours, then minutes, then seconds. -/
def compare (a b : Timestamp) : Ordering :=
  (Ord.compare a.hours b.hours).then
    ((Ord.compare a.minutes b.minutes).then (Ord.compare a.seconds b.seconds))

instance : Ord Timestamp := ⟨Timestamp.compare⟩

/-- A number with at least two digits. -/
def twoDigits (n : Nat) : String := if n < 10 then "0" ++ toString n else toString n

/-- The text of a timestamp: its parts with at least two digits each, joined by colons. -/
def text (t : Timestamp) : String :=
  twoDigits t.hours.toNat ++ ":" ++ twoDigits t.minutes.toNat ++ ":" ++ twoDigits t.seconds.toNat

end Timestamp

end Montage
