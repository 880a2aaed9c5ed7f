import ProvenTables.Timestamp.Calendar

/-!
# Timestamps

Moments in UTC: a date, a second of the day and nanoseconds. The nanoseconds of a leap second are
counted on from those of the last second of its minute.
-/

namespace ProvenTables

/-- A moment of universal time; nanoseconds of a thousand million and more are those of a leap second. -/
structure Timestamp where
  date : Date
  second : Nat
  nanos : Nat
  second_lt : second < 86400
  nanos_lt : nanos < 2 * 10 ^ 9
  last_of_leap : 10 ^ 9 ≤ nanos → second % 60 = 59
  deriving DecidableEq

namespace Timestamp

/-- The moment with parts that are in their bounds. -/
def of? (date : Date) (second nanos : Nat) : Option Timestamp :=
  if h : second < 86400 ∧ nanos < 2 * 10 ^ 9 ∧ (10 ^ 9 ≤ nanos → second % 60 = 59) then
    some ⟨date, second, nanos, h.1, h.2.1, h.2.2⟩
  else none

/-- The timestamp of a clock time on a date; second 60 is a leap second. -/
def ofClock? (date : Date) (hour minute second nanos : Nat) : Option Timestamp :=
  if hour < 24 ∧ minute < 60 ∧ second ≤ 60 ∧ nanos < 10 ^ 9 then
    if second = 60 then of? date (hour * 3600 + minute * 60 + 59) (nanos + 10 ^ 9)
    else of? date (hour * 3600 + minute * 60 + second) nanos
  else none

/-- The moment that many minutes earlier, for less than a day in either direction. -/
def minus? (t : Timestamp) (minutes : Int) : Option Timestamp :=
  let s := (t.second : Int) - 60 * minutes
  if s < 0 then t.date.previous?.bind fun d => of? d (s + 86400).toNat t.nanos
  else if 86400 ≤ s then t.date.next?.bind fun d => of? d (s - 86400).toNat t.nanos
  else of? t.date s.toNat t.nanos

/-- The seconds from the start of 1970, rounded down. -/
def unixSeconds (t : Timestamp) : Int := t.date.epochDay * 86400 + t.second

/-- The earlier moment first. -/
def order (a b : Timestamp) : Ordering :=
  (a.date.order b.date).then ((compare a.second b.second).then (compare a.nanos b.nanos))

end Timestamp

end ProvenTables
