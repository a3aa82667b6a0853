/-!
# Days and times

A document can hold a day of the calendar or a moment of a day. A moment may name its distance from
universal time; two that do so are the same if they are at the same time, and no other two are
(`Timestamp.Identity`). `Day.isValid` and `Clock.isValid` say which days and times there are.
-/

namespace ParamCheck

/-- A day of the calendar. -/
structure Day where
  year : Nat
  month : Nat
  day : Nat
  deriving DecidableEq, Repr, Inhabited

/-- A time of day. -/
structure Clock where
  hour : Nat
  minute : Nat
  second : Nat
  micro : Nat
  /-- The distance from universal time in minutes, if it is given. -/
  offset : Option Int
  deriving DecidableEq, Repr, Inhabited

/-- A day, or a moment of it. -/
structure Timestamp where
  day : Day
  clock : Option Clock
  deriving DecidableEq, Repr, Inhabited

namespace Day

/-- Whether a year has a leap day. -/
def isLeap (year : Nat) : Bool := year % 4 = 0 && (year % 100 ≠ 0 || year % 400 = 0)

/-- The number of days of each month. -/
def monthLengths (year : Nat) : List Nat :=
  [31, if isLeap year then 29 else 28, 31, 30, 31, 30, 31, 31, 30, 31, 30, 31]

/-- Whether there is such a day, counting years from one. -/
def isValid (d : Day) : Bool :=
  match d.month with
  | 0 => false
  | m + 1 =>
    match (monthLengths d.year)[m]? with
    | some length => 1 ≤ d.year && 1 ≤ d.day && d.day ≤ length
    | none => false

/-- The number of days before a day since the start of the calendar. -/
def ordinal (d : Day) : Nat :=
  let past := d.year - 1
  365 * past + past / 4 - past / 100 + past / 400
    + ((monthLengths d.year).take (d.month - 1)).foldl (· + ·) 0 + (d.day - 1)

end Day

/-- Whether there is such a time, less than a day from universal time. -/
def Clock.isValid (c : Clock) : Bool :=
  c.hour < 24 && c.minute < 60 && c.second < 60 &&
    match c.offset with
    | some minutes => -1440 < minutes && minutes < 1440
    | none => true

namespace Timestamp

/-- What a day or a moment is known by. -/
inductive Identity where
  | day (d : Day)
  | moment (d : Day) (c : Clock)
  /-- A moment by the microseconds that universal time counts. -/
  | universal (micros : Int)
  deriving DecidableEq, Repr

/-- What a day or a moment is known by: universal time if its distance from that is given. -/
def identity (t : Timestamp) : Identity :=
  match t.clock with
  | none => .day t.day
  | some c =>
    match c.offset with
    | none => .moment t.day c
    | some minutes =>
      let local_ : Int := Int.ofNat
        ((t.day.ordinal * 1440 + c.hour * 60 + c.minute) * 60000000 + c.second * 1000000 + c.micro)
      .universal (local_ - minutes * 60000000)

end Timestamp

end ParamCheck
