import Sessions.Text

/-!
# Sessions.Calendar

Timestamps and their text. A timestamp counts milliseconds from the start of 1970; its text gives
the Gregorian date and the time of day in UTC, `YYYY-MM-DDTHH:MM:SS.mmmZ`, with as many digits in
the year as it needs, at least four.

Days are laid out in years that begin in March, so that the leap day ends a year: a cycle of four
hundred years is four centuries, a century is four-year groups, a group is years, and a year is the
months of `monthLengths`. `Date.ofDays` walks down these units.
-/

namespace Sessions

/-- Milliseconds since the start of 1970. -/
abbrev Timestamp := UInt64

/-- A span of time in milliseconds; it may be negative. -/
abbrev Millis := Int64

namespace Millis

def second : Millis := 1000
def minute : Millis := 60 * second
def hour : Millis := 60 * minute

end Millis

structure Date where
  year : Nat
  month : Nat
  day : Nat
deriving DecidableEq, Repr

namespace Calendar

/-- Lengths of the months from March on. The last one, February, ends where its year ends. -/
def monthLengths : List Nat := [31, 30, 31, 30, 31, 31, 30, 31, 30, 31, 31, 29]

/-- The month (counted from the first of the list) and the day in it, from zero, where a day of the
year falls. -/
def locate : List Nat → Nat → Nat × Nat
  | [], d => (0, d)
  | [_], d => (0, d)
  | l :: ls, d => if d < l then (0, d) else ((locate ls (d - l)).1 + 1, (locate ls (d - l)).2)

/-- Days from the first of March of the year 0 to the first of January 1970. -/
def epochDay : Nat := 719468

end Calendar

open Calendar in
/-- The date that lies a number of days after the first of March of the year 0. -/
def Date.ofDays (n : Nat) : Date :=
  let cycle := n / 146097
  let inCycle := n % 146097
  let century := min (inCycle / 36524) 3
  let inCentury := inCycle - 36524 * century
  let group := inCentury / 1461
  let inGroup := inCentury % 1461
  let year := min (inGroup / 365) 3
  let (month, day) := locate monthLengths (inGroup - 365 * year)
  let marchYear := 400 * cycle + 100 * century + 4 * group + year
  if month < 10 then ⟨marchYear, month + 3, day + 1⟩ else ⟨marchYear + 1, month - 9, day + 1⟩

structure Moment where
  date : Date
  hour : Nat
  minute : Nat
  second : Nat
  milli : Nat
deriving DecidableEq, Repr

namespace Moment

def ofTimestamp (t : Timestamp) : Moment :=
  let seconds := t.toNat / 1000
  { date := Date.ofDays (seconds / 86400 + Calendar.epochDay)
    hour := seconds / 3600 % 24
    minute := seconds / 60 % 60
    second := seconds % 60
    milli := t.toNat % 1000 }

def text (m : Moment) : Text :=
  Text.padded 4 m.date.year ++ "-" ++ Text.padded 2 m.date.month ++ "-" ++
    Text.padded 2 m.date.day ++ "T" ++ Text.padded 2 m.hour ++ ":" ++ Text.padded 2 m.minute ++
    ":" ++ Text.padded 2 m.second ++ "." ++ Text.padded 3 m.milli ++ "Z"

end Moment

/-- A timestamp in the form `YYYY-MM-DDTHH:MM:SS.mmmZ`. -/
def Timestamp.text (t : Timestamp) : Text := (Moment.ofTimestamp t).text

end Sessions
