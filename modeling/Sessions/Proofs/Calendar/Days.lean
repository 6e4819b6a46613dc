import Mathlib.Algebra.BigOperators.Intervals
import Mathlib.Algebra.Order.BigOperators.Group.Finset
import Mathlib.Tactic.IntervalCases
import Sessions.Calendar

/-!
# Sessions.Proofs.Calendar.Days

Dates counted by the rules of the Gregorian calendar: the days of the years before, of the months before,
and of the month. The units that a date is found by, of four hundred, a hundred and four years, come to the
same.

* `Calendar.IsLeap`, `Calendar.daysInMonth`: the rules. `Date.Proper`: a date that there is.
* `Date.sinceEpoch` counts the days from the start of 1970 by the rules.
* `Date.sinceEpoch_ofDays`: the date that is found is so many days later. `Date.sinceEpoch_lt`: later dates
  are more days later.
-/

namespace Sessions

namespace Calendar

/-- Every fourth year, but of those that end a century only every fourth. -/
def IsLeap (y : Nat) : Prop := y % 4 = 0 ∧ (y % 100 ≠ 0 ∨ y % 400 = 0)

instance (y : Nat) : Decidable (IsLeap y) := inferInstanceAs (Decidable (_ ∧ _))

/-- The days of a month. Months are numbered from January on, from one. -/
def daysInMonth (y m : Nat) : Nat :=
  if m = 2 then if IsLeap y then 29 else 28
  else if m = 4 ∨ m = 6 ∨ m = 9 ∨ m = 11 then 30
  else 31

def daysInYear (y : Nat) : Nat := ∑ m ∈ Finset.Ico 1 13, daysInMonth y m

end Calendar

namespace Date

open Calendar

/-- There is such a date. -/
structure Proper (d : Date) : Prop where
  month : 1 ≤ d.month ∧ d.month ≤ 12
  day : 1 ≤ d.day ∧ d.day ≤ daysInMonth d.year d.month

/-- The days from the start of 1970 to a date of that year or of a later one. -/
def sinceEpoch (d : Date) : Nat :=
  ∑ y ∈ Finset.Ico 1970 d.year, daysInYear y + ∑ m ∈ Finset.Ico 1 d.month, daysInMonth d.year m +
    (d.day - 1)

end Date

namespace Calendar

/-! ## Years -/

theorem daysInYear_eq (y : Nat) : daysInYear y = if IsLeap y then 366 else 365 := by
  by_cases h : IsLeap y <;> simp [daysInYear, Finset.sum_Ico_succ_top, daysInMonth, h]

/-- The days of the years from 1970 on, counted in whole years and leap days. -/
theorem sum_daysInYear {y : Nat} (h : 1970 ≤ y) :
    ∑ k ∈ Finset.Ico 1970 y, daysInYear k + 719162 + (y - 1) / 100 =
      365 * (y - 1) + (y - 1) / 4 + (y - 1) / 400 := by
  induction y, h using Nat.le_induction with
  | base => rfl
  | succ y h ih =>
    rw [Finset.sum_Ico_succ_top h, daysInYear_eq]
    split <;> rename_i hleap <;> unfold IsLeap at hleap <;> omega

/-! ## Months -/

theorem locate_spec {ls : List Nat} {d : Nat} (h : d < ls.sum) :
    ∃ l, ls[(locate ls d).1]? = some l ∧ (locate ls d).2 < l ∧
      (ls.take (locate ls d).1).sum + (locate ls d).2 = d := by
  fun_induction locate ls d with
  | case1 d => simp at h
  | case2 l d => exact ⟨l, rfl, by simpa using h, by simp⟩
  | case3 l ls d _ hlt => exact ⟨l, rfl, hlt, by simp⟩
  | case4 l ls d _ hge ih =>
    rw [List.sum_cons] at h
    obtain ⟨l', hl', hlt, hsum⟩ := ih (by omega)
    refine ⟨l', by simpa using hl', hlt, ?_⟩
    rw [List.take_succ_cons, List.sum_cons]
    omega

theorem daysInMonth_le (y m : Nat) : daysInMonth y m ≤ 31 := by
  unfold daysInMonth
  split
  · split <;> decide
  · split <;> decide

theorem daysInMonth_february (y : Nat) : daysInMonth y 2 = if IsLeap y then 29 else 28 := rfl

/-- From March on the months have their fixed lengths, behind January and February. -/
theorem months_from_march (y : Nat) {i : Nat} (h : i < 10) :
    monthLengths[i]? = some (daysInMonth y (i + 3)) ∧
      ∑ m ∈ Finset.Ico 1 (i + 3), daysInMonth y m =
        31 + daysInMonth y 2 + (monthLengths.take i).sum ∧
      (monthLengths.take i).sum + daysInMonth y (i + 3) ≤ 306 := by
  interval_cases i <;> simp [Finset.sum_Ico_succ_top, daysInMonth, monthLengths]

/-- January and February come last, and February is short of its last day in most years. -/
theorem months_to_february (y : Nat) {i l r : Nat} (h : 10 ≤ i) (hi : i < 12)
    (hl : monthLengths[i]? = some l) (hr : r < l)
    (hday : (monthLengths.take i).sum + r < 365 ∨ IsLeap y) :
    r < daysInMonth y (i - 9) ∧
      ∑ m ∈ Finset.Ico 1 (i - 9), daysInMonth y m + 306 = (monthLengths.take i).sum := by
  have hmonth : i = 10 ∨ i = 11 := by omega
  rcases hmonth with rfl | rfl
  · obtain rfl : 31 = l := Option.some.inj hl
    exact ⟨hr, rfl⟩
  · obtain rfl : 29 = l := Option.some.inj hl
    refine ⟨?_, rfl⟩
    have hbefore : (monthLengths.take 11).sum = 337 := rfl
    rw [daysInMonth_february]
    split
    · exact hr
    · rename_i hshort
      have hlast := hday.resolve_right hshort
      omega

end Calendar

namespace Date

open Calendar

variable {d d' : Date}

/-! ## Years that begin in March -/

/-- The date of a day in a year that begins in March, both counted from zero. -/
def ofMarch (y d : Nat) : Date :=
  if (locate monthLengths d).1 < 10 then
    ⟨y, (locate monthLengths d).1 + 3, (locate monthLengths d).2 + 1⟩
  else ⟨y + 1, (locate monthLengths d).1 - 9, (locate monthLengths d).2 + 1⟩

/-- The days of years that begin in March. -/
def marchDays (y : Nat) : Nat := 365 * y + y / 4 + y / 400 - y / 100

theorem marchDays_eq {cycle century group year : Nat} (hcentury : century ≤ 3) (hgroup : group ≤ 24)
    (hyear : year ≤ 3) : marchDays (400 * cycle + 100 * century + 4 * group + year) =
      146097 * cycle + 36524 * century + 1461 * group + 365 * year := by
  unfold marchDays
  omega

/-- Four hundred, a hundred and four years, and single years: what is left is a day of a year. The last
unit of each kind is a day longer where it ends in a leap day. -/
theorem exists_ofMarch (n : Nat) :
    ∃ y d, ofDays n = ofMarch y d ∧ n = marchDays y + d ∧ (d < 365 ∨ d = 365 ∧ IsLeap (y + 1)) := by
  let cycle := n / 146097
  let century := min (n % 146097 / 36524) 3
  let inCentury := n % 146097 - 36524 * century
  let group := inCentury / 1461
  let inGroup := inCentury % 1461
  let year := min (inGroup / 365) 3
  have hcentury : century ≤ 3 ∧ inCentury + 36524 * century = n % 146097 ∧
      (inCentury < 36524 ∨ century = 3 ∧ inCentury = 36524) := by omega
  have hgroup : group ≤ 24 ∧ inGroup + 1461 * group = inCentury := by omega
  have hyear : year ≤ 3 ∧ 365 * year ≤ inGroup ∧
      (inGroup < 365 * year + 365 ∨ year = 3 ∧ inGroup = 1460) := by omega
  refine ⟨400 * cycle + 100 * century + 4 * group + year, inGroup - 365 * year, rfl, ?_, ?_⟩
  · rw [marchDays_eq hcentury.1 hgroup.1 hyear.1]
    omega
  · unfold IsLeap
    omega

/-- The date of a day in a year that begins in March lies so many days after 1970. -/
theorem sinceEpoch_ofMarch {y d : Nat} (hd : d < 365 ∨ d = 365 ∧ IsLeap (y + 1))
    (h : epochDay ≤ marchDays y + d) :
    (ofMarch y d).Proper ∧ 1970 ≤ (ofMarch y d).year ∧
      (ofMarch y d).sinceEpoch + epochDay = marchDays y + d := by
  have hsum : d < monthLengths.sum := by
    have hlengths : monthLengths.sum = 366 := rfl
    omega
  obtain ⟨l, hl, hlt, hday⟩ := locate_spec hsum
  unfold ofMarch
  generalize locate monthLengths d = p at *
  obtain ⟨i, r⟩ := p
  dsimp only at hl hlt hday ⊢
  have hi : i < 12 := (List.getElem?_eq_some_iff.1 hl).1
  by_cases hmarch : i < 10
  · rw [if_pos hmarch]
    obtain ⟨hlength, hbefore, hend⟩ := months_from_march y hmarch
    rw [hlength, Option.some.injEq] at hl
    have hyear : 1970 ≤ y := by
      unfold marchDays epochDay at h
      omega
    refine ⟨⟨⟨Nat.le_add_left 1 _, Nat.add_le_add_right (Nat.le_of_lt_succ hmarch) 3⟩,
      ⟨Nat.le_add_left 1 r, by dsimp only; omega⟩⟩, hyear, ?_⟩
    have hyears := sum_daysInYear hyear
    have hfebruary := daysInMonth_february y
    unfold sinceEpoch marchDays epochDay
    dsimp only
    rw [hbefore]
    split at hfebruary <;> rename_i hleap <;> unfold IsLeap at hleap <;> omega
  · rw [if_neg hmarch]
    have hlong : (monthLengths.take i).sum + r < 365 ∨ IsLeap (y + 1) := by
      rw [hday]
      exact hd.imp_right And.right
    obtain ⟨hmonth, hbefore⟩ := months_to_february (y + 1) (Nat.not_lt.1 hmarch) hi hl hlt hlong
    have hyear : 1970 ≤ y + 1 := by
      unfold marchDays epochDay at h
      omega
    refine ⟨⟨⟨by dsimp only; omega, by dsimp only; omega⟩, ⟨Nat.le_add_left 1 r, hmonth⟩⟩, hyear, ?_⟩
    have hyears := sum_daysInYear hyear
    unfold sinceEpoch marchDays epochDay
    dsimp only
    omega

/-- **The date of a day.** The date that is found for a day is a date that there is, and the day is as many
days behind the start of 1970 as the years, months and days of that date come to. -/
theorem sinceEpoch_ofDays (n : Nat) :
    (ofDays (n + epochDay)).Proper ∧ 1970 ≤ (ofDays (n + epochDay)).year ∧
      (ofDays (n + epochDay)).sinceEpoch = n := by
  obtain ⟨y, d, hdate, hn, hd⟩ := exists_ofMarch (n + epochDay)
  obtain ⟨hproper, hyear, hdays⟩ := sinceEpoch_ofMarch hd (hn ▸ Nat.le_add_left _ n)
  rw [hdate]
  exact ⟨hproper, hyear, by omega⟩

/-! ## Order -/

theorem sum_add_le {f : Nat → Nat} {a i j : Nat} (ha : a ≤ i) (h : i < j) :
    ∑ k ∈ Finset.Ico a i, f k + f i ≤ ∑ k ∈ Finset.Ico a j, f k := by
  rw [← Finset.sum_Ico_succ_top ha]
  exact Finset.sum_le_sum_of_subset (Finset.Ico_subset_Ico_right h)

/-- A date lies in its year. -/
theorem Proper.lt_daysInYear (h : d.Proper) :
    ∑ m ∈ Finset.Ico 1 d.month, daysInMonth d.year m + (d.day - 1) < daysInYear d.year := by
  have hlast : d.month < 13 := Nat.lt_succ_of_le h.month.2
  have hmonth := sum_add_le (f := daysInMonth d.year) h.month.1 hlast
  have hday := h.day
  unfold daysInYear
  omega

/-- A later date is more days behind the start of 1970. -/
theorem sinceEpoch_lt (h : d.Proper) (hepoch : 1970 ≤ d.year)
    (hlt : d.year < d'.year ∨ d.year = d'.year ∧
      (d.month < d'.month ∨ d.month = d'.month ∧ d.day < d'.day)) :
    d.sinceEpoch < d'.sinceEpoch := by
  unfold sinceEpoch
  rcases hlt with hyear | ⟨hyear, hmonth | ⟨hmonth, hday⟩⟩
  · have hyears := sum_add_le (f := daysInYear) hepoch hyear
    have hdays := h.lt_daysInYear
    omega
  · have hmonths := sum_add_le (f := daysInMonth d.year) h.month.1 hmonth
    have hdays := h.day
    rw [← hyear]
    omega
  · have hdays := h.day
    rw [← hyear, ← hmonth]
    omega

end Date
end Sessions
