import Mathlib.Tactic.IntervalCases
import Mathlib.Tactic.Tauto
import AccessGateway.Time.Calendar

/-!
# Counting the days of the calendar

The day numbers of the calendar are computed from formulas.  Here they are compared with what a
calendar is: one day after another from Thursday, 1 January 1970, on and back, with months that
end where their last day is over and weekdays that follow each other.

## Results

* `ofDays_toDays`, `toDays_ofDays`, `isValid_ofDays` — day numbers and valid dates belong to each
  other one by one.
* `toDays_next` — the day after a day has the next number.
* `counted_iff` — the date and the weekday that the formulas give are those that counting gives.
-/

set_option autoImplicit false

namespace AccessGateway.Calendar

variable {y n : Int} {m d w : Nat} {date : Date}

theorem isLeapYear_iff :
    isLeapYear y = true ↔ y % 4 = 0 ∧ (y % 100 ≠ 0 ∨ y % 400 = 0) := by
  simp [isLeapYear]

theorem isValid_iff : date.isValid = true ↔
    1 ≤ date.month ∧ date.month ≤ 12 ∧ 1 ≤ date.day ∧
      date.day ≤ daysInMonth date.year date.month := by
  simp [Date.isValid, and_assoc]

theorem daysInMonth_le : daysInMonth y m ≤ 31 := by
  unfold daysInMonth
  split <;> try split
  all_goals decide

/-! ## Years from March on -/

/-- The days from 1 March of year 0 to 1 March of a year. -/
def yearStart (y : Int) : Int := 365 * y + y / 4 - y / 100 + y / 400

/-- The days from 1 March of a year to the next 1 March. -/
def yearLength (y : Int) : Nat := if isLeapYear (y + 1) then 366 else 365

theorem yearLength_cases : yearLength y = 365 ∨ yearLength y = 366 := by
  unfold yearLength
  split <;> simp

/-- A year by its place in the cycles of 400, of 100 and of 4 years. -/
structure Cycles where
  era : Int
  century : Nat
  quad : Nat
  rest : Nat
  century_le : century ≤ 3
  quad_le : quad ≤ 24
  rest_le : rest ≤ 3

namespace Cycles

/-- The year of a place. -/
def year (k : Cycles) : Int := 400 * k.era + (100 * k.century + 4 * k.quad + k.rest : Nat)

theorem exists_year (y : Int) : ∃ k : Cycles, k.year = y := by
  refine ⟨⟨y / 400, (y % 400 / 100).toNat, (y % 100 / 4).toNat, (y % 4).toNat, ?_, ?_, ?_⟩, ?_⟩
  · omega
  · omega
  · omega
  · unfold year
    dsimp only
    push_cast
    omega

/-- An era has 146097 days, a century 36524, four years 1461 and a year 365, each without the
    leap day that may end it. -/
theorem yearStart_year (k : Cycles) : yearStart k.year =
    146097 * k.era + (36524 * k.century + 1461 * k.quad + 365 * k.rest : Nat) := by
  obtain ⟨era, century, quad, rest, hcentury, hquad, hrest⟩ := k
  unfold yearStart year
  dsimp only
  push_cast
  omega

/-- The last of four years has the leap day, unless it is the last of a century; the last of an
    era has it again. -/
theorem yearLength_year (k : Cycles) : yearLength k.year =
    if k.rest = 3 ∧ (k.quad ≠ 24 ∨ k.century = 3) then 366 else 365 := by
  obtain ⟨era, century, quad, rest, hcentury, hquad, hrest⟩ := k
  have h4 : (400 * era + (100 * century + 4 * quad + rest : Nat) + 1) % 4 = 0 ↔ rest = 3 := by
    omega
  have h100 : (400 * era + (100 * century + 4 * quad + rest : Nat) + 1) % 100 = 0 ↔
      quad = 24 ∧ rest = 3 := by
    omega
  have h400 : (400 * era + (100 * century + 4 * quad + rest : Nat) + 1) % 400 = 0 ↔
      century = 3 ∧ quad = 24 ∧ rest = 3 := by
    omega
  unfold yearLength year
  dsimp only
  refine if_congr ?_ rfl rfl
  rw [isLeapYear_iff, h4, ne_eq, h100, h400]
  tauto

end Cycles

theorem yearStart_succ (y : Int) : yearStart (y + 1) = yearStart y + yearLength y := by
  obtain ⟨k, rfl⟩ := Cycles.exists_year y
  rw [k.yearLength_year, k.yearStart_year]
  obtain ⟨era, century, quad, rest, hcentury, hquad, hrest⟩ := k
  unfold yearStart Cycles.year
  dsimp only
  have h4 : (400 * era + (100 * century + 4 * quad + rest : Nat) + 1) / 4 =
      100 * era + 25 * century + quad + (rest + 1) / 4 := by
    omega
  have h100 : (400 * era + (100 * century + 4 * quad + rest : Nat) + 1) / 100 =
      4 * era + century + (4 * quad + rest + 1) / 100 := by
    omega
  have h400 : (400 * era + (100 * century + 4 * quad + rest : Nat) + 1) / 400 =
      era + (100 * century + 4 * quad + rest + 1) / 400 := by
    omega
  rw [h4, h100, h400]
  split <;> push_cast <;> omega

/-! ## Months from March on -/

/-- The days from 1 March to the first day of a month, the months counted from March on. -/
def monthStart (m : Nat) : Nat := (153 * m + 2) / 5

/-- The day `d` of month `m` in the year that begins with March of year `y`; days and months are
    counted from 0 on. -/
def inMarchYear (y : Int) (m d : Nat) : Date :=
  let month := if m < 10 then m + 3 else m - 9
  ⟨if month ≤ 2 then y + 1 else y, month, d + 1⟩

theorem inMarchYear_of_lt (hm : m < 10) : inMarchYear y m d = ⟨y, m + 3, d + 1⟩ := by
  unfold inMarchYear
  dsimp only
  rw [if_pos hm, if_neg (by omega)]

theorem inMarchYear_of_ge (hm : 10 ≤ m) (hlast : m ≤ 11) :
    inMarchYear y m d = ⟨y + 1, m - 9, d + 1⟩ := by
  have hmonth : (if m < 10 then m + 3 else m - 9) = m - 9 := if_neg (by omega)
  unfold inMarchYear
  dsimp only
  rw [hmonth, if_pos (by omega)]

/-- Each month ends where the next one starts, the last one with the year. -/
theorem monthStart_add_days (hm : m ≤ 11) :
    monthStart m + daysInMonth (inMarchYear y m d).year (inMarchYear y m d).month =
      min (monthStart (m + 1)) (yearLength y) := by
  have hlength := @yearLength_cases y
  unfold inMarchYear
  by_cases hlast : m = 11
  · subst hlast
    unfold yearLength
    simp [monthStart, daysInMonth]
    split <;> rfl
  · have hstart : monthStart (m + 1) ≤ 337 := by
      unfold monthStart
      omega
    rw [Nat.min_eq_left (by omega)]
    interval_cases m <;> first | rfl | contradiction

theorem isValid_inMarchYear (hm : m ≤ 11) : (inMarchYear y m d).isValid = true ↔
    monthStart m + d < min (monthStart (m + 1)) (yearLength y) := by
  rw [← monthStart_add_days (d := d) hm, isValid_iff]
  have hday : (inMarchYear y m d).day = d + 1 := rfl
  have hmonth : 1 ≤ (inMarchYear y m d).month ∧ (inMarchYear y m d).month ≤ 12 := by
    unfold inMarchYear
    dsimp only
    split <;> omega
  omega

theorem toDays_inMarchYear (hm : m ≤ 11) :
    (inMarchYear y m d).toDays = yearStart y + monthStart m + d - 719468 := by
  by_cases hmarch : m < 10
  · rw [inMarchYear_of_lt hmarch]
    unfold Date.toDays yearStart monthStart
    dsimp only
    rw [if_neg (by omega), if_neg (by omega), Nat.add_sub_cancel]
    push_cast
    omega
  · have hmonth : m - 9 + 9 = m := by omega
    rw [inMarchYear_of_ge (by omega) hm]
    unfold Date.toDays yearStart monthStart
    dsimp only
    rw [if_pos (by omega), if_pos (by omega), hmonth]
    push_cast
    omega

/-- Every month of the calendar is one of a year that begins with March. -/
theorem exists_inMarchYear (h : date.isValid = true) :
    ∃ y m d, m ≤ 11 ∧ date = inMarchYear y m d := by
  obtain ⟨hfirst, hlast, hday, -⟩ := isValid_iff.mp h
  obtain ⟨year, month, day⟩ := date
  dsimp only at hfirst hlast hday
  by_cases hmarch : month ≤ 2
  · refine ⟨year - 1, month + 9, day - 1, by omega, ?_⟩
    rw [inMarchYear_of_ge (by omega) (by omega), Int.sub_add_cancel, Nat.add_sub_cancel,
      Nat.sub_add_cancel hday]
  · refine ⟨year, month - 3, day - 1, by omega, ?_⟩
    rw [inMarchYear_of_lt (by omega), Nat.sub_add_cancel (by omega), Nat.sub_add_cancel hday]

/-! ## From day numbers to dates -/

/-- The days of an era, without the leap day at its end, are split into centuries, sets of four
    years, years and days. -/
theorem exists_cycles {day : Nat} (h : day < 146097) : ∃ century quad rest d,
    day = 36524 * century + 1461 * quad + 365 * rest + d ∧ century ≤ 3 ∧ quad ≤ 24 ∧ rest ≤ 3 ∧
      d ≤ 365 ∧ (d = 365 → rest = 3 ∧ (quad ≠ 24 ∨ century = 3)) := by
  obtain ⟨century, hcentury⟩ : ∃ k, k = min (day / 36524) 3 := ⟨_, rfl⟩
  obtain ⟨inCentury, hinCentury⟩ : ∃ k, k = day - 36524 * century := ⟨_, rfl⟩
  obtain ⟨quad, hquad⟩ : ∃ k, k = inCentury / 1461 := ⟨_, rfl⟩
  obtain ⟨inQuad, hinQuad⟩ : ∃ k, k = inCentury - 1461 * quad := ⟨_, rfl⟩
  refine ⟨century, quad, min (inQuad / 365) 3, inQuad - 365 * min (inQuad / 365) 3, ?_⟩
  omega

/-- Every day number counts a day of some year from its 1 March on. -/
theorem exists_march (n : Int) : ∃ y, ∃ d < yearLength y, n = yearStart y + d - 719468 := by
  have hday : ((n + 719468) % 146097).toNat < 146097 := by omega
  obtain ⟨century, quad, rest, d, hsplit, hcentury, hquad, hrest, hd, hlast⟩ := exists_cycles hday
  refine ⟨Cycles.year ⟨(n + 719468) / 146097, century, quad, rest, hcentury, hquad, hrest⟩, d,
    ?_, ?_⟩
  · rw [Cycles.yearLength_year]
    dsimp only
    split <;> omega
  · rw [Cycles.yearStart_year]
    dsimp only
    omega

/-- The year of a day in its era: the leap days before it are taken out, of which there is one
    after 1460 days, none after 36524 and one again after 146096. -/
theorem year_of_cycles {century quad rest d : Nat} (hcentury : century ≤ 3) (hquad : quad ≤ 24)
    (hrest : rest ≤ 3) (hd : d ≤ 365) (hlast : d = 365 → rest = 3 ∧ (quad ≠ 24 ∨ century = 3)) :
    let day := 36524 * century + 1461 * quad + 365 * rest + d
    (day - day / 1460 + day / 36524 - day / 146096) / 365 = 100 * century + 4 * quad + rest := by
  intro day
  have hcenturies : day / 36524 - day / 146096 = century := by omega
  have hleaps : day / 1460 =
      25 * century + quad + if 24 * century + quad + 365 * rest + d < 1460 then 0 else 1 := by
    split <;> omega
  have hera : day / 146096 ≤ day / 36524 := by omega
  split at hleaps <;> omega

/-- The date of a day that is counted from 1 March of a year. -/
theorem ofDays_march (hd : d < yearLength y) : Date.ofDays (yearStart y + d - 719468) =
    inMarchYear y ((5 * d + 2) / 153) (d - monthStart ((5 * d + 2) / 153)) := by
  obtain ⟨k, rfl⟩ := Cycles.exists_year y
  rw [k.yearLength_year] at hd
  rw [k.yearStart_year]
  obtain ⟨era, century, quad, rest, hcentury, hquad, hrest⟩ := k
  dsimp only at hd ⊢
  have hle : d ≤ 365 := by split at hd <;> omega
  have hlast : d = 365 → rest = 3 ∧ (quad ≠ 24 ∨ century = 3) := by split at hd <;> omega
  have hyear := year_of_cycles hcentury hquad hrest hle hlast
  dsimp only at hyear
  -- the day and the year within the era
  generalize hday : 36524 * century + 1461 * quad + 365 * rest + d = day at hyear
  generalize hof : 100 * century + 4 * quad + rest = year at hyear
  have hdays : day - (365 * year + year / 4 - year / 100) = d := by
    have hquarter : year / 4 = 25 * century + quad := by omega
    have hhundredth : year / 100 = century := by omega
    omega
  have hcount : 146097 * era + (36524 * century + 1461 * quad + 365 * rest : Nat) + d - 719468 +
      719468 = 146097 * era + day := by
    omega
  have hera : (146097 * era + (day : Int)) / 146097 = era := by omega
  have hrest : ((146097 * era + (day : Int)) % 146097).toNat = day := by omega
  unfold Date.ofDays inMarchYear monthStart Cycles.year
  dsimp only
  rw [hcount, hera, hrest, hyear, hdays, hof, Int.mul_comm era 400]

theorem month_of_day (h : monthStart m + d < monthStart (m + 1)) :
    (5 * (monthStart m + d) + 2) / 153 = m := by
  unfold monthStart at h ⊢
  omega

theorem exists_month (hd : d ≤ 366) :
    ∃ m ≤ 11, ∃ k, d = monthStart m + k ∧ d < monthStart (m + 1) := by
  unfold monthStart
  refine ⟨(5 * d + 2) / 153, by omega, d - (153 * ((5 * d + 2) / 153) + 2) / 5, by omega, by omega⟩

/-- The date of a day of a month. -/
theorem ofDays_inMarchYear
    (h : monthStart m + d < min (monthStart (m + 1)) (yearLength y)) :
    Date.ofDays (yearStart y + monthStart m + d - 719468) = inMarchYear y m d := by
  have hmonth := month_of_day (Nat.lt_of_lt_of_le h (Nat.min_le_left _ _))
  have hdays := ofDays_march (Nat.lt_of_lt_of_le h (Nat.min_le_right _ _))
  rw [hmonth, Nat.add_sub_cancel_left, Int.natCast_add, ← Int.add_assoc] at hdays
  exact hdays

/-- Every day number belongs to a day of a month. -/
theorem exists_inMarchYear_of_days (n : Int) :
    ∃ y m d, m ≤ 11 ∧ monthStart m + d < min (monthStart (m + 1)) (yearLength y) ∧
      n = yearStart y + monthStart m + d - 719468 := by
  obtain ⟨y, d, hd, rfl⟩ := exists_march n
  have hlength := @yearLength_cases y
  obtain ⟨m, hm, k, rfl, hmonth⟩ := @exists_month d (by omega)
  exact ⟨y, m, k, hm, by omega, by omega⟩

/-- Day numbers belong to days that the calendar has. -/
theorem isValid_ofDays (n : Int) : (Date.ofDays n).isValid = true := by
  obtain ⟨y, m, d, hm, hd, rfl⟩ := exists_inMarchYear_of_days n
  rw [ofDays_inMarchYear hd]
  exact (isValid_inMarchYear hm).mpr hd

/-- The date of a day number has this number. -/
theorem toDays_ofDays (n : Int) : (Date.ofDays n).toDays = n := by
  obtain ⟨y, m, d, hm, hd, rfl⟩ := exists_inMarchYear_of_days n
  rw [ofDays_inMarchYear hd, toDays_inMarchYear hm]

/-- A day that the calendar has is the date of its number. -/
theorem ofDays_toDays (h : date.isValid = true) : Date.ofDays date.toDays = date := by
  obtain ⟨y, m, d, hm, rfl⟩ := exists_inMarchYear h
  rw [toDays_inMarchYear hm, ofDays_inMarchYear ((isValid_inMarchYear hm).mp h)]

/-! ## One day after another -/

/-- The day after a day. -/
def Date.next (date : Date) : Date :=
  if date.day < daysInMonth date.year date.month then ⟨date.year, date.month, date.day + 1⟩
  else if date.month < 12 then ⟨date.year, date.month + 1, 1⟩
  else ⟨date.year + 1, 1, 1⟩

/-- Within a month days follow each other, after its last day the next month begins, and after the
    last month the next year. -/
theorem next_inMarchYear (hm : m ≤ 11) : (inMarchYear y m d).next =
    if monthStart m + (d + 1) < min (monthStart (m + 1)) (yearLength y) then
      inMarchYear y m (d + 1)
    else if m < 11 then inMarchYear y (m + 1) 0
    else inMarchYear (y + 1) 0 0 := by
  rw [← monthStart_add_days (d := d) hm]
  have hday : (inMarchYear y m d).day = d + 1 := rfl
  unfold Date.next
  rw [hday]
  by_cases hwithin : d + 1 < daysInMonth (inMarchYear y m d).year (inMarchYear y m d).month
  · rw [if_pos hwithin, if_pos (by omega)]
    rfl
  · have hover : ¬monthStart m + (d + 1) < monthStart m +
        daysInMonth (inMarchYear y m d).year (inMarchYear y m d).month := by
      omega
    rw [if_neg hwithin, if_neg hover]
    by_cases hmarch : m < 10
    · rw [inMarchYear_of_lt hmarch, if_pos (by omega : m < 11)]
      dsimp only
      by_cases hdecember : m < 9
      · rw [if_pos (by omega), inMarchYear_of_lt (by omega)]
      · rw [if_neg (by omega), inMarchYear_of_ge (by omega) (by omega),
          show m + 1 - 9 = 1 by omega]
    · rw [inMarchYear_of_ge (by omega) hm]
      dsimp only
      rw [if_pos (by omega : m - 9 < 12)]
      by_cases hfebruary : m < 11
      · rw [if_pos hfebruary, inMarchYear_of_ge (by omega) (by omega),
          show m - 9 + 1 = m + 1 - 9 by omega]
      · rw [if_neg hfebruary, inMarchYear_of_lt (by decide), show m - 9 + 1 = 3 by omega]

/-- The day after a day has the next number. -/
theorem toDays_next (h : date.isValid = true) : date.next.toDays = date.toDays + 1 := by
  obtain ⟨y, m, d, hm, rfl⟩ := exists_inMarchYear h
  have hfits := (isValid_inMarchYear hm).mp h
  rw [next_inMarchYear hm, toDays_inMarchYear hm]
  split
  case isTrue =>
    rw [toDays_inMarchYear hm]
    push_cast
    omega
  case isFalse hover =>
    have hlength := @yearLength_cases y
    split
    case isTrue hnext =>
      have hstart : monthStart (m + 1) ≤ 337 := by
        unfold monthStart
        omega
      rw [toDays_inMarchYear (by omega)]
      omega
    case isFalse hlast =>
      obtain rfl : m = 11 := by omega
      have hend : yearLength y ≤ monthStart 12 := by
        rcases hlength with h | h <;> rw [h] <;> decide
      rw [toDays_inMarchYear (by decide), yearStart_succ]
      have hmarch : monthStart 0 = 0 := rfl
      have hlastMonth : monthStart (11 + 1) = monthStart 12 := rfl
      omega

theorem isValid_next (h : date.isValid = true) : date.next.isValid = true := by
  obtain ⟨y, m, d, hm, rfl⟩ := exists_inMarchYear h
  rw [next_inMarchYear hm]
  split
  case isTrue hwithin => exact (isValid_inMarchYear hm).mpr hwithin
  case isFalse =>
    split
    case isTrue =>
      have hlength := @yearLength_cases y
      refine (isValid_inMarchYear (by omega)).mpr ?_
      unfold monthStart
      omega
    case isFalse =>
      have hlength := @yearLength_cases (y + 1)
      refine (isValid_inMarchYear (by decide)).mpr ?_
      unfold monthStart
      omega

theorem ofDays_succ (n : Int) : Date.ofDays (n + 1) = (Date.ofDays n).next := by
  have hvalid := isValid_ofDays n
  have hnext := toDays_next hvalid
  rw [toDays_ofDays] at hnext
  rw [← hnext, ofDays_toDays (isValid_next hvalid)]

/-! ## Weekdays -/

theorem weekday_lt (n : Int) : weekday n < 7 := by
  unfold weekday
  omega

theorem weekday_succ (n : Int) : weekday (n + 1) = (weekday n + 1) % 7 := by
  unfold weekday
  omega

/-- The date and the weekday, Sunday being 0, of a day that is counted from Thursday, 1 January
    1970, on and back, one day at a time. -/
inductive Counted : Int → Date → Nat → Prop
  | epoch : Counted 0 ⟨1970, 1, 1⟩ 4
  | next {n : Int} {date : Date} {w : Nat} :
      Counted n date w → Counted (n + 1) date.next ((w + 1) % 7)
  | previous {n : Int} {date : Date} {w : Nat} : date.isValid = true → w < 7 →
      Counted (n + 1) date.next ((w + 1) % 7) → Counted n date w

/-- **Counting days** gives the dates and the weekdays that are computed, and no others. -/
theorem counted_iff : Counted n date w ↔ date = Date.ofDays n ∧ w = weekday n := by
  constructor
  · intro h
    induction h with
    | epoch => exact ⟨rfl, rfl⟩
    | next _ ih =>
      obtain ⟨rfl, rfl⟩ := ih
      exact ⟨(ofDays_succ _).symm, (weekday_succ _).symm⟩
    | @previous n date w hvalid hw _ ih =>
      obtain ⟨hdate, hweekday⟩ := ih
      have hdays : date.toDays = n := by
        have hnext := toDays_next hvalid
        rw [hdate, toDays_ofDays] at hnext
        omega
      rw [weekday_succ] at hweekday
      have hlt := weekday_lt n
      refine ⟨?_, by omega⟩
      rw [← hdays, ofDays_toDays hvalid]
  · rintro ⟨rfl, rfl⟩
    induction n with
    | zero => exact .epoch
    | succ k ih =>
      rw [ofDays_succ, weekday_succ]
      exact .next ih
    | pred k ih =>
      refine .previous (isValid_ofDays _) (weekday_lt _) ?_
      rw [← ofDays_succ, ← weekday_succ, Int.sub_add_cancel]
      exact ih

end AccessGateway.Calendar
