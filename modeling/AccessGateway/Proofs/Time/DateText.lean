import Mathlib.Tactic.IntervalCases
import AccessGateway.Proofs.Text.Numerals
import AccessGateway.Proofs.Text.Pieces
import AccessGateway.Proofs.Time.DayCount
import AccessGateway.Time.Reading

/-!
# The text of a date

A date in a message header is a row of numbers and names with marks between them.  It is read part
by part, and every part is read as the number that it was written for.

## Results

* `Reading.of_instant`, `Reading.instant_of` — readings of one clock and instants belong to each
  other one by one.
* `parseDayTime?_dayTime` — a day and a time are read as they are written.
* `parseDayTime?_eq_some` — what is read is a day of the calendar with a year of four digits.
-/

set_option autoImplicit false

namespace AccessGateway

/-! ## Readings -/

namespace Reading

variable {r : Reading} {t : Timestamp} {ahead : Int}

theorem isValid_iff : r.isValid = true ↔
    r.date.isValid = true ∧ r.hour < 24 ∧ r.minute < 60 ∧ r.second < 60 := by
  simp [isValid, and_assoc]

/-- What a clock shows is a day of the calendar and a time of the day. -/
theorem isValid_of (t : Timestamp) (ahead : Int) : (of t ahead).isValid = true := by
  rw [isValid_iff]
  unfold of
  dsimp only
  exact ⟨Calendar.isValid_ofDays _, by omega, by omega, by omega⟩

/-- Hours, minutes and seconds make up the seconds of a day. -/
theorem seconds_of_clock (s : Nat) : s / 3600 * 3600 + s / 60 % 60 * 60 + s % 60 = s := by
  omega

/-- A clock shows at an instant what it shows at this instant only. -/
theorem instant_of (t : Timestamp) (ahead : Int) : (of t ahead).instant = t := by
  unfold instant of
  dsimp only
  rw [Calendar.toDays_ofDays, seconds_of_clock,
    Int.toNat_of_nonneg (Int.emod_nonneg _ (by decide)), Int.ediv_mul_add_emod]
  exact Int.add_sub_cancel t ahead

theorem isValid_utc (t : Timestamp) : (utc t).isValid = true := isValid_of t 0

theorem instant_utc (t : Timestamp) : (utc t).instant = t := instant_of t 0

theorem date_utc (t : Timestamp) : (utc t).date = .ofDays (t / 86400) := by
  unfold utc of
  rw [Int.add_zero]

/-- Whatever a clock can show, it shows at the instant this tells. -/
theorem of_instant (h : r.isValid = true) : of r.instant r.ahead = r := by
  obtain ⟨hdate, hhour, hminute, hsecond⟩ := isValid_iff.mp h
  obtain ⟨date, hour, minute, second, ahead⟩ := r
  dsimp only at hdate hhour hminute hsecond
  have hlocal : instant ⟨date, hour, minute, second, ahead⟩ + ahead =
      date.toDays * 86400 + (hour * 3600 + minute * 60 + second : Nat) := by
    unfold instant
    exact Int.sub_add_cancel _ _
  have hdays : (date.toDays * 86400 + (hour * 3600 + minute * 60 + second : Nat)) / 86400 =
      date.toDays := by
    omega
  have hseconds : ((date.toDays * 86400 + (hour * 3600 + minute * 60 + second : Nat)) %
      86400).toNat = hour * 3600 + minute * 60 + second := by
    omega
  unfold of
  dsimp only
  rw [hlocal, hdays, hseconds, Calendar.ofDays_toDays hdate]
  congr 1 <;> omega

end Reading

namespace HttpDate

open Text

variable {r : Reading} {cs rest : List Char} {width n : Nat}

/-! ## Parts of a date -/

/-- The three letters of a month. -/
def monthName (m : Nat) : List Char := (monthNames.getD (m - 1) "").toList

/-- The three letters of a day of the week, Sunday being 0. -/
def dayName (w : Nat) : List Char := (dayNames.getD w "").toList

/-- `08:49:37` -/
def clock (r : Reading) : List Char :=
  digitsOf 2 r.hour ++ ':' :: (digitsOf 2 r.minute ++ ':' :: digitsOf 2 r.second)

/-- `06 Nov 1994 08:49:37 GMT`, with the year that is given. -/
def dayTimeOf (year : List Char) (r : Reading) : List Char :=
  digitsOf 2 r.date.day ++ ' ' :: (monthName r.date.month ++ ' ' :: (year ++ ' ' ::
    (clock r ++ [' ', 'G', 'M', 'T'])))

/-- `06 Nov 1994 08:49:37 GMT` -/
def dayTime (r : Reading) : List Char := dayTimeOf (digitsOf 4 r.date.year.toNat) r

theorem takeDigits?_digitsOf (hwidth : 0 < width) (h : n < 10 ^ width) (rest : List Char) :
    takeDigits? width (digitsOf width n ++ rest) = some (n, rest) := by
  have htake : (digitsOf width n ++ rest).take width = digitsOf width n :=
    List.take_left' (length_digitsOf width n)
  have hdrop : (digitsOf width n ++ rest).drop width = rest :=
    List.drop_left' (length_digitsOf width n)
  unfold takeDigits?
  rw [htake, hdrop, if_pos (length_digitsOf width n), digits?_digitsOf hwidth h]
  rfl

theorem takeMonth?_monthName {m : Nat} (hfirst : 1 ≤ m) (hlast : m ≤ 12) (rest : List Char) :
    takeMonth? (monthName m ++ rest) = some (m, rest) := by
  interval_cases m <;> rfl

theorem takeYear?_digitsOf (h : n < 10 ^ 4) (rest : List Char) :
    takeYear? (digitsOf 4 n ++ rest) = some ((n : Int), rest) := by
  have hdigit : ∀ c cs, digitsOf 4 n ++ rest = c :: cs → c.isDigit = true := by
    intro c cs heq
    obtain ⟨d, ds, hds⟩ := List.exists_cons_of_ne_nil (@digitsOf_ne_nil 3 n)
    rw [hds, List.cons_append] at heq
    refine @isDigit_of_mem_digitsOf 4 n c ?_
    rw [hds, ← (List.cons.inj heq).1]
    exact List.mem_cons_self
  unfold takeYear?
  split
  case h_1 cs heq => cases hdigit _ _ heq
  case h_2 cs heq => cases hdigit _ _ heq
  case h_3 => rw [takeDigits?_digitsOf (by decide) h]; rfl

/-- A day and a time are read as they are written. -/
theorem parseDayTime?_dayTime (hvalid : r.isValid = true) (hfirst : 0 ≤ r.date.year)
    (hlast : r.date.year ≤ 9999) (hutc : r.ahead = 0) :
    parseDayTime? (dayTime r) = some r.instant := by
  obtain ⟨hdate, hhour, hminute, hsecond⟩ := Reading.isValid_iff.mp hvalid
  obtain ⟨hmonth, hmonths, -, hdays⟩ := Calendar.isValid_iff.mp hdate
  have hday : r.date.day < 10 ^ 2 := by
    have hlength := @Calendar.daysInMonth_le r.date.year r.date.month
    omega
  have hyear : r.date.year.toNat < 10 ^ 4 := by omega
  have hdate' : (⟨(r.date.year.toNat : Int), r.date.month, r.date.day⟩ : Calendar.Date) =
      r.date := by
    rw [Int.toNat_of_nonneg hfirst]
  have hspace : ∀ cs, expect? " " (' ' :: cs) = some cs := fun _ => rfl
  have hcolon : ∀ cs, expect? ":" (':' :: cs) = some cs := fun _ => rfl
  have hend : expect? " GMT" [' ', 'G', 'M', 'T'] = some [] := rfl
  have htwo : 0 < 2 := by decide
  unfold parseDayTime? dayTime dayTimeOf clock
  simp only [List.append_assoc, List.cons_append, takeDigits?_digitsOf htwo hday,
    takeMonth?_monthName hmonth hmonths, takeYear?_digitsOf hyear,
    takeDigits?_digitsOf htwo (by omega : r.hour < 10 ^ 2),
    takeDigits?_digitsOf htwo (by omega : r.minute < 10 ^ 2),
    takeDigits?_digitsOf htwo (by omega : r.second < 10 ^ 2), hspace, hcolon, hend, hdate',
    Option.bind_eq_bind, Option.bind_some]
  rw [if_pos (by simp [hdate, hhour, hminute, hsecond])]
  unfold Reading.instant
  rw [hutc, Int.sub_zero]

/-! ## What can be read -/

theorem takeDigits?_lt (h : takeDigits? width cs = some (n, rest)) : n < 10 ^ width := by
  unfold takeDigits? at h
  split at h
  case isTrue hlength =>
    obtain ⟨m, hdigits, heq⟩ := Option.map_eq_some_iff.mp h
    cases heq
    rw [← hlength]
    exact digits?_lt hdigits
  case isFalse => cases h

/-- A year has four digits, and perhaps a sign. -/
theorem takeYear?_range {y : Int} (h : takeYear? cs = some (y, rest)) :
    -9999 ≤ y ∧ y ≤ 9999 := by
  unfold takeYear? at h
  split at h <;> obtain ⟨⟨n, rest'⟩, hdigits, heq⟩ := Option.map_eq_some_iff.mp h <;> cases heq <;>
    have hlt := takeDigits?_lt hdigits <;> omega

/-- What is read is a day of the calendar and a time of the day. -/
theorem parseDayTime?_eq_some {t : Timestamp} (h : parseDayTime? cs = some t) :
    ∃ r : Reading, r.isValid = true ∧ r.ahead = 0 ∧ -9999 ≤ r.date.year ∧ r.date.year ≤ 9999 ∧
      r.instant = t := by
  unfold parseDayTime? at h
  simp only [Option.bind_eq_bind, Option.bind_eq_some_iff, Prod.exists] at h
  obtain ⟨day, _, -, _, -, month, _, -, _, -, year, _, hyear, _, -, hour, _, -, _, -, minute, _, -,
    _, -, second, _, -, _, -, hend⟩ := h
  split at hend
  case isTrue hvalid =>
    cases hend
    simp only [Bool.and_eq_true, decide_eq_true_eq] at hvalid
    obtain ⟨⟨⟨⟨-, hdate⟩, hhour⟩, hminute⟩, hsecond⟩ := hvalid
    obtain ⟨hfirst, hlast⟩ := takeYear?_range hyear
    refine ⟨⟨⟨year, month, day⟩, hour, minute, second, 0⟩,
      Reading.isValid_iff.mpr ⟨hdate, hhour, hminute, hsecond⟩, rfl, hfirst, hlast, ?_⟩
    unfold Reading.instant
    exact Int.sub_zero _
  case isFalse => cases hend

theorem yearOf_instant (hvalid : r.isValid = true) (hutc : r.ahead = 0) :
    yearOf r.instant = r.date.year := by
  have hreading := Reading.of_instant hvalid
  rw [hutc] at hreading
  exact congrArg (·.date.year) hreading

/-- Dates that can be read have years of four digits. -/
theorem yearOf_parse? {value : String} {t : Timestamp} (h : parse? value = some t) :
    -9999 ≤ yearOf t ∧ yearOf t ≤ 9999 := by
  obtain ⟨cs, hcs⟩ : ∃ cs, parseDayTime? cs = some t := by
    unfold parse? at h
    dsimp only at h
    split at h
    · split at h
      · obtain ⟨cs, -, hcs⟩ := Option.bind_eq_some_iff.mp h
        exact ⟨cs, hcs⟩
      · exact ⟨_, h⟩
    · obtain ⟨cs, -, hcs⟩ := Option.bind_eq_some_iff.mp h
      exact ⟨cs, hcs⟩
  obtain ⟨r, hvalid, hutc, hfirst, hlast, rfl⟩ := parseDayTime?_eq_some hcs
  rw [yearOf_instant hvalid hutc]
  exact ⟨hfirst, hlast⟩

/-! ## What is written -/

/-- A timestamp is written as a clock of UTC shows it. -/
theorem format_eq (t : Timestamp) : format t = write (.utc t) := by
  unfold write Reading.utc Reading.of
  dsimp only
  rw [Calendar.toDays_ofDays, Int.add_zero]
  rfl

theorem toList_yearText {y : Int} (hfirst : 0 ≤ y) (hlast : y ≤ 9999) :
    (yearText y).toList = digitsOf 4 y.toNat := by
  unfold yearText
  rw [if_neg (by omega), toList_padded (by omega : y.natAbs < 10 ^ (3 + 1)),
    show y.natAbs = y.toNat by omega]

theorem toList_write (hvalid : r.isValid = true) : (write r).toList =
    dayName (Calendar.weekday r.date.toDays) ++ ',' :: ' ' ::
      dayTimeOf (yearText r.date.year).toList r := by
  obtain ⟨hdate, hhour, hminute, hsecond⟩ := Reading.isValid_iff.mp hvalid
  obtain ⟨-, -, -, hdays⟩ := Calendar.isValid_iff.mp hdate
  have hday : r.date.day < 10 ^ (1 + 1) := by
    have hlength := @Calendar.daysInMonth_le r.date.year r.date.month
    omega
  have hcomma : ", ".toList = [',', ' '] := rfl
  have hspace : " ".toList = [' '] := rfl
  have hcolon : ":".toList = [':'] := rfl
  have hend : " GMT".toList = [' ', 'G', 'M', 'T'] := rfl
  unfold write dayTimeOf clock dayName monthName
  simp only [String.toList_append, toList_padded hday,
    toList_padded (by omega : r.hour < 10 ^ (1 + 1)),
    toList_padded (by omega : r.minute < 10 ^ (1 + 1)),
    toList_padded (by omega : r.second < 10 ^ (1 + 1)), hcomma, hspace, hcolon, hend,
    List.append_assoc, List.cons_append, List.nil_append]

end HttpDate
end AccessGateway
