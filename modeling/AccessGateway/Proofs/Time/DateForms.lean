import AccessGateway.Proofs.Time.DateText

/-!
# The forms of a date

A timestamp is written in one form and read from three.  Whichever of them a date comes in, and
however its weekday is named and its parts are spaced, it is read as the same timestamp.

## Results

* `parse?_comma`, `parse?_words` — which form a date is read as.
* `parse?_format`, `parse?_clockForm`, `parse?_shortYearForm` — each form is read as it is meant.
* `date_forms_agree` — the written form of a timestamp, and the agreement of the three.
-/

set_option autoImplicit false

namespace AccessGateway.HttpDate

open Text

variable {r : Reading} {cs word rest : List Char}

/-! ## The forms -/

/-- The name of a weekday in any language: a word without blanks and commas. -/
structure DayWord where
  letters : List Char
  ne_nil : letters ≠ []
  plain : ∀ c ∈ letters, isBlank c = false ∧ c ≠ ','

/-- A gap between the parts of a date: one or more blanks. -/
structure Gap where
  blanks : List Char
  ne_nil : blanks ≠ []
  isBlank : ∀ c ∈ blanks, isBlank c = true

/-- What a date in the form of a C clock is free to choose. -/
structure ClockStyle where
  weekday : DayWord
  afterWeekday : Gap
  afterMonth : Gap
  afterDay : Gap
  afterTime : Gap
  /-- Whether a day of one digit has a zero in front. -/
  padded : Bool

/-- `Sun, 06 Nov 1994 08:49:37 GMT` -/
def usualForm (weekday : Nat) (r : Reading) : String :=
  String.ofList (dayName weekday ++ ',' :: ' ' :: dayTime r)

/-- `06-Nov-94` -/
def shortDate (r : Reading) : List Char :=
  digitsOf 2 r.date.day ++ '-' :: (monthName r.date.month ++ '-' ::
    digitsOf 2 (r.date.year.toNat % 100))

/-- `Sunday, 06-Nov-94 08:49:37 GMT` -/
def shortYearForm (weekday : DayWord) (r : Reading) : String :=
  String.ofList (weekday.letters ++ ',' :: ' ' ::
    (shortDate r ++ ' ' :: (clock r ++ [' ', 'G', 'M', 'T'])))

/-- The day of a month, with one digit if there are no two. -/
def dayDigits (padded : Bool) (day : Nat) : List Char :=
  if padded ∨ 10 ≤ day then digitsOf 2 day else digitsOf 1 day

/-- `Sun Nov  6 08:49:37 1994` -/
def clockText (style : ClockStyle) (r : Reading) : List Char :=
  style.weekday.letters ++ (style.afterWeekday.blanks ++ (monthName r.date.month ++
    (style.afterMonth.blanks ++ (dayDigits style.padded r.date.day ++ (style.afterDay.blanks ++
      (clock r ++ (style.afterTime.blanks ++ digitsOf 4 r.date.year.toNat)))))))

/-- A date in the form of a C clock. -/
def clockForm (style : ClockStyle) (r : Reading) : String := String.ofList (clockText style r)

/-! ## Which form a date is read as -/

/-- A date with a comma is one of the two forms that end in a time zone. -/
theorem parse?_comma (hne : word ≠ []) (hword : ∀ c ∈ word, isBlank c = false ∧ c ≠ ',')
    (hend : rest.getLast? = some 'T') :
    parse? (String.ofList (word ++ ',' :: ' ' :: rest)) =
      if rest.contains '-' then (widenYear? rest).bind parseDayTime? else parseDayTime? rest := by
  have hcut : cutText? ", ".toList (word ++ ',' :: ' ' :: rest) = some (word, rest) :=
    cutText?_append (fun hmem => (hword _ hmem).2 rfl) rest
  have htrim : trim (String.ofList (word ++ ',' :: ' ' :: rest)).toList =
      word ++ ',' :: ' ' :: rest := by
    rw [String.toList_ofList]
    refine trim_eq_self (fun c hc => ?_) fun c hc => ?_
    · obtain ⟨d, ds, rfl⟩ := List.exists_cons_of_ne_nil hne
      obtain rfl := Option.some.inj hc
      exact (hword _ List.mem_cons_self).1
    · obtain ⟨init, rfl⟩ := List.getLast?_eq_some_iff.mp hend
      have hlast : word ++ ',' :: ' ' :: (init ++ ['T']) =
          (word ++ ',' :: ' ' :: init) ++ ['T'] := by
        simp
      rw [hlast, List.getLast?_concat] at hc
      obtain rfl := Option.some.inj hc
      rfl
  unfold parse?
  dsimp only
  rw [htrim, hcut]

/-- A date without a comma is one of a C clock. -/
theorem parse?_words (hcomma : ',' ∉ cs) (hfirst : ∀ c, cs.head? = some c → isBlank c = false)
    (hlast : ∀ c, cs.getLast? = some c → isBlank c = false) :
    parse? (String.ofList cs) = (reorder? cs).bind parseDayTime? := by
  have hcut : cutText? ", ".toList cs = none := cutText?_eq_none hcomma
  have htrim : trim (String.ofList cs).toList = cs := by
    rw [String.toList_ofList, trim_eq_self hfirst hlast]
  unfold parse?
  dsimp only
  rw [htrim, hcut]

/-! ## Parts of the forms -/

theorem dayName_plain {w : Nat} (h : w < 7) :
    dayName w ≠ [] ∧ ∀ c ∈ dayName w, isBlank c = false ∧ c ≠ ',' := by
  have all : ∀ k : Fin 7, dayName k ≠ [] ∧
      (dayName k).all (fun c => decide (isBlank c = false ∧ c ≠ ',')) = true := by
    decide
  exact (all ⟨w, h⟩).imp_right forall_mem_of_all

theorem monthName_plain {m : Nat} (hfirst : 1 ≤ m) (hlast : m ≤ 12) :
    monthName m ≠ [] ∧ ∀ c ∈ monthName m, isBlank c = false ∧ c ≠ ',' ∧ c ≠ '-' := by
  refine ⟨?_, forall_mem_of_all ?_⟩
  · interval_cases m <;> decide
  · interval_cases m <;> decide

theorem digitsOf_plain {width n : Nat} : ∀ c ∈ digitsOf width n,
    isBlank c = false ∧ c ≠ ',' ∧ c ≠ '-' := by
  intro c hc
  have hdigit := isDigit_of_mem_digitsOf hc
  exact ⟨isBlank_of_isDigit hdigit, ne_of_isDigit hdigit rfl, ne_of_isDigit hdigit rfl⟩

theorem clock_plain (r : Reading) : ∀ c ∈ clock r, isBlank c = false ∧ c ≠ ',' ∧ c ≠ '-' := by
  have hcolon : isBlank ':' = false ∧ ':' ≠ ',' ∧ ':' ≠ '-' := by decide
  intro c hc
  simp only [clock, List.mem_append, List.mem_cons] at hc
  rcases hc with hc | rfl | hc | rfl | hc
  · exact digitsOf_plain c hc
  · exact hcolon
  · exact digitsOf_plain c hc
  · exact hcolon
  · exact digitsOf_plain c hc

theorem getLast?_zone (cs : List Char) : (cs ++ [' ', 'G', 'M', 'T']).getLast? = some 'T' := by
  rw [List.getLast?_append]
  rfl

theorem getLast?_dayTimeOf (year : List Char) (r : Reading) :
    (dayTimeOf year r).getLast? = some 'T' := by
  have hzone : dayTimeOf year r = (digitsOf 2 r.date.day ++ ' ' :: (monthName r.date.month ++ ' ' ::
      (year ++ ' ' :: clock r))) ++ [' ', 'G', 'M', 'T'] := by
    simp [dayTimeOf]
  rw [hzone, getLast?_zone]

theorem dash_notMem_dayTime (hfirst : 1 ≤ r.date.month) (hlast : r.date.month ≤ 12) :
    '-' ∉ dayTime r := by
  intro h
  simp only [dayTime, dayTimeOf, List.mem_append, List.mem_cons, List.not_mem_nil, or_false] at h
  rcases h with h | h | h | h | h | h | h | h
  · exact (digitsOf_plain _ h).2.2 rfl
  · exact absurd h (by decide)
  · exact ((monthName_plain hfirst hlast).2 _ h).2.2 rfl
  · exact absurd h (by decide)
  · exact (digitsOf_plain _ h).2.2 rfl
  · exact absurd h (by decide)
  · exact (clock_plain r _ h).2.2 rfl
  · exact absurd h (by decide)

/-! ## Reading the forms -/

/-- The written form of a timestamp is read as this timestamp. -/
theorem parse?_usualForm {w : Nat} (hw : w < 7) (hvalid : r.isValid = true)
    (hfirst : 0 ≤ r.date.year) (hlast : r.date.year ≤ 9999) (hutc : r.ahead = 0) :
    parse? (usualForm w r) = some r.instant := by
  obtain ⟨hdate, -⟩ := Reading.isValid_iff.mp hvalid
  obtain ⟨hmonth, hmonths, -⟩ := Calendar.isValid_iff.mp hdate
  obtain ⟨hne, hplain⟩ := dayName_plain hw
  have hdash : ¬(dayTime r).contains '-' = true := by
    simpa using dash_notMem_dayTime hmonth hmonths
  have hend : (dayTime r).getLast? = some 'T' := getLast?_dayTimeOf _ r
  unfold usualForm
  rw [parse?_comma hne hplain hend, if_neg hdash, parseDayTime?_dayTime hvalid hfirst hlast hutc]

theorem utf8ByteSize_digitsOf {n : Nat} (h : n < 100) :
    (String.ofList (digitsOf 2 n)).utf8ByteSize = 2 := by
  have all : ∀ k : Fin 100, (String.ofList (digitsOf 2 k)).utf8ByteSize = 2 := by decide
  exact all ⟨n, h⟩

/-- A year of two digits is written in full. -/
theorem widenYear?_shortDate (hmonth : 1 ≤ r.date.month) (hmonths : r.date.month ≤ 12)
    (hfirst : 1970 ≤ r.date.year) (hlast : r.date.year ≤ 2069) :
    widenYear? (shortDate r ++ ' ' :: (clock r ++ [' ', 'G', 'M', 'T'])) = some (dayTime r) := by
  have hshort : r.date.year.toNat % 100 < 100 := Nat.mod_lt _ (by decide)
  obtain ⟨-, hname⟩ := monthName_plain hmonth hmonths
  have hspace : ' ' ∉ shortDate r := by
    have hblank : isBlank ' ' ≠ false := by decide
    intro h
    simp only [shortDate, List.mem_append, List.mem_cons] at h
    rcases h with h | h | h | h | h
    · exact hblank (digitsOf_plain _ h).1
    · exact absurd h (by decide)
    · exact hblank (hname _ h).1
    · exact absurd h (by decide)
    · exact hblank (digitsOf_plain _ h).1
  have hfields : fields '-' (shortDate r) = [digitsOf 2 r.date.day, monthName r.date.month,
      digitsOf 2 (r.date.year.toNat % 100)] := by
    unfold shortDate
    rw [fields_append_sep fun h => (digitsOf_plain _ h).2.2 rfl,
      fields_append_sep fun h => (hname _ h).2.2 rfl,
      fields_of_notMem fun h => (digitsOf_plain _ h).2.2 rfl]
  have hfull : (if r.date.year.toNat % 100 < 70 then 2000 + r.date.year.toNat % 100
      else 1900 + r.date.year.toNat % 100) = r.date.year.toNat := by
    split <;> omega
  have hdigits : (decimal r.date.year.toNat).toList = digitsOf (3 + 1) r.date.year.toNat :=
    toList_decimal (by omega) (by omega)
  unfold widenYear?
  rw [cut?_append hspace]
  simp only [Option.bind_eq_bind, Option.bind_some]
  rw [hfields]
  dsimp only
  rw [if_neg (not_not.mpr (utf8ByteSize_digitsOf hshort)),
    word?_digitsOf (by decide) hshort (by unfold UInt16.size; omega), Option.bind_some, hfull,
    hdigits]
  simp [dayTime, dayTimeOf]

/-- A form with a two-digit year is read as the year between 1970 and 2069. -/
theorem parse?_shortYearForm (weekday : DayWord) (hvalid : r.isValid = true)
    (hfirst : 1970 ≤ r.date.year) (hlast : r.date.year ≤ 2069) (hutc : r.ahead = 0) :
    parse? (shortYearForm weekday r) = some r.instant := by
  obtain ⟨hdate, -⟩ := Reading.isValid_iff.mp hvalid
  obtain ⟨hmonth, hmonths, -⟩ := Calendar.isValid_iff.mp hdate
  have hend : (shortDate r ++ ' ' :: (clock r ++ [' ', 'G', 'M', 'T'])).getLast? = some 'T' := by
    have hzone := getLast?_zone (shortDate r ++ ' ' :: clock r)
    simpa using hzone
  have hdash : (shortDate r ++ ' ' :: (clock r ++ [' ', 'G', 'M', 'T'])).contains '-' = true := by
    simp [shortDate]
  unfold shortYearForm
  rw [parse?_comma weekday.ne_nil weekday.plain hend, if_pos hdash,
    widenYear?_shortDate hmonth hmonths hfirst hlast, Option.bind_some,
    parseDayTime?_dayTime hvalid (by omega) (by omega) hutc]

theorem dayDigits_plain (padded : Bool) (day : Nat) :
    dayDigits padded day ≠ [] ∧ ∀ c ∈ dayDigits padded day, isBlank c = false ∧ c ≠ ',' := by
  unfold dayDigits
  split
  · exact ⟨digitsOf_ne_nil day, fun c hc => ⟨(digitsOf_plain c hc).1, (digitsOf_plain c hc).2.1⟩⟩
  · exact ⟨digitsOf_ne_nil day, fun c hc => ⟨(digitsOf_plain c hc).1, (digitsOf_plain c hc).2.1⟩⟩

theorem word?_dayDigits {day : Nat} (h : day ≤ 31) (padded : Bool) :
    word? UInt8.size (dayDigits padded day) = some day := by
  have hsize : day < UInt8.size := Nat.lt_of_le_of_lt h (by decide)
  unfold dayDigits
  split
  · exact word?_digitsOf (by decide) (by omega) hsize
  · exact word?_digitsOf (by decide) (by omega) hsize

theorem clock_ne_nil (r : Reading) : clock r ≠ [] :=
  List.append_ne_nil_of_right_ne_nil _ (List.cons_ne_nil _ _)

/-- The words of a date in the form of a C clock are its five parts. -/
theorem words_clockText (style : ClockStyle) (hmonth : 1 ≤ r.date.month)
    (hmonths : r.date.month ≤ 12) : words (clockText style r) =
      [style.weekday.letters, monthName r.date.month, dayDigits style.padded r.date.day, clock r,
        digitsOf 4 r.date.year.toNat] := by
  obtain ⟨hne, hname⟩ := monthName_plain hmonth hmonths
  obtain ⟨hneDay, hday⟩ := dayDigits_plain style.padded r.date.day
  unfold clockText
  rw [words_append style.weekday.ne_nil (fun c hc => (style.weekday.plain c hc).1)
      style.afterWeekday.ne_nil style.afterWeekday.isBlank,
    words_append hne (fun c hc => (hname c hc).1) style.afterMonth.ne_nil style.afterMonth.isBlank,
    words_append hneDay (fun c hc => (hday c hc).1) style.afterDay.ne_nil style.afterDay.isBlank,
    words_append (clock_ne_nil r) (fun c hc => (clock_plain r c hc).1) style.afterTime.ne_nil
      style.afterTime.isBlank,
    words_of_word (digitsOf_ne_nil _) fun c hc => (digitsOf_plain c hc).1]

theorem comma_notMem_clockText (style : ClockStyle) (hmonth : 1 ≤ r.date.month)
    (hmonths : r.date.month ≤ 12) : ',' ∉ clockText style r := by
  have hgap : ∀ gap : Gap, ',' ∉ gap.blanks := fun gap h => absurd (gap.isBlank _ h) (by decide)
  intro h
  simp only [clockText, List.mem_append] at h
  rcases h with h | h | h | h | h | h | h | h | h
  · exact (style.weekday.plain _ h).2 rfl
  · exact hgap _ h
  · exact ((monthName_plain hmonth hmonths).2 _ h).2.1 rfl
  · exact hgap _ h
  · exact ((dayDigits_plain _ _).2 _ h).2 rfl
  · exact hgap _ h
  · exact (clock_plain r _ h).2.1 rfl
  · exact hgap _ h
  · exact (digitsOf_plain _ h).2.1 rfl

/-- A form of a C clock is read, whatever its weekday and its gaps are. -/
theorem parse?_clockForm (style : ClockStyle) (hvalid : r.isValid = true)
    (hfirst : 0 ≤ r.date.year) (hlast : r.date.year ≤ 9999) (hutc : r.ahead = 0) :
    parse? (clockForm style r) = some r.instant := by
  obtain ⟨hdate, -⟩ := Reading.isValid_iff.mp hvalid
  obtain ⟨hmonth, hmonths, -, hdays⟩ := Calendar.isValid_iff.mp hdate
  have hday : r.date.day ≤ 31 := hdays.trans Calendar.daysInMonth_le
  have hstart : ∀ c, (clockText style r).head? = some c → isBlank c = false := by
    intro c hc
    obtain ⟨d, ds, hletters⟩ := List.exists_cons_of_ne_nil style.weekday.ne_nil
    have hplain := style.weekday.plain d (hletters ▸ List.mem_cons_self)
    rw [clockText, hletters] at hc
    exact Option.some.inj hc ▸ hplain.1
  have hend : ∀ c, (clockText style r).getLast? = some c → isBlank c = false := by
    intro c hc
    have hyear : (digitsOf 4 r.date.year.toNat).getLast? = some c := by
      simp only [clockText, ← List.append_assoc] at hc
      rwa [List.getLast?_append, Option.or_of_isSome
        (List.getLast?_isSome.mpr (digitsOf_ne_nil _))] at hc
    exact (digitsOf_plain c (List.mem_of_getLast? hyear)).1
  have hreorder : reorder? (clockText style r) = some (dayTime r) := by
    have hpadded : (padded 2 r.date.day).toList = digitsOf 2 r.date.day :=
      toList_padded (by omega : r.date.day < 10 ^ (1 + 1))
    have hzone : " GMT".toList = [' ', 'G', 'M', 'T'] := rfl
    unfold reorder?
    rw [words_clockText style hmonth hmonths]
    simp only [word?_dayDigits hday, Option.bind_eq_bind, Option.bind_some, hpadded, hzone]
    simp [dayTime, dayTimeOf]
  unfold clockForm
  rw [parse?_words (comma_notMem_clockText style hmonth hmonths) hstart hend, hreorder,
    Option.bind_some, parseDayTime?_dayTime hvalid hfirst hlast hutc]

/-! ## The written form -/

/-- What a clock of UTC shows is written in the usual form. -/
theorem write_eq (hvalid : r.isValid = true) (hfirst : 0 ≤ r.date.year)
    (hlast : r.date.year ≤ 9999) : write r = usualForm (Calendar.weekday r.date.toDays) r := by
  rw [← String.ofList_toList (s := write r), toList_write hvalid, toList_yearText hfirst hlast]
  rfl

theorem parse?_format {t : Timestamp} (hfirst : 0 ≤ yearOf t) (hlast : yearOf t ≤ 9999) :
    parse? (format t) = some t := by
  have hvalid := Reading.isValid_utc t
  rw [format_eq, write_eq hvalid hfirst hlast,
    parse?_usualForm (Calendar.weekday_lt _) hvalid hfirst hlast rfl, Reading.instant_utc]

/-- A year before the year 0 is written with a sign, for which it is taken for a date with a
    two-digit year, and then for none. -/
theorem parse?_format_of_neg {t : Timestamp} (h : yearOf t < 0) : parse? (format t) = none := by
  have hyear : ∃ digits, (yearText (yearOf t)).toList = '-' :: digits := by
    unfold yearText
    rw [if_pos h, String.toList_append]
    exact ⟨_, rfl⟩
  obtain ⟨digits, hyear⟩ := hyear
  obtain ⟨hne, hplain⟩ := dayName_plain (Calendar.weekday_lt (Reading.utc t).date.toDays)
  have hdash : (dayTimeOf ('-' :: digits) (.utc t)).contains '-' = true := by
    simp [dayTimeOf]
  have hspace : ' ' ∉ digitsOf 2 (Reading.utc t).date.day :=
    fun hmem => absurd (digitsOf_plain _ hmem).1 (by decide)
  have hwiden : widenYear? (dayTimeOf ('-' :: digits) (.utc t)) = none := by
    unfold widenYear? dayTimeOf
    rw [cut?_append hspace]
    simp only [Option.bind_eq_bind, Option.bind_some]
    rw [fields_of_notMem fun hmem => (digitsOf_plain _ hmem).2.2 rfl]
  rw [format_eq, ← String.ofList_toList (s := write _), toList_write (Reading.isValid_utc t)]
  unfold yearOf at hyear
  rw [hyear, parse?_comma hne hplain (getLast?_dayTimeOf _ _), if_pos hdash, hwiden]
  rfl

/-- **The forms of a date agree.**  A timestamp with a year of four digits is written in one form,
    with the date and the weekday that counting days from 1 January 1970 gives, whichever clock it
    was read from; this form, any form of a C clock and, from 1970 to 2069, any form with a
    two-digit year are read as the timestamp; and no other timestamp is written in the same
    form. -/
theorem date_forms_agree (t : Timestamp) (hfirst : 0 ≤ yearOf t) (hlast : yearOf t ≤ 9999) :
    let r := Reading.utc t
    (r.isValid = true ∧ r.instant = t) ∧
    parse? (format t) = some t ∧
    (∃ weekday, Calendar.Counted (t / 86400) r.date weekday ∧ format t = usualForm weekday r) ∧
    (∀ ahead, formatReading (.of t ahead) = format t) ∧
    (∀ style, parse? (clockForm style r) = some t) ∧
    (1970 ≤ yearOf t → yearOf t ≤ 2069 → ∀ weekday, parse? (shortYearForm weekday r) = some t) ∧
    ∀ other, 0 ≤ yearOf other → yearOf other ≤ 9999 → format other = format t → other = t := by
  intro r
  have hvalid : r.isValid = true := Reading.isValid_utc t
  have hinstant : r.instant = t := Reading.instant_utc t
  have hdate : r.date = Calendar.Date.ofDays (t / 86400) := Reading.date_utc t
  refine ⟨⟨hvalid, hinstant⟩, parse?_format hfirst hlast, ⟨Calendar.weekday (t / 86400), ?_, ?_⟩,
    fun ahead => ?_, fun style => ?_, fun hseventy hend weekday => ?_,
    fun other hfirst' hlast' heq => ?_⟩
  · exact Calendar.counted_iff.mpr ⟨hdate, rfl⟩
  · rw [format_eq, write_eq hvalid hfirst hlast, hdate, Calendar.toDays_ofDays]
  · rw [format_eq, formatReading, Reading.instant_of]
  · rw [parse?_clockForm style hvalid hfirst hlast rfl, hinstant]
  · rw [parse?_shortYearForm weekday hvalid hseventy hend rfl, hinstant]
  · have hother := parse?_format hfirst' hlast'
    rw [heq, parse?_format hfirst hlast] at hother
    exact (Option.some.inj hother).symm

/-- The sixth of November 1994, with a gap of two blanks before the day of one digit. -/
theorem date_forms_agree_november :
    0 ≤ yearOf 784111777 ∧ yearOf 784111777 ≤ 9999 ∧ 1970 ≤ yearOf 784111777 ∧
    yearOf 784111777 ≤ 2069 ∧
    parse? "Sun, 06 Nov 1994 08:49:37 GMT" = some 784111777 ∧
    parse? "Sun Nov  6 08:49:37 1994" = some 784111777 ∧
    parse? "Sunday, 06-Nov-94 08:49:37 GMT" = some 784111777 := by
  have one : ∀ c ∈ [' '], isBlank c = true := forall_mem_of_all (by decide)
  have two : ∀ c ∈ [' ', ' '], isBlank c = true := forall_mem_of_all (by decide)
  have sun : ∀ c ∈ "Sun".toList, isBlank c = false ∧ c ≠ ',' := forall_mem_of_all (by decide)
  have sunday : ∀ c ∈ "Sunday".toList, isBlank c = false ∧ c ≠ ',' :=
    forall_mem_of_all (by decide)
  have hfirst : 1970 ≤ yearOf 784111777 := by decide
  have hlast : yearOf 784111777 ≤ 2069 := by decide
  obtain ⟨-, husual, -, -, hclock, hshort, -⟩ :=
    date_forms_agree 784111777 (by decide) (by decide)
  refine ⟨by decide, by decide, hfirst, hlast, husual, ?_, ?_⟩
  · exact hclock ⟨⟨"Sun".toList, by decide, sun⟩, ⟨[' '], by decide, one⟩,
      ⟨[' ', ' '], by decide, two⟩, ⟨[' '], by decide, one⟩, ⟨[' '], by decide, one⟩, false⟩
  · exact hshort hfirst hlast ⟨"Sunday".toList, by decide, sunday⟩

end AccessGateway.HttpDate
