import AccessGateway.Proofs.Time.DateForms
import AccessGateway.Proofs.Wire.FieldText
import AccessGateway.Relay.Reconcile

/-!
# One date for an answer

The date of an answer decides which of its warnings are kept, and when an answer has no date that
can be read, its warnings decide what the date is.  Whichever way it was found, an answer that was
reconciled settles the question for good: its date is read as the instant that its warnings tell,
or, for the years before the year 0, which can be written but not read, the warning that it came
from is still there to tell it again.

## Results

* `Reconcile.resolved_iff` — where the date of an answer comes from.
* `Reconcile.headers_date`, `Reconcile.headers_values`, `Reconcile.Resolved.values_warning` — what
  is under each name of a reconciled answer.
* `Reconcile.date?_dateValue` — a date that was written is read as its instant from the year 0 on.
* `Reconcile.Resolved.settled`, `Reconcile.Settled.headers_eq` — a reconciled answer is settled, and
  a settled answer is left as it is.
* `reconciliation_settles` — what reconciling does, once and again.
-/

set_option autoImplicit false

namespace AccessGateway

/-! ## Dates as values of header fields -/

namespace HttpDate

open HeaderValue Text

theorem isTextChar_of_isDigit {c : Char} (h : c.isDigit = true) : isTextChar c = true := by
  obtain ⟨hlow, hhigh⟩ := isDigit_iff.mp h
  simp only [isTextChar, Bool.or_eq_true, Bool.and_eq_true, decide_eq_true_eq]
  omega

theorem isTextChar_padded (width n : Nat) : ∀ c ∈ (padded width n).toList, isTextChar c = true := by
  intro c hc
  unfold padded at hc
  dsimp only at hc
  rw [String.toList_ofList, List.mem_append] at hc
  rcases hc with hc | hc
  · rw [List.eq_of_mem_replicate hc]
    rfl
  · exact isTextChar_of_isDigit (Nat.isDigit_of_mem_toDigits (by decide) (by decide) hc)

theorem isTextChar_yearText (y : Int) : ∀ c ∈ (yearText y).toList, isTextChar c = true := by
  unfold yearText
  split
  · rw [String.toList_append]
    intro c hc
    rcases List.mem_append.mp hc with hc | hc
    · obtain rfl := List.mem_singleton.mp hc
      rfl
    · exact isTextChar_padded _ _ c hc
  · exact isTextChar_padded _ _

/-- A date is plain text, whatever its year is. -/
theorem isTextChar_format (t : Timestamp) : ∀ c ∈ (format t).toList, isTextChar c = true := by
  have hday : ∀ w : Fin 7, (dayName w).all isTextChar = true := by decide
  have hmonth : ∀ m : Fin 13, (monthName m).all isTextChar = true := by decide
  have hdigits : ∀ width n, ∀ c ∈ digitsOf width n, isTextChar c = true :=
    fun _ _ c hc => isTextChar_of_isDigit (isDigit_of_mem_digitsOf hc)
  have hvalid := Reading.isValid_utc t
  obtain ⟨hdate, -⟩ := Reading.isValid_iff.mp hvalid
  obtain ⟨-, hmonths, -⟩ := Calendar.isValid_iff.mp hdate
  have hday' := List.all_eq_true.mp (hday ⟨_, Calendar.weekday_lt (Reading.utc t).date.toDays⟩)
  have hmonth' := List.all_eq_true.mp (hmonth ⟨_, Nat.lt_succ_of_le hmonths⟩)
  rw [format_eq, toList_write hvalid]
  simp only [dayTimeOf, clock, List.forall_mem_append, List.forall_mem_cons (α := Char)]
  exact ⟨hday', rfl, rfl, hdigits _ _, rfl, hmonth', rfl, isTextChar_yearText _, rfl,
    ⟨hdigits _ _, rfl, hdigits _ _, rfl, hdigits _ _⟩, rfl, rfl, rfl, rfl, by simp⟩

/-- The date of a warning is read as any other date is. -/
theorem ofWarning?_eq_some {value : String} {t : Timestamp} (h : ofWarning? value = some t) :
    ∃ date, parse? date = some t := by
  unfold ofWarning? at h
  simp only [Option.bind_eq_bind, Option.bind_eq_some_iff, Prod.exists] at h
  obtain ⟨_, _, -, _, _, -, hquoted⟩ := h
  split at hquoted
  case isTrue =>
    simp only [Option.bind_eq_some_iff, Prod.exists] at hquoted
    obtain ⟨_, -, _, date, -, hdate⟩ := hquoted
    split at hdate
    case isTrue => exact ⟨_, hdate⟩
    case isFalse => cases hdate
  case isFalse => cases hquoted

end HttpDate

namespace Reconcile

open HttpDate

variable {backend h : Headers} {now t instant : Timestamp} {date value : HeaderValue}
  {warnings : List HeaderValue} {name : HeaderName}

/-- The instant that a date means. -/
def date? (value : HeaderValue) : Option Timestamp := value.text?.bind HttpDate.parse?

/-- A date that was written is read as its instant, unless its year is before the year 0. -/
theorem date?_dateValue (hlast : yearOf t ≤ 9999) :
    date? (dateValue t) = if 0 ≤ yearOf t then some t else none := by
  have htext : (dateValue t).text? = some (format t) :=
    HeaderValue.text?_ofText (isTextChar_format t)
  unfold date?
  rw [htext, Option.bind_some]
  split
  case isTrue hfirst => exact parse?_format hfirst hlast
  case isFalse hfirst => exact parse?_format_of_neg (Int.not_le.mp hfirst)

/-! ## Where the date comes from -/

/-- The date of an answer and the instant it means: its own date, as it stands, if it can be read;
    else that of its first warning that has one; else the current one. -/
inductive Resolved (backend : Headers) (now : Timestamp) : HeaderValue → Timestamp → Prop
  | own {date : HeaderValue} {t : Timestamp} (hfirst : backend.first? .date = some date)
      (hread : date? date = some t) : Resolved backend now date t
  | warned {t : Timestamp} (hown : (backend.first? .date).bind date? = none)
      (hwarning : (backend.values .warning).findSome? warningDate? = some t) :
      Resolved backend now (dateValue t) t
  | current (hown : (backend.first? .date).bind date? = none)
      (hwarnings : ∀ value ∈ backend.values .warning, warningDate? value = none) :
      Resolved backend now (dateValue now) now

/-- The instant of the first warning that has one, else the current one. -/
def fallback (backend : Headers) (now : Timestamp) : Timestamp :=
  ((backend.values .warning).findSome? warningDate?).getD now

theorem resolveDate_own (hfirst : backend.first? .date = some date) (hread : date? date = some t) :
    resolveDate backend now = (date, t) := by
  unfold date? at hread
  unfold resolveDate
  rw [hfirst, Option.bind_some, hread]
  rfl

theorem resolveDate_fallback (hown : (backend.first? .date).bind date? = none) :
    resolveDate backend now = (dateValue (fallback backend now), fallback backend now) := by
  have hpair : ((backend.first? .date).bind fun value =>
      (value.text?.bind HttpDate.parse?).map (value, ·)) = none := by
    rw [Option.bind_eq_none_iff] at hown ⊢
    exact fun value hvalue => Option.map_eq_none_iff.mpr (hown value hvalue)
  unfold resolveDate
  rw [hpair]
  rfl

/-- An answer has one date, which means one instant. -/
theorem resolved_iff : Resolved backend now date instant ↔
    resolveDate backend now = (date, instant) := by
  constructor
  · rintro (⟨hfirst, hread⟩ | ⟨hown, hwarning⟩ | ⟨hown, hwarnings⟩)
    · exact resolveDate_own hfirst hread
    · rw [resolveDate_fallback hown, fallback, hwarning, Option.getD_some]
    · rw [resolveDate_fallback hown, fallback, List.findSome?_eq_none_iff.mpr hwarnings,
        Option.getD_none]
  · intro heq
    cases hown : (backend.first? .date).bind date? with
    | some t =>
      obtain ⟨value, hfirst, hread⟩ := Option.bind_eq_some_iff.mp hown
      rw [resolveDate_own hfirst hread, Prod.mk.injEq] at heq
      obtain ⟨rfl, rfl⟩ := heq
      exact .own hfirst hread
    | none =>
      rw [resolveDate_fallback hown, Prod.mk.injEq] at heq
      obtain ⟨rfl, rfl⟩ := heq
      unfold fallback
      cases hwarning : (backend.values .warning).findSome? warningDate? with
      | some t => exact .warned hown hwarning
      | none => exact .current hown (List.findSome?_eq_none_iff.mp hwarning)

/-! ## The fields of a reconciled answer -/

/-- A date, then warnings, then the fields that are taken over as they are. -/
def arrange (date : HeaderValue) (warnings : List HeaderValue) (rest : Headers) : Headers :=
  ⟨(.date, date) :: warnings.map (.warning, ·) ++ (rest.filterNames isCopied).entries⟩

theorem headers_eq (backend : Headers) (now : Timestamp) : headers backend now =
    arrange (resolveDate backend now).1
      ((backend.values .warning).filter (keepsWarning (resolveDate backend now).2)) backend := rfl

theorem values_arrange (date : HeaderValue) (warnings : List HeaderValue) (rest : Headers)
    (name : HeaderName) : (arrange date warnings rest).values name =
      (if name = .date then [date] else []) ++ ((if name = .warning then warnings else []) ++
        if isCopied name then rest.values name else []) := by
  have hdate : ([(HeaderName.date, date)].filter (·.1 = name)).map (·.2) =
      if name = .date then [date] else [] := by
    by_cases h : name = .date
    · simp [h]
    · simp [h, Ne.symm h]
  have hwarnings : ((warnings.map (HeaderName.warning, ·)).filter (·.1 = name)).map (·.2) =
      if name = .warning then warnings else [] := by
    by_cases h : name = .warning
    · simp [h, List.filter_map, Function.comp_def]
    · simp [h, Ne.symm h, List.filter_map, Function.comp_def]
  rw [← Headers.values_filterNames, ← hdate, ← hwarnings]
  unfold arrange Headers.values
  rw [List.cons_append, ← List.singleton_append, List.filter_append, List.filter_append,
    List.map_append, List.map_append]

theorem values_arrange_date (date : HeaderValue) (warnings : List HeaderValue) (rest : Headers) :
    (arrange date warnings rest).values .date = [date] := by
  rw [values_arrange, if_pos rfl, if_neg (by decide), if_neg (by decide)]
  rfl

theorem values_arrange_warning (date : HeaderValue) (warnings : List HeaderValue)
    (rest : Headers) : (arrange date warnings rest).values .warning = warnings := by
  rw [values_arrange, if_neg (by decide), if_pos rfl, if_neg (by decide), List.nil_append,
    List.append_nil]

/-- Arranged fields are arranged again in the same way. -/
theorem arrange_arrange (date' : HeaderValue) (warnings' : List HeaderValue) (rest : Headers) :
    arrange date' warnings' (arrange date warnings rest) = arrange date' warnings' rest := by
  have hrest : ((arrange date warnings rest).filterNames isCopied).entries =
      (rest.filterNames isCopied).entries := by
    have hdate : isCopied .date = false := rfl
    have hwarning : isCopied .warning = false := rfl
    simp [arrange, Headers.filterNames, hdate, hwarning, List.filter_map, Function.comp_def]
  unfold arrange at hrest ⊢
  rw [hrest]

/-- A reconciled answer has one date. -/
theorem headers_date (backend : Headers) (now : Timestamp) :
    (headers backend now).values .date = [(resolveDate backend now).1] := by
  rw [headers_eq, values_arrange_date]

/-- What an answer keeps under a name that is reconciled in no other way. -/
theorem headers_values (backend : Headers) (now : Timestamp) {name : HeaderName}
    (hdate : name ≠ .date) (hwarning : name ≠ .warning) :
    (headers backend now).values name = if name.isHopByHop then [] else backend.values name := by
  have hcopied : isCopied name = !name.isHopByHop := by simp [isCopied, hdate, hwarning]
  rw [headers_eq, values_arrange, if_neg hdate, if_neg hwarning, hcopied]
  cases name.isHopByHop <;> rfl

/-! ## Settled answers -/

theorem keepsWarning_iff : keepsWarning instant value = true ↔
    warningDate? value = none ∨ warningDate? value = some instant := by
  unfold keepsWarning
  cases warningDate? value <;> simp

/-- A date, and if it cannot be read the first warning with a date, mean an instant without a
    clock. -/
inductive Tells (date : HeaderValue) (warnings : List HeaderValue) (instant : Timestamp) : Prop
  | own (hread : date? date = some instant)
  | warned (hunread : date? date = none) (hwritten : date = dateValue instant)
      (hwarning : warnings.findSome? warningDate? = some instant)

/-- Fields that tell the instant of an answer and hold nothing that has to be left out. -/
structure Settled (h : Headers) (date : HeaderValue) (instant : Timestamp) : Prop where
  arranged : h = arrange date (h.values .warning) h
  tells : Tells date (h.values .warning) instant
  kept : ∀ value ∈ h.values .warning, keepsWarning instant value = true

/-- The instant of settled fields is told without a clock. -/
theorem Settled.resolveDate_eq (hsettled : Settled h date instant) (later : Timestamp) :
    resolveDate h later = (date, instant) := by
  have hfirst : h.first? .date = some date := by
    rw [Headers.first?, hsettled.arranged, values_arrange_date]
    rfl
  cases hsettled.tells with
  | own hread => exact resolveDate_own hfirst hread
  | warned hunread hwritten hwarning =>
    have hown : (h.first? .date).bind date? = none := by rw [hfirst, Option.bind_some, hunread]
    rw [resolveDate_fallback hown, fallback, hwarning, Option.getD_some, hwritten]

/-- Settled fields are left as they are. -/
theorem Settled.headers_eq (hsettled : Settled h date instant) (later : Timestamp) :
    headers h later = h := by
  rw [Reconcile.headers_eq, hsettled.resolveDate_eq later, List.filter_eq_self.mpr hsettled.kept,
    ← hsettled.arranged]

/-- The warning that decides about a date is kept beside it. -/
theorem findSome?_filter_keepsWarning (h : warnings.findSome? warningDate? = some instant) :
    (warnings.filter (keepsWarning instant)).findSome? warningDate? = some instant := by
  obtain ⟨before, value, after, rfl, hvalue, hbefore⟩ := List.findSome?_eq_some_iff.mp h
  have hkept : ∀ v ∈ before, keepsWarning instant v = true :=
    fun v hv => keepsWarning_iff.mpr (.inl (hbefore v hv))
  rw [List.filter_append, List.filter_eq_self.mpr hkept,
    List.filter_cons_of_pos (keepsWarning_iff.mpr (.inr hvalue)), List.findSome?_eq_some_iff]
  exact ⟨before, value, _, rfl, hvalue, hbefore⟩

/-- What the date of an answer came from is still there in what is kept of it. -/
theorem Resolved.tells (h : Resolved backend now date instant) (hfirst : 0 ≤ yearOf now)
    (hlast : yearOf now ≤ 9999) :
    Tells date ((backend.values .warning).filter (keepsWarning instant)) instant := by
  cases h with
  | own hdate hread => exact .own hread
  | warned hown hwarning =>
    obtain ⟨value, -, hvalue⟩ := List.exists_of_findSome?_eq_some hwarning
    obtain ⟨text, -, htext⟩ := Option.bind_eq_some_iff.mp hvalue
    obtain ⟨written, hwritten⟩ := ofWarning?_eq_some htext
    have hread := date?_dateValue (yearOf_parse? hwritten).2
    split at hread
    case isTrue => exact .own hread
    case isFalse => exact .warned hread rfl (findSome?_filter_keepsWarning hwarning)
  | current => exact .own (by rw [date?_dateValue hlast, if_pos hfirst])

theorem Resolved.values_warning (h : Resolved backend now date instant) :
    (headers backend now).values .warning =
      (backend.values .warning).filter (keepsWarning instant) := by
  rw [headers_eq, resolved_iff.mp h, values_arrange_warning]

/-- A reconciled answer is settled. -/
theorem Resolved.settled (h : Resolved backend now date instant) (hfirst : 0 ≤ yearOf now)
    (hlast : yearOf now ≤ 9999) : Settled (headers backend now) date instant := by
  refine ⟨?_, ?_, ?_⟩
  · rw [h.values_warning, headers_eq, resolved_iff.mp h, arrange_arrange]
  · rw [h.values_warning]
    exact h.tells hfirst hlast
  · rw [h.values_warning]
    exact fun value hvalue => (List.mem_filter.mp hvalue).2

/-- If the date of settled fields can be read, it is read as their instant. -/
theorem Settled.date_read (h : Settled backend date instant) (hread : date? date = some t) :
    t = instant := by
  cases h.tells with
  | own hread' => exact Option.some.inj (hread.symm.trans hread')
  | warned hunread => rw [hunread] at hread; cases hread

end Reconcile

open HttpDate Reconcile

/-- **Reconciling settles the date of an answer.**  From a current year of four digits on, the
    answer has one date, which is its own if that can be read, else that of its first warning with a
    date, else the current one; of its warnings those stay that have no date or this one, and it is
    what the date is read as, if it can be read; the other fields are the backend's without those
    that speak of one connection only; and at any later time the answer is left as it is. -/
theorem reconciliation_settles (backend : Headers) (now : Timestamp) (hfirst : 0 ≤ yearOf now)
    (hlast : yearOf now ≤ 9999) :
    let answer := Reconcile.headers backend now
    ∃ date instant, Resolved backend now date instant ∧
      answer.values .date = [date] ∧
      answer.values .warning = (backend.values .warning).filter
        (fun value => warningDate? value = none ∨ warningDate? value = some instant) ∧
      (∀ value ∈ answer.values .warning, ∀ t, warningDate? value = some t → t = instant) ∧
      (∀ t, date? date = some t → t = instant) ∧
      (∀ name, name ≠ .date → name ≠ .warning →
        answer.values name = if name.isHopByHop then [] else backend.values name) ∧
      ∀ later, Reconcile.headers answer later = answer := by
  intro answer
  obtain ⟨⟨date, instant⟩, hpair⟩ : ∃ found, resolveDate backend now = found := ⟨_, rfl⟩
  have hresolved := resolved_iff.mpr hpair
  have hsettled := hresolved.settled hfirst hlast
  refine ⟨date, instant, hresolved, ?_, ?_, fun value hvalue t ht => ?_,
    fun t => hsettled.date_read, fun name => headers_values backend now, hsettled.headers_eq⟩
  · rw [Reconcile.headers_date, hpair]
  · rw [hresolved.values_warning]
    exact List.filter_congr fun value _ => Bool.eq_iff_iff.mpr (by simp [keepsWarning_iff])
  · rcases keepsWarning_iff.mp (hsettled.kept value hvalue) with hundated | hdated
    · rw [hundated] at ht
      cases ht
    · exact Option.some.inj (ht.symm.trans hdated)

/-- A date that is written but cannot be read again: it comes from the warning of a year before the
    year 0, and that warning is kept. -/
theorem reconciliation_settles_unreadable :
    let early : HeaderValue := ⟨Bytes.ofText "110 proxy \"stale\" \"Fri Jan 1 00:00:00 -0001\""⟩
    let late : HeaderValue :=
      ⟨Bytes.ofText "110 proxy \"stale\" \"Sun, 06 Nov 1994 08:49:37 GMT\""⟩
    let backend : Headers :=
      ⟨[(.date, ⟨Bytes.ofText "today"⟩), (.warning, early), (.warning, late)]⟩
    let answer := Reconcile.headers backend 1577836800
    (0 ≤ yearOf 1577836800 ∧ yearOf 1577836800 ≤ 9999) ∧
    answer.values .date = [⟨Bytes.ofText "Fri, 01 Jan -0001 00:00:00 GMT"⟩] ∧
    answer.values .warning = [early] ∧
    (∀ date ∈ answer.values .date, Reconcile.date? date = none) ∧
    ∀ later, Reconcile.headers answer later = answer := by
  intro early late backend answer
  have hfirst : 0 ≤ yearOf 1577836800 := by decide
  have hlast : yearOf 1577836800 ≤ 9999 := by decide
  have hdate : answer.values .date = [⟨Bytes.ofText "Fri, 01 Jan -0001 00:00:00 GMT"⟩] := by
    decide +kernel
  have hunread : Reconcile.date? ⟨Bytes.ofText "Fri, 01 Jan -0001 00:00:00 GMT"⟩ = none := by
    decide +kernel
  obtain ⟨_, _, -, -, -, -, -, -, hlater⟩ :=
    reconciliation_settles backend 1577836800 hfirst hlast
  refine ⟨⟨hfirst, hlast⟩, hdate, by decide +kernel, ?_, hlater⟩
  rw [hdate]
  simpa using hunread

end AccessGateway
