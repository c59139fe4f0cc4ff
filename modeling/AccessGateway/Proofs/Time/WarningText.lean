import AccessGateway.Proofs.Text.Numerals
import AccessGateway.Proofs.Text.Pieces
import AccessGateway.Time.HttpDate

/-!
# The date behind the text of a warning

A warning is a code of three digits, the agent that gives it, a text in quotes and perhaps a date
in quotes.  The text is free: it may hold blanks, commas, quotes and dates of its own.  The date is
looked for from the end, between the last two quotes, so that no text hides it; and behind a text
without quotes there have to be two more of them.

## Results

* `trim_warning`, `ofWarning?_eq` — what blanks around a warning, its code and its agent count for.
* `closingDate?_dated`, `closingDate?_undated` — where the date of a warning is looked for.
* `warning_date_behind_text` — the date of a warning with any text, and of one that ends with its
  text.
-/

set_option autoImplicit false

namespace AccessGateway.HttpDate

open Text

variable {before after code agent body text date : List Char}

/-- The date between the last two quotes, if there is a text in quotes before it. -/
def closingDate? (quoted : List Char) : Option Timestamp := do
  let body ← stripEnd? ['"'] quoted
  let (text, date) ← cutLast? '"' body
  if text.head? = some '"' ∧ (trimEnd text).getLast? = some '"' then
    parse? (String.ofList date)
  else none

/-- Blanks around a warning do not count. -/
theorem trim_warning (hne : code ≠ []) (hcode : ∀ c ∈ code, isBlank c = false)
    (hends : ∀ c ∈ before ++ after, isBlank c = true) :
    trim (before ++ (code ++ ' ' :: (agent ++ ' ' :: (body ++ ['"']))) ++ after) =
      code ++ ' ' :: (agent ++ ' ' :: (body ++ ['"'])) := by
  refine trim_around ?_ (fun c hc => ?_) (fun c hc => ?_) hends
  · exact List.append_ne_nil_of_left_ne_nil hne _
  · obtain ⟨d, ds, rfl⟩ := List.exists_cons_of_ne_nil hne
    obtain rfl := Option.some.inj hc
    exact hcode _ List.mem_cons_self
  · have hlast : code ++ ' ' :: (agent ++ ' ' :: (body ++ ['"'])) =
        (code ++ ' ' :: (agent ++ ' ' :: body)) ++ ['"'] := by
      simp
    rw [hlast, List.getLast?_concat] at hc
    obtain rfl := Option.some.inj hc
    rfl

/-- Behind a code and an agent, a date counts if the code has three digits. -/
theorem ofWarning?_eq {value : String}
    (hvalue : value.toList = before ++ (code ++ ' ' :: (agent ++ ' ' :: (body ++ ['"']))) ++ after)
    (hends : ∀ c ∈ before ++ after, isBlank c = true) (hne : code ≠ [])
    (hcode : ∀ c ∈ code, isBlank c = false) (hagent : ' ' ∉ agent) : ofWarning? value =
      if code.length = 3 && code.all Char.isDigit then closingDate? (body ++ ['"'])
      else none := by
  have hspace : ' ' ∉ code := fun h => absurd (hcode _ h) (by decide)
  unfold ofWarning?
  rw [hvalue, trim_warning hne hcode hends, cut?_append hspace]
  simp only [Option.bind_eq_bind, Option.bind_some]
  rw [cut?_append hagent]
  simp only [Option.bind_some, Bool.and_eq_true, decide_eq_true_eq]
  rfl

/-- Whatever the text is, the date is what stands between the last two quotes. -/
theorem closingDate?_dated (text : List Char) (hdate : '"' ∉ date) :
    closingDate? (('"' :: (text ++ ['"', ' ']) ++ '"' :: date) ++ ['"']) =
      parse? (String.ofList date) := by
  have hend : trimEnd ('"' :: (text ++ ['"', ' '])) = '"' :: (text ++ ['"']) := by
    have hblank : ∀ b ∈ [' '], isBlank b = true := forall_mem_of_all (by decide)
    have hcut := trimEnd_append ('"' :: (text ++ ['"'])) hblank
    have hself : trimEnd ('"' :: (text ++ ['"'])) = '"' :: (text ++ ['"']) := by
      refine trimEnd_eq_self fun c hc => ?_
      rw [← List.cons_append, List.getLast?_concat] at hc
      obtain rfl := Option.some.inj hc
      rfl
    rw [hself] at hcut
    simpa using hcut
  have hquotes : ('"' :: (text ++ ['"', ' '])).head? = some '"' ∧
      (trimEnd ('"' :: (text ++ ['"', ' ']))).getLast? = some '"' := by
    refine ⟨rfl, ?_⟩
    rw [hend, ← List.cons_append, List.getLast?_concat]
  unfold closingDate?
  rw [stripEnd?_append]
  simp only [Option.bind_eq_bind, Option.bind_some]
  rw [cutLast?_append hdate, Option.bind_some, if_pos hquotes]

/-- Behind a text without quotes nothing is left for a date. -/
theorem closingDate?_undated (htext : '"' ∉ text) :
    closingDate? (('"' :: text) ++ ['"']) = none := by
  have hcut : cutLast? '"' ('"' :: text) = some ([], text) := cutLast?_append htext []
  unfold closingDate?
  rw [stripEnd?_append]
  simp only [Option.bind_eq_bind, Option.bind_some]
  rw [hcut]
  rfl

/-- **The date of a warning.**  Behind a code of three digits, an agent without spaces and any text
    in quotes, a date in quotes is the date of the warning; a warning that ends with a text without
    quotes has none, whatever its code and agent are and whatever is written in the text.  Blanks
    around a warning do not count. -/
theorem warning_date_behind_text (before after code agent text : String)
    (hends : ∀ c ∈ before.toList ++ after.toList, isBlank c = true) (hne : code ≠ "")
    (hcode : ∀ c ∈ code.toList, isBlank c = false) (hagent : ' ' ∉ agent.toList) :
    (code.length = 3 → (∀ c ∈ code.toList, c.isDigit = true) →
      ∀ date : String, '"' ∉ date.toList →
        ofWarning? (before ++ (code ++ " " ++ agent ++ " \"" ++ text ++ "\" \"" ++ date ++ "\"") ++
          after) = parse? date) ∧
    ('"' ∉ text.toList →
      ofWarning? (before ++ (code ++ " " ++ agent ++ " \"" ++ text ++ "\"") ++ after) = none) := by
  have hne' : code.toList ≠ [] := by simpa using hne
  have hgap : " ".toList = [' '] := rfl
  have hopen : " \"".toList = [' ', '"'] := rfl
  have hbetween : "\" \"".toList = ['"', ' ', '"'] := rfl
  have hclose : "\"".toList = ['"'] := rfl
  constructor
  · intro hlength hdigits date hdate
    have hvalue : (before ++ (code ++ " " ++ agent ++ " \"" ++ text ++ "\" \"" ++ date ++ "\"") ++
        after).toList = before.toList ++ (code.toList ++ ' ' :: (agent.toList ++ ' ' ::
          (('"' :: (text.toList ++ ['"', ' ']) ++ '"' :: date.toList) ++ ['"']))) ++
            after.toList := by
      simp [String.toList_append, hgap, hopen, hbetween, hclose]
    have hnumber : (code.toList.length = 3 && code.toList.all Char.isDigit) = true := by
      simpa using ⟨hlength, hdigits⟩
    rw [ofWarning?_eq hvalue hends hne' hcode hagent, if_pos hnumber, closingDate?_dated _ hdate,
      String.ofList_toList]
  · intro htext
    have hvalue : (before ++ (code ++ " " ++ agent ++ " \"" ++ text ++ "\"") ++ after).toList =
        before.toList ++ (code.toList ++ ' ' :: (agent.toList ++ ' ' ::
          (('"' :: text.toList) ++ ['"']))) ++ after.toList := by
      simp [String.toList_append, hgap, hopen, hclose]
    rw [ofWarning?_eq hvalue hends hne' hcode hagent, closingDate?_undated htext, ite_self]

/-- A text with quotes, a comma and a date of its own before the date; and such a date in the text
    alone. -/
theorem warning_date_behind_text_dated :
    (∀ c ∈ " ".toList ++ "".toList, isBlank c = true) ∧ "110" ≠ "" ∧
    (∀ c ∈ "110".toList, isBlank c = false ∧ c.isDigit = true) ∧ ' ' ∉ "proxy.local".toList ∧
    '"' ∉ "Sun, 06 Nov 1994 08:49:37 GMT".toList ∧
    ofWarning? (" " ++ ("110" ++ " " ++ "proxy.local" ++ " \"" ++
      "\"old\", Tue, 01 Jan 2020 00:00:00 GMT" ++ "\" \"" ++ "Sun, 06 Nov 1994 08:49:37 GMT" ++
        "\"") ++ "") = some 784111777 ∧
    ofWarning? (" " ++ ("110" ++ " " ++ "proxy.local" ++ " \"" ++
      "Sun, 06 Nov 1994 08:49:37 GMT" ++ "\"") ++ "") = none := by
  have hends : ∀ c ∈ " ".toList ++ "".toList, isBlank c = true := forall_mem_of_all (by decide)
  have hcode : ∀ c ∈ "110".toList, isBlank c = false ∧ c.isDigit = true :=
    forall_mem_of_all (by decide)
  have hagent : ' ' ∉ "proxy.local".toList := by decide
  have hdate : '"' ∉ "Sun, 06 Nov 1994 08:49:37 GMT".toList := by decide
  have hread : parse? "Sun, 06 Nov 1994 08:49:37 GMT" = some 784111777 := by decide +kernel
  refine ⟨hends, by decide, hcode, hagent, hdate, ?_, ?_⟩
  · rw [← hread]
    exact (warning_date_behind_text " " "" "110" "proxy.local"
      "\"old\", Tue, 01 Jan 2020 00:00:00 GMT" hends (by decide) (fun c hc => (hcode c hc).1)
      hagent).1 rfl (fun c hc => (hcode c hc).2) _ hdate
  · exact (warning_date_behind_text " " "" "110" "proxy.local" "Sun, 06 Nov 1994 08:49:37 GMT"
      hends (by decide) (fun c hc => (hcode c hc).1) hagent).2 hdate

end AccessGateway.HttpDate
