import AccessGateway.Proofs.Relay.Framing
import AccessGateway.Proofs.Wire.CookieText

/-!
# Transfer encodings on several lines

A message names the encodings it travels in on any number of lines.  Only `chunked` is understood,
in any case and with blanks around it.  Requests and answers are judged alike, by the first of the
lines: the others are never looked at.

## Results

* `HeaderValue.isChunked_iff` — which bytes are taken for `chunked`.
* `Headers.first?_saysChunked` — what the first line tells of all lines.
* `encodings_checked_iff` — which messages are let through, and what the others are told.
* `hidden_encoding_accepted` — an encoding on a later line is let through.
-/

set_option autoImplicit false

namespace AccessGateway

/-! ## The encoding that is understood -/

/-- What trimming takes away is blank. -/
theorem Text.exists_trim (cs : List Char) : ∃ before after,
    cs = before ++ trim cs ++ after ∧ ∀ c ∈ before ++ after, isBlank c = true := by
  have hstart : cs = cs.takeWhile isBlank ++ trimStart cs := by
    unfold trimStart
    rw [List.takeWhile_append_dropWhile]
  have hend : trimStart cs = trim cs ++ ((trimStart cs).reverse.takeWhile isBlank).reverse := by
    unfold trim trimEnd
    rw [← List.reverse_append, List.takeWhile_append_dropWhile, List.reverse_reverse]
  refine ⟨cs.takeWhile isBlank, ((trimStart cs).reverse.takeWhile isBlank).reverse, ?_, ?_⟩
  · rw [List.append_assoc, ← hend, ← hstart]
  · intro c hc
    rcases List.mem_append.mp hc with hc | hc
    · exact List.mem_takeWhile_imp hc
    · exact List.mem_takeWhile_imp (List.mem_reverse.mp hc)

namespace HeaderValue

/-- A value whose bytes are `chunked` in any case, with spaces and tabulators around it. -/
def SaysChunked (value : HeaderValue) : Prop :=
  ∃ before word after, value.latin1 = before ++ word ++ after ∧
    (∀ c ∈ before ++ after, c = ' ' ∨ c = '\t') ∧ word.map Char.toLower = "chunked".toList

variable {value : HeaderValue}

theorem isChunked_eq (value : HeaderValue) : value.isChunked =
    ((Text.trim (value.text?.getD "").toList).map Char.toLower == "chunked".toList) := by
  have hlower : "chunked".toList.map Char.toLower = "chunked".toList := by decide
  unfold isChunked encodingText Text.eqIgnoreCase Text.trimmed
  rw [String.toList_ofList, hlower]

theorem text?_of_latin1 (h : ∀ c ∈ value.latin1, isTextChar c = true) :
    value.text? = some (String.ofList value.latin1) := by
  have hall : value.bytes.all isTextByte = true := by
    refine List.all_eq_true.mpr fun b hb => isTextChar_ofNat.mp (h _ ?_)
    exact List.mem_map.mpr ⟨b, hb, rfl⟩
  unfold text? chars?
  rw [if_pos hall]
  rfl

/-- A letter of the word is plain text and no blank. -/
theorem isTextChar_of_toLower {c : Char} (h : c.toLower ∈ "chunked".toList) :
    isTextChar c = true ∧ Text.isBlank c = false := by
  by_cases hupper : c.val ≥ 'A'.val ∧ c.val ≤ 'Z'.val
  · have hrange : 65 ≤ c.toNat ∧ c.toNat ≤ 90 :=
      ⟨UInt32.le_iff_toNat_le.mp hupper.1, UInt32.le_iff_toNat_le.mp hupper.2⟩
    constructor
    · simp only [isTextChar, Bool.or_eq_true, beq_iff_eq, Bool.and_eq_true, decide_eq_true_eq]
      omega
    · simp [Text.isBlank]
      omega
  · have hsame : c.toLower = c := by
      unfold Char.toLower
      rw [dif_neg hupper]
    have hletters : "chunked".toList = ['c', 'h', 'u', 'n', 'k', 'e', 'd'] := rfl
    have hall : ∀ d ∈ ['c', 'h', 'u', 'n', 'k', 'e', 'd'],
        isTextChar d = true ∧ Text.isBlank d = false := by simp [isTextChar, Text.isBlank]
    rw [hsame, hletters] at h
    exact hall c h

/-- The blanks of plain text are spaces and tabulators. -/
theorem eq_of_isBlank {c : Char} (htext : isTextChar c = true) (hblank : Text.isBlank c = true) :
    c = ' ' ∨ c = '\t' := by
  have hcode : c.toNat = 32 ∨ c.toNat = 9 := by
    simp only [isTextChar, Text.isBlank, Bool.or_eq_true, beq_iff_eq, Bool.and_eq_true,
      decide_eq_true_eq] at htext hblank
    omega
  rcases hcode with hcode | hcode
  · left
    rw [← Char.ofNat_toNat c, hcode]
  · right
    rw [← Char.ofNat_toNat c, hcode]

/-- **What is taken for `chunked`**, whatever bytes a value holds. -/
theorem isChunked_iff : value.isChunked = true ↔ value.SaysChunked := by
  rw [isChunked_eq, beq_iff_eq]
  constructor
  · intro h
    cases htext : value.text? with
    | none =>
      rw [htext] at h
      cases h
    | some text =>
      obtain ⟨hlatin, hplain⟩ := latin1_of_text? htext
      obtain ⟨before, after, hsplit, hblank⟩ := Text.exists_trim text.toList
      rw [htext, Option.getD_some] at h
      refine ⟨before, _, after, hlatin.trans hsplit, fun c hc => ?_, h⟩
      refine eq_of_isBlank (hplain c ?_) (hblank c hc)
      rw [hsplit]
      rcases List.mem_append.mp hc with hc | hc
      · exact List.mem_append_left _ (List.mem_append_left _ hc)
      · exact List.mem_append_right _ hc
  · rintro ⟨before, word, after, hlatin, hblank, hword⟩
    have hletter : ∀ c ∈ word, isTextChar c = true ∧ Text.isBlank c = false := by
      intro c hc
      exact isTextChar_of_toLower (hword ▸ List.mem_map_of_mem hc)
    have hplain : ∀ c ∈ value.latin1, isTextChar c = true := by
      intro c hc
      rw [hlatin, List.append_assoc, List.mem_append, List.mem_append] at hc
      rcases hc with hc | hc | hc
      · rcases hblank c (List.mem_append_left _ hc) with rfl | rfl <;> rfl
      · exact (hletter c hc).1
      · rcases hblank c (List.mem_append_right _ hc) with rfl | rfl <;> rfl
    have hends : ∀ c ∈ before ++ after, Text.isBlank c = true := by
      intro c hc
      rcases hblank c hc with rfl | rfl <;> rfl
    have hne : word ≠ [] := by
      rintro rfl
      cases hword
    have htrim : Text.trim value.latin1 = word := by
      rw [hlatin]
      exact Text.trim_around hne (fun c hc => (hletter c (List.mem_of_mem_head? hc)).2)
        (fun c hc => (hletter c (List.mem_of_getLast? hc)).2) hends
    rw [text?_of_latin1 hplain, Option.getD_some, String.toList_ofList, htrim, hword]

end HeaderValue

/-! ## The lines of a message -/

namespace Headers

variable {h : Headers}

/-- Every line names the encoding that is understood, if there are any. -/
def EachChunked (h : Headers) : Prop := ∀ value ∈ h.values .transferEncoding, value.SaysChunked

/-- The first line names the encoding that is understood, and a later one another. -/
def HidesEncoding (h : Headers) : Prop :=
  ∃ first rest, h.values .transferEncoding = first :: rest ∧ first.SaysChunked ∧
    ∃ value ∈ rest, ¬value.SaysChunked

/-- What the first line names. -/
def firstEncoding (h : Headers) : String :=
  (h.first? .transferEncoding).elim "" HeaderValue.encodingText

/-- **What the first line tells of all lines.** -/
theorem first?_saysChunked :
    (∀ value, h.first? .transferEncoding = some value → value.SaysChunked) ↔
      h.EachChunked ∨ h.HidesEncoding := by
  unfold first? EachChunked HidesEncoding
  cases h.values .transferEncoding with
  | nil => simp
  | cons first rest =>
    simp only [List.head?_cons, Option.some.injEq, forall_eq', List.mem_cons, forall_eq_or_imp,
      List.cons.injEq]
    constructor
    · intro hfirst
      by_cases hrest : ∀ value ∈ rest, value.SaysChunked
      · exact .inl ⟨hfirst, hrest⟩
      · obtain ⟨value, hvalue⟩ := Classical.not_forall.mp hrest
        exact .inr ⟨first, rest, ⟨rfl, rfl⟩, hfirst, value, Classical.not_imp.mp hvalue⟩
    · rintro (⟨hfirst, -⟩ | ⟨_, _, ⟨rfl, -⟩, hfirst, -⟩)
      · exact hfirst
      · exact hfirst

/-- No line says two things. -/
theorem HidesEncoding.not_eachChunked (hhides : h.HidesEncoding) : ¬h.EachChunked := by
  obtain ⟨first, rest, hvalues, -, value, hvalue, hother⟩ := hhides
  intro heach
  refine hother (heach value ?_)
  rw [hvalues]
  exact List.mem_cons_of_mem _ hvalue

end Headers

/-- A version that the gateway speaks. -/
def Version.IsSpoken (v : Version) : Prop := v = .http10 ∨ v = .http11 ∨ v = .http2

/-! ## Requests and answers -/

theorem Request.check_ok_iff {r : Request} : r.check = .ok () ↔
    r.version.IsSpoken ∧ (r.headers.EachChunked ∨ r.headers.HidesEncoding) := by
  rw [check_eq_ok, ← Headers.first?_saysChunked]
  simp only [HeaderValue.isChunked_iff]
  rfl

theorem Request.check_encoding_iff {r : Request} :
    r.check = .error (.unsupportedTransferEncoding r.headers.firstEncoding) ↔
      r.version.IsSpoken ∧ ¬r.headers.EachChunked ∧ ¬r.headers.HidesEncoding := by
  rw [← not_or, ← Headers.first?_saysChunked]
  simp only [← HeaderValue.isChunked_iff]
  unfold check Headers.firstEncoding Version.IsSpoken
  by_cases hversion : r.version = .http10 ∨ r.version = .http11 ∨ r.version = .http2
  · rw [if_pos hversion]
    cases r.headers.first? .transferEncoding with
    | none => simp
    | some value =>
      by_cases hchunked : value.isChunked = true
      · simp [hchunked]
      · simp [hchunked, hversion]
  · rw [if_neg hversion]
    simp [hversion]

theorem BodyMode.of_chunked_iff {backend : Headers} {frontend : Version} :
    BodyMode.of backend frontend = .ok .chunked ↔ backend.has .transferEncoding = true ∧
      (backend.EachChunked ∨ backend.HidesEncoding) ∧ frontend.takesChunks = true := by
  rw [of_eq_chunked, ← Headers.first?_saysChunked, Headers.has_eq_true, ne_eq,
    ← Headers.first?_eq_none]
  simp only [← HeaderValue.isChunked_iff]
  cases backend.first? .transferEncoding with
  | none => simp
  | some value => simp

theorem BodyMode.of_encoding_iff {backend : Headers} {frontend : Version} :
    BodyMode.of backend frontend =
        .error (.unsupportedResponseEncoding backend.firstEncoding) ↔
      ¬backend.EachChunked ∧ ¬backend.HidesEncoding := by
  rw [← not_or, ← Headers.first?_saysChunked]
  simp only [← HeaderValue.isChunked_iff]
  unfold BodyMode.of Headers.firstEncoding
  cases backend.first? .transferEncoding with
  | none => simp
  | some value =>
    by_cases hchunked : value.isChunked = true
    · cases hversion : frontend.takesChunks <;> simp [hchunked]
    · simp [hchunked]

/-- **Which messages are let through.**  A request is, exactly if its version is spoken and each of
    its lines names the encoding that is understood, or the first one does and a later one does
    not; an answer goes on in chunks under the same condition on its lines, of which there must be
    one, if the browser can take chunks.  Every other line-up is refused, with what the first line
    names.  So the rule that every line has to name the encoding is broken by the messages that
    hide another one on a later line, by all of these and by no others. -/
theorem encodings_checked_iff (r : Request) (backend : Headers) (frontend : Version) :
    (r.check = .ok () ↔
      r.version.IsSpoken ∧ (r.headers.EachChunked ∨ r.headers.HidesEncoding)) ∧
    (r.check = .error (.unsupportedTransferEncoding r.headers.firstEncoding) ↔
      r.version.IsSpoken ∧ ¬r.headers.EachChunked ∧ ¬r.headers.HidesEncoding) ∧
    (BodyMode.of backend frontend = .ok .chunked ↔ backend.has .transferEncoding = true ∧
      (backend.EachChunked ∨ backend.HidesEncoding) ∧ frontend.takesChunks = true) ∧
    (BodyMode.of backend frontend =
        .error (.unsupportedResponseEncoding backend.firstEncoding) ↔
      ¬backend.EachChunked ∧ ¬backend.HidesEncoding) ∧
    (backend.HidesEncoding → ¬backend.EachChunked) :=
  ⟨Request.check_ok_iff, Request.check_encoding_iff, BodyMode.of_chunked_iff,
    BodyMode.of_encoding_iff, Headers.HidesEncoding.not_eachChunked⟩

/-- The lines of a message that was packed before it was cut into chunks. -/
def packedLines : Headers :=
  ⟨[(.transferEncoding, ⟨Bytes.ofText "chunked"⟩),
    (.transferEncoding, ⟨Bytes.ofText "gzip, chunked"⟩)]⟩

/-- An encoding that is not understood is let through on the second line, in a request and in an
    answer. -/
theorem hidden_encoding_accepted :
    (¬∀ r : Request, r.check = .ok () ↔ r.version.IsSpoken ∧ r.headers.EachChunked) ∧
    ¬∀ (backend : Headers) (frontend : Version),
      BodyMode.of backend frontend = .ok .chunked → backend.EachChunked := by
  have hhides : packedLines.HidesEncoding := by
    refine ⟨_, _, rfl, ?_, _, List.mem_singleton.mpr rfl, ?_⟩
    · rw [← HeaderValue.isChunked_iff]
      decide +kernel
    · rw [← HeaderValue.isChunked_iff]
      decide +kernel
  constructor
  · intro h
    have hcheck := (h ⟨.post, ⟨none, "", "/"⟩, .http11, packedLines, .ofBytes []⟩).mp
      (Request.check_ok_iff.mpr ⟨.inr (.inl rfl), .inr hhides⟩)
    exact hhides.not_eachChunked hcheck.2
  · intro h
    refine hhides.not_eachChunked (h packedLines .http11 ?_)
    exact BodyMode.of_chunked_iff.mpr ⟨rfl, .inr hhides, rfl⟩

end AccessGateway
