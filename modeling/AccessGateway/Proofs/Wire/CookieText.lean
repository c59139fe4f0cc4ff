import AccessGateway.Wire.Cookie
import AccessGateway.Wire.Header
import Mathlib.Data.List.TakeWhile

/-!
# Cookies as texts

The name of a cookie is the text before the first `=` of the part before the first `;`.  It is read
here from any row of bytes, each taken for one character, and agrees with `Cookie.parse?` where that
reads anything.  Names and values that were read once are written and read again unchanged.

## Results

* `Text.fields_head`, `Text.mem_fields`, `Text.trim_trim` — what cutting and trimming leave.
* `Cookie.parse?_name`, `Cookie.exists_parse?` — a text is a cookie exactly if it has a name.
* `Cookie.split_write` — written pairs are read again.
* `HeaderValue.text?_ofText` — plain text travels unchanged.
-/

set_option autoImplicit false

namespace AccessGateway

/-! ## Cutting and trimming -/

namespace Text

section Cutting

variable {α : Type} [DecidableEq α] {sep : α} {xs : List α}

theorem fields_head (sep : α) (xs : List α) :
    ∃ rest, fields sep xs = xs.takeWhile (· ≠ sep) :: rest := by
  induction xs with
  | nil => exact ⟨[], rfl⟩
  | cons x xs ih =>
    obtain ⟨rest, hrest⟩ := ih
    by_cases hx : x = sep
    · subst hx
      exact ⟨fields x xs, by simp [fields_cons_sep]⟩
    · exact ⟨rest, by rw [fields_cons hx hrest]; simp [hx]⟩

/-- A field has no separator, and nothing that the text does not have. -/
theorem mem_fields {field : List α} (h : field ∈ fields sep xs) :
    sep ∉ field ∧ ∀ x ∈ field, x ∈ xs := by
  induction xs generalizing field with
  | nil =>
    rw [fields_nil, List.mem_singleton] at h
    simp [h]
  | cons y xs ih =>
    by_cases hy : y = sep
    · subst hy
      rw [fields_cons_sep, List.mem_cons] at h
      rcases h with rfl | h
      · simp
      · obtain ⟨hsep, hsub⟩ := ih h
        exact ⟨hsep, fun x hx => List.mem_cons_of_mem _ (hsub x hx)⟩
    · obtain ⟨rest, hrest⟩ := fields_head sep xs
      have hfirst := ih (hrest ▸ List.mem_cons_self)
      rw [fields_cons hy hrest, List.mem_cons] at h
      rcases h with rfl | h
      · refine ⟨List.not_mem_cons_of_ne_of_not_mem (Ne.symm hy) hfirst.1, fun x hx => ?_⟩
        rcases List.mem_cons.mp hx with rfl | hx
        · exact List.mem_cons_self
        · exact List.mem_cons_of_mem _ (hfirst.2 x hx)
      · obtain ⟨hsep, hsub⟩ := ih (hrest ▸ List.mem_cons_of_mem _ h)
        exact ⟨hsep, fun x hx => List.mem_cons_of_mem _ (hsub x hx)⟩

theorem notMem_takeWhile : sep ∉ xs.takeWhile (· ≠ sep) := by
  intro h
  simpa using List.mem_takeWhile_imp h

theorem cut?_eq_some {before after : List α} (h : cut? sep xs = some (before, after)) :
    before = xs.takeWhile (· ≠ sep) ∧ ∀ x ∈ before ++ after, x ∈ xs := by
  unfold cut? at h
  split at h
  · cases h
  · rename_i y rest hd
    cases h
    refine ⟨rfl, fun x hx => ?_⟩
    rcases List.mem_append.mp hx with hx | hx
    · exact (List.takeWhile_prefix _).subset hx
    · exact (List.dropWhile_suffix _).subset (hd ▸ List.mem_cons_of_mem _ hx)

end Cutting

variable {cs : List Char}

theorem mem_of_mem_trim {c : Char} (h : c ∈ trim cs) : c ∈ cs := by
  unfold trim trimEnd trimStart at h
  have h₁ := (List.dropWhile_suffix _).subset (List.mem_reverse.mp h)
  exact (List.dropWhile_suffix _).subset (List.mem_reverse.mp h₁)

theorem head?_trimStart (cs : List Char) {c : Char} (h : (trimStart cs).head? = some c) :
    isBlank c = false := by
  have hnot := List.head?_dropWhile_not isBlank cs
  unfold trimStart at h
  rw [h] at hnot
  exact hnot

/-- Trimming twice is trimming once. -/
theorem trim_trim (cs : List Char) : trim (trim cs) = trim cs := by
  refine trim_eq_self (fun c hc => ?_) fun c hc => ?_
  · have hprefix : trim cs <+: trimStart cs := by
      unfold trim trimEnd
      have := (List.dropWhile_suffix isBlank (l := (trimStart cs).reverse)).reverse
      rwa [List.reverse_reverse] at this
    obtain ⟨rest, hrest⟩ := hprefix
    refine head?_trimStart cs ?_
    rw [← hrest]
    cases ht : trim cs with
    | nil =>
      rw [ht] at hc
      cases hc
    | cons d ds =>
      rw [ht] at hc
      exact hc
  · unfold trim trimEnd at hc
    rw [List.getLast?_reverse] at hc
    exact head?_trimStart _ hc

end Text

/-! ## Names of cookies -/

/-- The characters of a value, one for each byte. -/
def HeaderValue.latin1 (v : HeaderValue) : List Char := v.bytes.map fun b => Char.ofNat b.toNat

namespace Cookie

/-- The name of the cookie that a text is: what is before the first `=` of the part before the first
    `;`, without the blanks around it. -/
def nameOf? (cs : List Char) : Option (List Char) :=
  (Text.cut? '=' (cs.takeWhile (· ≠ ';'))).map fun (name, _) => Text.trim name

/-- The characters of a name and a value as they may stand in a jar. -/
structure Tame (p : String × String) : Prop where
  name_ne : p.1.toList ≠ []
  name_equals : '=' ∉ p.1.toList
  name_semicolon : ';' ∉ p.1.toList
  value_semicolon : ';' ∉ p.2.toList
  name_trimmed : Text.trim p.1.toList = p.1.toList
  value_trimmed : Text.trim p.2.toList = p.2.toList

variable {part : List Char} {p : String × String} {s : String} {c : Cookie}

theorem pair?_tame (hpart : ';' ∉ part) (h : pair? part = some p) :
    Tame p ∧ (∀ x ∈ p.1.toList ++ p.2.toList, x ∈ part) ∧
      (Text.cut? '=' part).map (fun (name, _) => Text.trim name) = some p.1.toList := by
  unfold pair? at h
  cases hcut : Text.cut? '=' part with
  | none =>
    rw [hcut] at h
    cases h
  | some q =>
    obtain ⟨name, value⟩ := q
    rw [hcut] at h
    simp only [Option.bind_eq_bind, Option.bind_some] at h
    split at h
    · cases h
    · rename_i hne
      cases h
      obtain ⟨hname, hmem⟩ := Text.cut?_eq_some hcut
      have hequals : '=' ∉ name := by
        rw [hname]
        exact Text.notMem_takeWhile
      have hmem' : ∀ x ∈ Text.trim name ++ Text.trim value, x ∈ part := by
        intro x hx
        refine hmem x ?_
        rcases List.mem_append.mp hx with hx | hx
        · exact List.mem_append_left _ (Text.mem_of_mem_trim hx)
        · exact List.mem_append_right _ (Text.mem_of_mem_trim hx)
      simp only [String.toList_ofList]
      refine ⟨⟨?_, ?_, ?_, ?_, ?_, ?_⟩, hmem', rfl⟩
      · simpa using hne
      · rw [String.toList_ofList]
        exact fun hx => hequals (Text.mem_of_mem_trim hx)
      · rw [String.toList_ofList]
        exact fun hx => hpart (hmem' _ (List.mem_append_left _ hx))
      · rw [String.toList_ofList]
        exact fun hx => hpart (hmem' _ (List.mem_append_right _ hx))
      · rw [String.toList_ofList, Text.trim_trim]
      · rw [String.toList_ofList, Text.trim_trim]

/-- A text is a cookie exactly if the part before the first `;` is a name and a value. -/
theorem parse?_pair (s : String) :
    (parse? s).map (fun c => (c.name, c.value)) = pair? (s.toList.takeWhile (· ≠ ';')) := by
  obtain ⟨rest, hrest⟩ := Text.fields_head ';' s.toList
  unfold parse?
  rw [hrest]
  dsimp only
  rw [Option.map_map]
  exact Option.map_id'

theorem pair?_of_nameOf? {cs name : List Char} (h : nameOf? cs = some name) (hne : name ≠ []) :
    ∃ value, pair? (cs.takeWhile (· ≠ ';')) = some (String.ofList name, value) := by
  unfold nameOf? at h
  unfold pair?
  cases hcut : Text.cut? '=' (cs.takeWhile (· ≠ ';')) with
  | none =>
    rw [hcut] at h
    cases h
  | some q =>
    rw [hcut] at h
    cases h
    exact ⟨_, if_neg hne⟩

theorem nameOf?_of_pair? {cs : List Char} (h : pair? (cs.takeWhile (· ≠ ';')) = some p) :
    nameOf? cs = some p.1.toList :=
  (pair?_tame Text.notMem_takeWhile h).2.2

theorem nameOf?_append {name : List Char} (hequals : '=' ∉ name) (hsemicolon : ';' ∉ name)
    (rest : List Char) : nameOf? (name ++ '=' :: rest) = some (Text.trim name) := by
  have hne : '=' ≠ ';' := by decide
  have htake : (name ++ '=' :: rest).takeWhile (· ≠ ';') =
      name ++ '=' :: rest.takeWhile (· ≠ ';') := by
    rw [List.takeWhile_append_of_pos]
    · simp [hne]
    · intro c hc
      simpa using fun hcs : c = ';' => hsemicolon (hcs ▸ hc)
  unfold nameOf?
  rw [htake, Text.cut?_append hequals]
  rfl

/-! ## Writing and reading again -/

theorem Tame.pair? (h : Tame p) (blanks : List Char)
    (hb : ∀ b ∈ blanks, Text.isBlank b = true) (hequals : '=' ∉ blanks) :
    Cookie.pair? (blanks ++ (p.1 ++ "=" ++ p.2).toList) = some p := by
  have hcut : Text.cut? '=' (blanks ++ (p.1 ++ "=" ++ p.2).toList) =
      some (blanks ++ p.1.toList, p.2.toList) := by
    have happ : blanks ++ (p.1 ++ "=" ++ p.2).toList =
        (blanks ++ p.1.toList) ++ '=' :: p.2.toList := by
      simp
    rw [happ]
    refine Text.cut?_append (fun hx => ?_) _
    rcases List.mem_append.mp hx with hx | hx
    · exact hequals hx
    · exact h.name_equals hx
  have htrim : Text.trim (blanks ++ p.1.toList) = p.1.toList := by
    unfold Text.trim
    rw [Text.trimStart_append _ hb]
    exact h.name_trimmed
  unfold Cookie.pair?
  rw [hcut]
  simp only [Option.bind_eq_bind, Option.bind_some, htrim, h.value_trimmed, if_neg h.name_ne,
    String.ofList_toList]

/-- The written form of a name and a value. -/
def pairText (p : String × String) : List Char := (p.1 ++ "=" ++ p.2).toList

theorem Tame.semicolon_notMem (h : Tame p) : ';' ∉ pairText p := by
  have hne : ';' ≠ '=' := by decide
  simp [pairText, h.name_semicolon, h.value_semicolon, hne]

theorem toList_write (p : String × String) (ps : List (String × String)) :
    (write (p :: ps)).toList =
      pairText p ++ (ps.map fun q => ' ' :: pairText q).flatMap (';' :: ·) := by
  unfold write Text.join
  rw [String.toList_intercalate, List.map_map]
  induction ps generalizing p with
  | nil => simp [pairText]
  | cons q qs ih =>
    rw [List.map_cons, List.map_cons, List.intercalate_cons_cons, ← List.map_cons, ih q]
    simp [pairText]

theorem mem_write {pairs : List (String × String)} {x : Char}
    (h : x ∈ (write pairs).toList) : x = ';' ∨ x = ' ' ∨ ∃ p ∈ pairs, x ∈ pairText p := by
  cases pairs with
  | nil => cases h
  | cons p ps =>
    rw [toList_write] at h
    rcases List.mem_append.mp h with h | h
    · exact .inr (.inr ⟨p, List.mem_cons_self, h⟩)
    · obtain ⟨part, hpart, h⟩ := List.mem_flatMap.mp h
      obtain ⟨q, hq, rfl⟩ := List.mem_map.mp hpart
      rcases List.mem_cons.mp h with h | h
      · exact .inl h
      · rcases List.mem_cons.mp h with h | h
        · exact .inr (.inl h)
        · exact .inr (.inr ⟨q, List.mem_cons_of_mem _ hq, h⟩)

/-- Every part of what is written is read as the pair that it was written for. -/
theorem map_pair?_write (h : Tame p) {ps : List (String × String)} (hps : ∀ q ∈ ps, Tame q) :
    (Text.fields ';' (write (p :: ps)).toList).map pair? = (p :: ps).map some := by
  have hfields : Text.fields ';' (write (p :: ps)).toList =
      pairText p :: ps.map fun q => ' ' :: pairText q := by
    rw [toList_write]
    refine Text.fields_join fun part hpart => ?_
    rcases List.mem_cons.mp hpart with rfl | hpart
    · exact h.semicolon_notMem
    · obtain ⟨q, hq, rfl⟩ := List.mem_map.mp hpart
      simpa using (hps q hq).semicolon_notMem
  have hfirst : pair? (pairText p) = some p := h.pair? [] (by simp) (by simp)
  have hrest : ∀ q ∈ ps, (pair? ∘ fun q => ' ' :: pairText q) q = some q := fun q hq =>
    (hps q hq).pair? [' '] (by simp [Text.isBlank]) (by simp)
  rw [hfields, List.map_cons, hfirst, List.map_map, List.map_congr_left hrest, List.map_cons]

/-- **Written pairs are read again unchanged.** -/
theorem split_write {pairs : List (String × String)} (h : ∀ p ∈ pairs, Tame p) :
    split (write pairs) = pairs := by
  cases pairs with
  | nil => rfl
  | cons p ps =>
    obtain ⟨hp, hps⟩ := List.forall_mem_cons.mp h
    have hmap : (Text.fields ';' (write (p :: ps)).toList).filterMap pair? =
        ((Text.fields ';' (write (p :: ps)).toList).map pair?).filterMap id := by
      rw [List.filterMap_map]
      rfl
    unfold split
    rw [hmap, map_pair?_write hp hps, List.filterMap_map]
    exact List.filterMap_some

end Cookie

/-! ## Plain text -/

namespace HeaderValue

/-- A character of plain text: a tabulator or a printable ASCII character. -/
def isTextChar (c : Char) : Bool := c.toNat == 0x09 || (0x20 ≤ c.toNat && c.toNat < 0x7F)

theorem toNat_ofNat_byte (b : UInt8) : (Char.ofNat b.toNat).toNat = b.toNat := by
  have hb : b.toNat < 256 := b.toNat_lt
  have hvalid : b.toNat.isValidChar := Or.inl (by omega)
  unfold Char.ofNat
  rw [dif_pos hvalid]
  rfl

theorem isTextChar_ofNat {b : UInt8} :
    isTextChar (Char.ofNat b.toNat) = true ↔ isTextByte b = true := by
  unfold isTextChar
  rw [toNat_ofNat_byte]
  simp [isTextByte, UInt8.le_iff_toNat_le, UInt8.lt_iff_toNat_lt, ← UInt8.toNat_inj]

theorem latin1_of_text? {v : HeaderValue} {s : String} (h : v.text? = some s) :
    v.latin1 = s.toList ∧ ∀ c ∈ s.toList, isTextChar c = true := by
  unfold text? chars? at h
  split at h
  · rename_i hall
    cases h
    rw [String.toList_ofList]
    refine ⟨rfl, fun c hc => ?_⟩
    obtain ⟨b, hb, rfl⟩ := List.mem_map.mp hc
    exact isTextChar_ofNat.mpr (List.all_eq_true.mp hall b hb)
  · cases h

theorem utf8EncodeChar_of_lt {c : Char} (h : c.toNat < 128) :
    String.utf8EncodeChar c = [UInt8.ofNat c.toNat] := by
  have hle : c.toNat ≤ 127 := Nat.le_of_lt_succ h
  simp [String.utf8EncodeChar, Nat.not_lt.mpr hle]

theorem ofText_bytes {s : String} (h : ∀ c ∈ s.toList, c.toNat < 128) :
    Bytes.ofText s = s.toList.map fun c => UInt8.ofNat c.toNat := by
  unfold Bytes.ofText Utf8.encode
  generalize s.toList = cs at h
  induction cs with
  | nil => rfl
  | cons c cs ih =>
    rw [List.flatMap_cons, utf8EncodeChar_of_lt (h c List.mem_cons_self),
      ih fun d hd => h d (List.mem_cons_of_mem _ hd)]
    rfl

theorem lt_of_isTextChar {c : Char} (h : isTextChar c = true) : c.toNat < 128 := by
  simp only [isTextChar, Bool.or_eq_true, beq_iff_eq, Bool.and_eq_true, decide_eq_true_eq] at h
  omega

theorem ofNat_toNat_of_lt {c : Char} (h : c.toNat < 128) :
    Char.ofNat (UInt8.ofNat c.toNat).toNat = c := by
  have hmod : (UInt8.ofNat c.toNat).toNat = c.toNat := by
    rw [UInt8.toNat_ofNat']
    exact Nat.mod_eq_of_lt (by omega)
  rw [hmod, Char.ofNat_toNat]

theorem latin1_ofText {s : String} (h : ∀ c ∈ s.toList, c.toNat < 128) :
    latin1 ⟨Bytes.ofText s⟩ = s.toList := by
  unfold latin1
  rw [ofText_bytes h, List.map_map]
  exact (List.map_congr_left fun c hc => ofNat_toNat_of_lt (h c hc)).trans (List.map_id _)

theorem latin1_ofText_append {s : String} (h : ∀ c ∈ s.toList, c.toNat < 128) (t : String) :
    latin1 ⟨Bytes.ofText (s ++ t)⟩ = s.toList ++ latin1 ⟨Bytes.ofText t⟩ := by
  rw [← latin1_ofText h]
  simp [latin1, Bytes.ofText, Utf8.encode]

theorem isTextByte_of_mem_ofText {s : String} (h : ∀ c ∈ s.toList, isTextChar c = true) :
    ∀ b ∈ Bytes.ofText s, isTextByte b = true := by
  rw [ofText_bytes fun c hc => lt_of_isTextChar (h c hc)]
  intro b hb
  obtain ⟨c, hc, rfl⟩ := List.mem_map.mp hb
  have hc' := h c hc
  rw [← ofNat_toNat_of_lt (lt_of_isTextChar hc')] at hc'
  exact isTextChar_ofNat.mp hc'

/-- **Plain text travels unchanged.** -/
theorem text?_ofText {s : String} (h : ∀ c ∈ s.toList, isTextChar c = true) :
    text? ⟨Bytes.ofText s⟩ = some s := by
  have hall := List.all_eq_true.mpr (isTextByte_of_mem_ofText h)
  have hlatin := latin1_ofText fun c hc => lt_of_isTextChar (h c hc)
  unfold latin1 at hlatin
  unfold text? chars?
  rw [if_pos hall, Option.map_some, hlatin, String.ofList_toList]

theorem ofText?_eq_some {s : String} (h : ∀ c ∈ s.toList, isTextChar c = true) :
    ofText? s = some ⟨Bytes.ofText s⟩ := by
  unfold ofText? ofBytes?
  refine if_pos (List.all_eq_true.mpr fun b hb => ?_)
  have hb' := isTextByte_of_mem_ofText h b hb
  simp only [isTextByte, isFieldByte, Bool.or_eq_true, Bool.and_eq_true, beq_iff_eq,
    decide_eq_true_eq, bne_iff_ne, ne_eq] at hb' ⊢
  rcases hb' with hb' | ⟨hlow, hhigh⟩
  · exact .inl hb'
  · exact .inr ⟨hlow, fun heq => absurd hhigh (heq ▸ UInt8.lt_irrefl _)⟩

end HeaderValue
end AccessGateway
