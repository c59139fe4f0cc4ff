import AccessGateway.Access.Mapping
import AccessGateway.Net.HttpUrl
import AccessGateway.Proofs.Encoding.Separators

/-!
# Where a browser is sent that was turned away

A mapping may send a browser on to an address of its settings.  If the address ends with the mark
`redirect_uri=`, the path of the request is written behind it, as the end of a form.  Whatever the
path is, nothing is written that divides an address or a form, so the location has the parts that
the address has, and the path is read at the end of the last one.

## Results

* `HttpUrl.split?_append`, `HttpUrl.parse?_append` — the host of an address does not depend on what
  stands behind it.
* `Mapping.carries_encode` — what the location of a path holds.
* `redirect_carries_path` — where a browser is sent.
-/

set_option autoImplicit false

namespace AccessGateway

/-! ## Addresses -/

namespace HttpUrl

/-- A slash of either kind. -/
def isSlash (c : Char) : Bool := c == '/' || c == '\\'

/-- The scheme of an address, and what comes after its colon and the slashes there. -/
def split? (s : String) : Option (String × List Char) :=
  (Text.cut? ':' (clean s.toList)).map fun (scheme, rest) =>
    (Text.toLower (String.ofList scheme), rest.dropWhile isSlash)

/-- If the address names a host, it does so before its end. -/
def HostEnds (s : String) : Prop :=
  ∀ scheme rest, split? s = some (scheme, rest) → scheme = "http" ∨ scheme = "https" →
    ∃ c ∈ rest, endsAuthority c = true

theorem parse?_eq (s : String) :
    parse? s = (split? s).bind fun (scheme, rest) =>
      if scheme = "http" ∨ scheme = "https" then
        authority? (scheme = "https") (rest.takeWhile (!endsAuthority ·))
      else none := by
  unfold parse? split?
  cases Text.cut? ':' (clean s.toList) <;> rfl

/-- A character at which neither trimming nor cutting changes anything. -/
structure Inner (c : Char) : Prop where
  padding : isPadding c = false
  colon : c ≠ ':'
  slash : isSlash c = false

theorem dropWhile_append_cons {p : Char → Bool} {c : Char} (h : p c = false) (xs ys : List Char) :
    (xs ++ c :: ys).dropWhile p = xs.dropWhile p ++ c :: ys := by
  have hc : (c :: ys).dropWhile p = c :: ys := List.dropWhile_cons_of_neg (by simp [h])
  rw [List.dropWhile_append, hc]
  split
  · rename_i hempty
    rw [List.isEmpty_iff.mp hempty, List.nil_append]
  · rfl

/-- At an end that is no padding, nothing is trimmed off. -/
theorem clean_concat {c : Char} (h : isPadding c = false) (xs : List Char) :
    clean (xs ++ [c]) =
      (xs.dropWhile isPadding ++ [c]).filter fun c => !(c == '\t' || c == '\n' || c == '\r') := by
  unfold clean
  dsimp only
  rw [dropWhile_append_cons h, List.reverse_append, List.reverse_singleton, List.singleton_append,
    List.dropWhile_cons_of_neg (by simp [h]), List.reverse_cons, List.reverse_reverse]

theorem filter_printed {cs : List Char} (h : ∀ c ∈ cs, isPadding c = false) :
    cs.filter (fun c => !(c == '\t' || c == '\n' || c == '\r')) = cs := by
  rw [List.filter_eq_self]
  intro c hc
  have hprinted := h c hc
  simp only [Bool.not_eq_true', Bool.or_eq_false_iff, beq_eq_false_iff_ne]
  refine ⟨⟨?_, ?_⟩, ?_⟩
  all_goals
    rintro rfl
    revert hprinted
    decide

/-- What is added behind such an end is left as it is. -/
theorem exists_clean {c : Char} (h : isPadding c = false) (xs : List Char) :
    ∃ zs, ∀ ys, (∀ d ∈ ys, isPadding d = false) → clean (xs ++ c :: ys) = zs ++ c :: ys := by
  refine ⟨(xs.dropWhile isPadding).filter fun c => !(c == '\t' || c == '\n' || c == '\r'), ?_⟩
  intro ys hys
  have hprinted := filter_printed (List.forall_mem_cons.mpr ⟨h, hys⟩)
  rcases List.eq_nil_or_concat ys with rfl | ⟨ys, d, rfl⟩
  · rw [clean_concat h, List.filter_append, hprinted]
  · have hd : isPadding d = false := hys d (by simp)
    rw [List.concat_eq_append, ← List.cons_append] at hprinted ⊢
    rw [← List.append_assoc, clean_concat hd, dropWhile_append_cons h, List.append_assoc,
      List.filter_append, hprinted]

/-- An address is divided at the same place, whatever is added at its end. -/
theorem split?_append {url added : String} {c : Char} (hlast : url.toList.getLast? = some c)
    (hc : Inner c) (hadded : ∀ d ∈ added.toList, isPadding d = false ∧ d ≠ ':') :
    split? (url ++ added) =
      (split? url).map fun (scheme, rest) => (scheme, rest ++ added.toList) := by
  obtain ⟨xs, hurl⟩ := List.getLast?_eq_some_iff.mp hlast
  obtain ⟨zs, hclean⟩ := exists_clean hc.padding xs
  have hcolon : ':' ∉ c :: added.toList := by
    rw [List.mem_cons, not_or]
    exact ⟨Ne.symm hc.colon, fun h => (hadded _ h).2 rfl⟩
  unfold split?
  rw [String.toList_append, hurl, List.append_assoc, List.singleton_append,
    hclean _ fun d hd => (hadded d hd).1, hclean _ (by simp)]
  by_cases hmem : ':' ∈ zs
  · obtain ⟨scheme, rest, rfl, hscheme⟩ := List.eq_append_cons_of_mem hmem
    simp only [List.append_assoc, List.cons_append, Text.cut?_append hscheme, Option.map_some,
      dropWhile_append_cons hc.slash, List.nil_append]
  · rw [Text.cut?_eq_none (by simp_all), Text.cut?_eq_none (by simp_all)]
    rfl

/-- **The host of an address does not depend on what is added at its end.** -/
theorem parse?_append {url added : String} {c : Char} (hlast : url.toList.getLast? = some c)
    (hc : Inner c) (hadded : ∀ d ∈ added.toList, isPadding d = false ∧ d ≠ ':')
    (hends : HostEnds url) : parse? (url ++ added) = parse? url := by
  rw [parse?_eq, parse?_eq, split?_append hlast hc hadded]
  cases hsplit : split? url with
  | none => rfl
  | some parts =>
    obtain ⟨scheme, rest⟩ := parts
    dsimp only [Option.map_some, Option.bind_some]
    split
    · rename_i hweb
      obtain ⟨d, hd, hend⟩ := hends scheme rest hsplit hweb
      have hshort : (rest.takeWhile (!endsAuthority ·)).length ≠ rest.length := by
        intro hlength
        have hall := List.takeWhile_prefix (!endsAuthority ·) (l := rest) |>.eq_of_length hlength
        have hfalse := List.mem_takeWhile_imp (hall ▸ hd)
        simp [hend] at hfalse
      rw [List.takeWhile_append, if_neg hshort]
    · rfl

end HttpUrl

/-! ## Locations -/

namespace Mapping

/-- What is added to an address holds a path and nothing else. -/
structure Carries (url path added : String) : Prop where
  /-- It is made of the characters of encoded texts. -/
  escaped : Form.Escaped added.toList
  /-- What it stands for is the path. -/
  decoded : Form.decode (Bytes.ofText added) = path.toList
  /-- Every other character divides the location where it divides the address. -/
  pieces : ∀ d, Form.isWritten d = false →
    ∃ front last, Text.fields d url.toList = front ++ [last] ∧
      Text.fields d (url ++ added).toList = front ++ [last ++ added.toList]
  /-- Wherever a form starts in the address, the path belongs to the value of its last field. -/
  parameters : ∀ base query, url = base ++ query → redirectMark.toList <:+ query.toList →
    ∃ fields name value, Form.parse (Bytes.ofText query) = fields ++ [(name, value)] ∧
      Form.parse (Bytes.ofText (query ++ added)) = fields ++ [(name, value ++ path)]
  /-- The location names the host that the address names. -/
  host : HttpUrl.HostEnds url → HttpUrl.parse? (url ++ added) = HttpUrl.parse? url

variable {url : String}

theorem redirectLocation_marked (h : redirectMark.toList <:+ url.toList) (path : String) :
    redirectLocation url path = url ++ String.ofList (Form.encode path.toList) :=
  if_pos (List.isSuffixOf_iff_suffix.mpr h)

theorem redirectLocation_unmarked (h : ¬redirectMark.toList <:+ url.toList) (path : String) :
    redirectLocation url path = url :=
  if_neg (mt List.isSuffixOf_iff_suffix.mp h)

/-- The mark ends with `=`. -/
theorem exists_of_mark {cs : List Char} (h : redirectMark.toList <:+ cs) :
    ∃ front, cs = front ++ ['='] := by
  obtain ⟨front, rfl⟩ := h
  refine ⟨front ++ "redirect_uri".toList, ?_⟩
  rw [List.append_assoc]
  rfl

/-- **What the location of a path holds.** -/
theorem carries_encode (h : redirectMark.toList <:+ url.toList) (path : String) :
    Carries url path (String.ofList (Form.encode path.toList)) := by
  have hwritten := (Form.escaped_encode path.toList).isWritten
  constructor
  case escaped =>
    rw [String.toList_ofList]
    exact Form.escaped_encode path.toList
  case decoded =>
    rw [Bytes.ofText, String.toList_ofList, Form.decode_encode]
  case pieces =>
    intro d hd
    obtain ⟨front, last, hurl, -, hadded⟩ := Text.exists_fields_append d url.toList
    refine ⟨front, last, hurl, ?_⟩
    rw [String.toList_append]
    apply hadded
    rw [String.toList_ofList]
    intro hmem
    rw [hwritten d hmem] at hd
    cases hd
  case parameters =>
    intro base query _ hquery
    obtain ⟨front, hfront⟩ := exists_of_mark hquery
    obtain ⟨fields, name, value, hparse⟩ := Form.exists_parse_append (Utf8.encode front)
    have hbytes : ∀ cs, Bytes.ofText (query ++ String.ofList (Form.encode cs)) =
        Utf8.encode front ++ 0x3D :: Utf8.encode (Form.encode cs) := by
      intro cs
      rw [Bytes.ofText, String.toList_append, String.toList_ofList, hfront, Utf8.encode_append,
        Utf8.encode_append, List.append_assoc]
      rfl
    refine ⟨fields, name, value, ?_, ?_⟩
    · -- the address itself is the location of the empty path
      have hempty := hparse []
      rw [← hbytes] at hempty
      simpa [Form.encode, Utf8.encode] using hempty
    · rw [hbytes, hparse, String.ofList_toList]
  case host =>
    intro hends
    obtain ⟨front, hfront⟩ := exists_of_mark h
    apply HttpUrl.parse?_append (c := '=') (by simp [hfront]) ⟨by decide, by decide, by decide⟩ _
      hends
    rw [String.toList_ofList]
    intro d hd
    have hd' := hwritten d hd
    refine ⟨?_, ?_⟩
    · have hprinted := (Form.isWritten_printed hd').1
      simp only [HttpUrl.isPadding, decide_eq_false_iff_not]
      omega
    · rintro rfl
      revert hd'
      decide

/-- Different paths lead to different locations. -/
theorem redirectLocation_injective (h : redirectMark.toList <:+ url.toList) :
    Function.Injective (redirectLocation url) := by
  intro path path' heq
  rw [redirectLocation_marked h, redirectLocation_marked h, ← String.toList_inj] at heq
  simp only [String.toList_append, String.toList_ofList, List.append_cancel_left_eq] at heq
  exact String.toList_inj.mp (Form.encode_injective heq)

/-- A location can stand in a header field exactly if the address can. -/
theorem ofText?_redirectLocation (path : String) :
    HeaderValue.ofText? (redirectLocation url path) =
      if (HeaderValue.ofText? url).isSome then some ⟨Bytes.ofText (redirectLocation url path)⟩
      else none := by
  have hadded : (Form.encode path.toList).all HeaderValue.isFieldChar = true := by
    rw [List.all_eq_true]
    intro c hc
    have hprinted := Form.isWritten_printed ((Form.escaped_encode path.toList).isWritten c hc)
    simp only [HeaderValue.isFieldChar, Bool.or_eq_true, Bool.and_eq_true, decide_eq_true_eq,
      bne_iff_ne]
    omega
  have hsame : (redirectLocation url path).toList.all HeaderValue.isFieldChar =
      url.toList.all HeaderValue.isFieldChar := by
    by_cases hmark : redirectMark.toList <:+ url.toList
    · rw [redirectLocation_marked hmark, String.toList_append, List.all_append,
        String.toList_ofList, hadded, Bool.and_true]
    · rw [redirectLocation_unmarked hmark]
  rw [HeaderValue.ofText?_eq, HeaderValue.ofText?_eq url, hsame]
  split <;> rfl

/-- How a browser is turned away to an address. -/
theorem deny_redirect {m : Mapping} (hflow : m.flow = .redirect url) (path : String)
    (chosen : Option Status) :
    m.deny path chosen =
      if (HeaderValue.ofText? url).isSome then
        (Response.ofStatus .found).setHeader .location ⟨Bytes.ofText (redirectLocation url path)⟩
      else .ofStatus .internalError := by
  unfold deny
  rw [hflow]
  dsimp only
  rw [ofText?_redirectLocation]
  cases (HeaderValue.ofText? url).isSome <;> rfl

end Mapping

/-- **Where a browser is sent that is turned away.**  To an address with the mark at its end the
    path of the request is added, in such a way that the location differs from the address in
    nothing but this path; different paths lead to different locations.  Any other address is left
    as it is.  The answer is a 302 with that location for every path, if the address can stand in a
    header field; otherwise it is a 500, for every path too. -/
theorem redirect_carries_path (url : String) :
    (Mapping.redirectMark.toList <:+ url.toList →
      (∀ path, ∃ added, Mapping.redirectLocation url path = url ++ added ∧
        Mapping.Carries url path added) ∧
      Function.Injective (Mapping.redirectLocation url)) ∧
    (¬Mapping.redirectMark.toList <:+ url.toList →
      ∀ path, Mapping.redirectLocation url path = url) ∧
    ∀ m : Mapping, m.flow = .redirect url → ∀ path chosen,
      m.deny path chosen =
        if (HeaderValue.ofText? url).isSome then
          (Response.ofStatus .found).setHeader .location
            ⟨Bytes.ofText (Mapping.redirectLocation url path)⟩
        else .ofStatus .internalError := by
  refine ⟨?_, ?_, ?_⟩
  · intro hmark
    refine ⟨?_, ?_⟩
    · intro path
      exact ⟨_, Mapping.redirectLocation_marked hmark path, Mapping.carries_encode hmark path⟩
    · intro path path' heq
      exact Mapping.redirectLocation_injective hmark heq
  · exact Mapping.redirectLocation_unmarked
  · intro m hflow path chosen
    exact Mapping.deny_redirect hflow path chosen

example :
    Mapping.redirectLocation "https://login/?redirect_uri=" "/app/a b&next=//evil#" =
      "https://login/?redirect_uri=%2Fapp%2Fa+b%26next%3D%2F%2Fevil%23" := by
  decide +kernel

end AccessGateway
