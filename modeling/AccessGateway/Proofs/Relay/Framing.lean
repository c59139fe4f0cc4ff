import AccessGateway.Proofs.Relay.Propagation
import AccessGateway.Proofs.Relay.Reconciliation

/-!
# How messages are framed on their way

A message tells the length of its body in advance, or it comes in chunks, or it ends with the
connection.  That it comes in chunks is said to one connection only and stays behind; a length that
was told goes on, also if the message came in chunks.

## Results

* `Response.relay_values` — what an answer keeps under a name.
* `Response.relay_streamed`, `Response.relay_collected` — the answer that comes of each way to frame
  one.
* `Request.check_eq_ok`, `BodyMode.of_eq_chunked` — which framing is let through.
* `chunked_length_survives` — the length that a relayed message tells.
* `relayed_length_contradicted` — it need not be the length of what follows.
-/

set_option autoImplicit false

namespace AccessGateway

/-! ## Requests -/

/-- A request may be relayed if its version is known, and if it comes in chunks should it say
    anything about its encoding. -/
theorem Request.check_eq_ok {r : Request} :
    r.check = .ok () ↔ (r.version = .http10 ∨ r.version = .http11 ∨ r.version = .http2) ∧
      ∀ value, r.headers.first? .transferEncoding = some value → value.isChunked = true := by
  unfold Request.check
  by_cases hversion : r.version = .http10 ∨ r.version = .http11 ∨ r.version = .http2
  · cases hfirst : r.headers.first? .transferEncoding with
    | none => simp [hversion]
    | some value =>
      by_cases hchunked : value.isChunked = true
      · simp [hversion, hchunked]
      · simp [hversion, hchunked]
  · simp [hversion]

namespace Outbound

variable {frontend : Headers} {injection : Injection} {settings : ProxySettings} {localPort : Nat}

/-- The encoding of the browser's message is told to nobody else. -/
theorem headers_transferEncoding :
    (headers frontend injection settings localPort).values .transferEncoding =
      (injection.workingHeaders.last? .transferEncoding).toList := by
  rw [headers_inherited rfl rfl]
  exact inherited_of_not_copied (by decide)

/-- The length that the browser told goes on. -/
theorem headers_contentLength :
    (headers frontend injection settings localPort).values .contentLength =
      (injection.workingHeaders.last? .contentLength).elim (frontend.values .contentLength)
        ([·]) := by
  have hcopied : isCopied .contentLength = true := by decide
  rw [headers_inherited rfl rfl, inherited, if_pos hcopied]

end Outbound

/-! ## Answers -/

/-- An answer in chunks goes on to a browser that can take them. -/
theorem BodyMode.of_eq_chunked {headers : Headers} {frontend : Version} :
    BodyMode.of headers frontend = .ok .chunked ↔
      (∃ value, headers.first? .transferEncoding = some value ∧ value.isChunked = true) ∧
        frontend.takesChunks = true := by
  unfold BodyMode.of
  cases headers.first? .transferEncoding with
  | none =>
    cases (headers.first? .contentLength).bind fun value =>
      value.text?.bind fun text => Text.word? UInt64.size (Text.trim text.toList) <;> simp
  | some value =>
    by_cases hchunked : value.isChunked = true
    · cases hversion : frontend.takesChunks <;> simp [hchunked]
    · simp [hchunked]

/-- The deliveries of a body make it up again. -/
theorem Body.ofDeliveries_deliveries (b : Body) : Body.ofDeliveries b.deliveries = b := by
  obtain ⟨frames, failure⟩ := b
  unfold deliveries
  induction frames with
  | nil => cases failure <;> rfl
  | cons f frames ih => rw [List.map_cons, List.cons_append, ofDeliveries, ih]

/-- A pump changes nothing in a body. -/
theorem Body.pumped_eq (b : Body) : b.pumped = b := by
  unfold pumped
  split
  · rename_i hend
    obtain ⟨frames, failure⟩ := b
    simp only [isAtEnd, Bool.and_eq_true, List.isEmpty_iff, Option.isNone_iff_eq_none] at hend
    rw [hend.1, hend.2]
    rfl
  · exact b.ofDeliveries_deliveries

theorem Body.content_ofBytes (bs : Bytes) : (Body.ofBytes bs).content = bs := by
  unfold Body.ofBytes content
  split
  · rename_i h
    exact h.symm
  · simp [Frame.bytes]

namespace Response

variable {backend response : Response} {frontend : Version} {method : Method} {now : Timestamp}

/-- An answer in chunks or of a known length goes on as it comes. -/
theorem relay_streamed {mode : BodyMode} (h : BodyMode.of backend.headers frontend = .ok mode)
    (hmode : mode ≠ .buffered) :
    backend.relay frontend method now = .ok
      { backend with
        headers := Reconcile.headers backend.headers now
        streamed := !backend.body.isAtEnd } := by
  unfold relay
  rw [h, Body.pumped_eq]
  cases mode with
  | chunked => rfl
  | contentLength n => rfl
  | buffered => exact absurd rfl hmode

theorem relay_chunked (h : BodyMode.of backend.headers frontend = .ok .chunked) :
    backend.relay frontend method now = .ok
      { backend with
        headers := Reconcile.headers backend.headers now
        streamed := !backend.body.isAtEnd } :=
  relay_streamed h nofun

/-- An answer of unknown length is read to its end first. -/
theorem relay_collected (h : BodyMode.of backend.headers frontend = .ok .buffered)
    (hbody : backend.status.isBodiless method = false) :
    backend.relay frontend method now =
      match backend.body.failure with
      | some reason => .error (.backendBody reason)
      | none => .ok
        { backend with
          headers := (Reconcile.headers backend.headers now).insert .contentLength
            (.ofNat backend.body.content.length)
          body := .ofBytes backend.body.content
          streamed := false } := by
  unfold relay Body.collected
  rw [h]
  dsimp only [bind, Except.bind]
  rw [if_neg (Bool.eq_false_iff.mp hbody)]
  cases backend.body.failure <;> rfl

/-- The fields of a relayed answer, with the length put in or as they came. -/
theorem relay_headers (h : backend.relay frontend method now = .ok response) :
    ∃ length : Option HeaderValue, response.headers =
      (Reconcile.headers backend.headers now).insertSome .contentLength length := by
  unfold relay at h
  cases hmode : BodyMode.of backend.headers frontend with
  | error e =>
    rw [hmode] at h
    cases h
  | ok mode =>
    rw [hmode] at h
    cases mode with
    | chunked =>
      cases h
      exact ⟨none, rfl⟩
    | contentLength n =>
      cases h
      exact ⟨none, rfl⟩
    | buffered =>
      dsimp only [bind, Except.bind] at h
      split at h
      · cases h
        exact ⟨none, rfl⟩
      · split at h
        · cases h
        · cases h
          exact ⟨some _, rfl⟩

/-- **What a relayed answer keeps** under a name that says nothing of date or length. -/
theorem relay_values (h : backend.relay frontend method now = .ok response) {name : HeaderName}
    (hdate : name ≠ .date) (hwarning : name ≠ .warning) (hlength : name ≠ .contentLength) :
    response.headers.values name = if name.isHopByHop then [] else backend.headers.values name := by
  obtain ⟨length, hheaders⟩ := relay_headers h
  rw [hheaders, Headers.values_insertSome, if_neg fun hc => hlength hc.1.symm]
  exact Reconcile.headers_values backend.headers now hdate hwarning

end Response

/-! ## Lengths -/

/-- **The length that a relayed message tells.**  A message in chunks goes on without its encoding
    but with every length that stood beside it: a request with those of the browser, unless a
    working header takes their place, and an answer with those of the backend.  So it tells no
    length exactly if none stood beside its encoding.  An answer of unknown length that may have a
    body goes on with exactly one length, and that is the number of bytes that follow; only if the
    body fails while it is read does nothing go on. -/
theorem chunked_length_survives (r : Request) (injection : Injection) (settings : ProxySettings)
    (localPort : Nat) (backend : Response) (frontend : Version) (method : Method)
    (now : Timestamp) :
    (r.check = .ok () → r.headers.has .transferEncoding = true →
      let out := Outbound.headers r.headers injection settings localPort
      (∃ value, r.headers.first? .transferEncoding = some value ∧ value.isChunked = true) ∧
      out.values .transferEncoding =
        (injection.workingHeaders.last? .transferEncoding).toList ∧
      out.values .contentLength =
        (injection.workingHeaders.last? .contentLength).elim
          (r.headers.values .contentLength) ([·])) ∧
    (BodyMode.of backend.headers frontend = .ok .chunked →
      ∃ response, backend.relay frontend method now = .ok response ∧
        response.body = backend.body ∧
        response.headers.values .transferEncoding = [] ∧
        response.headers.values .contentLength = backend.headers.values .contentLength) ∧
    (BodyMode.of backend.headers frontend = .ok .buffered →
      backend.status.isBodiless method = false →
      (∀ reason, backend.body.failure = some reason →
        backend.relay frontend method now = .error (.backendBody reason)) ∧
      (backend.body.failure = none →
        ∃ response, backend.relay frontend method now = .ok response ∧
          response.body.failure = none ∧ response.body.content = backend.body.content ∧
          response.headers.values .contentLength = [.ofNat response.body.content.length])) := by
  refine ⟨fun hcheck hcoded => ?_, fun hmode => ?_, fun hmode hbody => ?_⟩
  · refine ⟨?_, Outbound.headers_transferEncoding, Outbound.headers_contentLength⟩
    cases hfirst : r.headers.first? .transferEncoding with
    | none => exact absurd (Headers.first?_eq_none.mp hfirst) (Headers.has_eq_true.mp hcoded)
    | some value => exact ⟨value, rfl, (Request.check_eq_ok.mp hcheck).2 value hfirst⟩
  · refine ⟨_, Response.relay_chunked hmode, rfl, ?_, ?_⟩
    · exact Reconcile.headers_values _ now (by decide) (by decide)
    · exact Reconcile.headers_values _ now (by decide) (by decide)
  · refine ⟨fun reason hfailure => ?_, fun hfailure => ?_⟩
    · rw [Response.relay_collected hmode hbody, hfailure]
    · have hrelay := @Response.relay_collected _ _ _ now hmode hbody
      rw [hfailure] at hrelay
      refine ⟨_, hrelay, ?_, Body.content_ofBytes _, ?_⟩
      · rfl
      · dsimp only
        rw [Headers.values_insert, if_pos rfl, Body.content_ofBytes]

/-- An answer in two pieces to a browser that cannot be told their number: it goes on with the
    length of both. -/
theorem chunked_length_survives_gathered :
    let pieces : Body := ⟨[.data (Bytes.ofText "he"), .data (Bytes.ofText "llo")], none⟩
    let backend : Response := ⟨.ok, none, .empty, pieces, false⟩
    BodyMode.of backend.headers .http10 = .ok .buffered ∧
    backend.status.isBodiless .get = false ∧ backend.body.failure = none ∧
    ∃ response, backend.relay .http10 .get 0 = .ok response ∧
      response.headers.values .contentLength = [.ofNat 5] := by
  intro pieces backend
  have hmode : BodyMode.of backend.headers .http10 = .ok .buffered := by decide +kernel
  have hbody : backend.status.isBodiless .get = false := by decide
  obtain ⟨-, -, hgathered⟩ :=
    chunked_length_survives ⟨.get, ⟨none, "", "/"⟩, .http10, .empty, .empty⟩ .none {} 8080 backend
      .http10 .get 0
  obtain ⟨response, hrelay, -, hcontent, hlength⟩ := (hgathered hmode hbody).2 rfl
  refine ⟨hmode, hbody, rfl, response, hrelay, ?_⟩
  rw [hlength, hcontent]
  rfl

/-- The fields of a message in chunks that tells a length all the same. -/
def framedTwice : Headers :=
  ⟨[(.transferEncoding, ⟨Bytes.ofText "chunked"⟩), (.contentLength, .ofNat 5)]⟩

/-- A message in chunks that also tells a length keeps it, as a request and as an answer. -/
theorem relayed_length_contradicted :
    (¬∀ (r : Request) (settings : ProxySettings) (localPort : Nat),
      r.check = .ok () → r.headers.has .transferEncoding = true →
      (Outbound.headers r.headers .none settings localPort).values .contentLength = []) ∧
    ¬∀ (backend response : Response) (frontend : Version) (method : Method) (now : Timestamp),
      BodyMode.of backend.headers frontend = .ok .chunked →
      backend.relay frontend method now = .ok response →
      response.headers.values .contentLength = [] := by
  have hfirst : framedTwice.first? .transferEncoding = some ⟨Bytes.ofText "chunked"⟩ := rfl
  have hchunked : HeaderValue.isChunked ⟨Bytes.ofText "chunked"⟩ = true := by decide +kernel
  constructor
  · intro h
    have hcheck : Request.check ⟨.post, ⟨none, "", "/"⟩, .http11, framedTwice,
        .ofBytes (Bytes.ofText "hi")⟩ = .ok () := by
      refine Request.check_eq_ok.mpr ⟨.inr (.inl rfl), fun value hvalue => ?_⟩
      rw [← Option.some.inj (hfirst.symm.trans hvalue)]
      exact hchunked
    have hnone := h _ {} 8080 hcheck rfl
    revert hnone
    decide +kernel
  · intro h
    have hmode : BodyMode.of framedTwice .http11 = .ok .chunked :=
      BodyMode.of_eq_chunked.mpr ⟨⟨_, hfirst, hchunked⟩, rfl⟩
    have hnone := h ⟨.ok, none, framedTwice, .ofBytes (Bytes.ofText "hi"), false⟩ _ .http11 .get 0
      hmode (Response.relay_chunked hmode)
    revert hnone
    decide +kernel

end AccessGateway
