import AccessGateway.Proofs.Federation.Verdict

/-!
# What accepted tokens tell

The rules for a token say that its end counts and whom it must be meant for.  They ask neither for
its start nor for any claim to be there.  So a token that tells its end is refused once that is
over, but one that has not started yet is accepted; and a token that tells whom it is meant for is
refused by others, but one that does not tell it is accepted by everybody.

## Results

* `KeyCache.accepted_tokens_not_ended` — the time of accepted tokens.
* `KeyCache.accepted_tokens_not_for_others` — the audience of accepted tokens.
* `KeyCache.early_token_accepted`, `KeyCache.unaddressed_token_accepted` — what is not refused.
-/

set_option autoImplicit false

namespace AccessGateway

/-! ## A signed token

The token starts in a far future and does not tell whom it is meant for.  The modulus of its key is
chosen after the signature, so that no factors of it have to be known. -/

namespace SampleToken

def claims : Bytes := Bytes.ofText "\x7b\"nbf\":9999999999\x7d"

/-- A header that names a key, and the claims. -/
def message : List Char :=
  Base64.encode Base64.urlSafe (Bytes.ofText "\x7b\"alg\":\"RS256\",\"kid\":\"k\"\x7d") ++
    '.' :: Base64.encode Base64.urlSafe claims

/-- The padded digest of the message. -/
def target : Nat := Sha256.ofBigEndian (Rsa.encoded 256 (Utf8.encode message))

/-- A number with a cube of 2048 bits, odd if the padded digest is even. -/
def signature : Nat := 3 * 2 ^ 681 + (target + 1) % 2

/-- A key with the exponent three.  Under its modulus, which is odd, the cube of the signature
    leaves the padded digest. -/
def key : Rsa.PublicKey := ⟨Sha256.bigEndian 256 (signature ^ 3 - target), [3]⟩

/-- The token, taken apart. -/
def parts : Token :=
  { header := ⟨"RS256", some "k"⟩
    claims := Base64.encode Base64.urlSafe claims
    signed := Utf8.encode message
    signature := Base64.encode Base64.urlSafe (Sha256.bigEndian 256 signature) }

/-- The published set with the key. -/
def keys : KeyAnswer :=
  { status := .ok
    body := Bytes.ofText "\x7b\"keys\":[\x7b\"kty\":\"RSA\",\"kid\":\"k\",\"e\":\"Aw\",\"n\":\"" ++
      Utf8.encode (Base64.encode Base64.urlSafe key.modulus) ++ Bytes.ofText "\"\x7d]\x7d" }

/-- The token, to be verified for `portal`. -/
def check : TokenCheck :=
  { token := String.ofList (message ++ '.' :: parts.signature)
    certificateUrl := "/certs"
    audience := some " portal " }

theorem vouched : ∃ payload, KeyCache.empty.Vouches (fun _ => some keys) check parts key payload ∧
    payload.claimNumber? "exp" = none ∧ payload.claimNumber? "nbf" = some 9999999999 ∧
    payload.claimNames? "aud" = none := by
  have hparsed : Token.parse? check.token = some parts := by
    unfold Token.parse? check
    rw [String.toList_ofList]
    decide +kernel
  have htold : parts.payload?.any (fun payload =>
      (TokenClaims.ofPayload? payload).isSome ∧ payload.claimNumber? "exp" = none ∧
        payload.claimNumber? "nbf" = some 9999999999 ∧
        payload.claimNames? "aud" = none) = true := by decide +kernel
  obtain ⟨payload, hread, htold⟩ := (Option.any_eq_true _ _).mp htold
  obtain ⟨hlegible, htold⟩ := of_decide_eq_true htold
  have hnamed : check.named? = some (parts, "k") :=
    TokenCheck.named?_eq_some.mpr ⟨hparsed, rfl⟩
  refine ⟨payload, ⟨⟨"k", hnamed, ?_⟩, ⟨rfl, Sha256.bigEndian 256 signature, ?_, ?_⟩, hread,
    hlegible⟩, htold⟩
  · decide +kernel
  · decide +kernel
  · decide +kernel

theorem accepted (now : Nat) :
    (KeyCache.empty.verify (fun _ => some keys) now check).accepted = true := by
  obtain ⟨payload, h, hend, -, haudience⟩ := vouched
  refine h.accepted_iff.mpr ⟨?_, ?_⟩
  · intro d hd
    rw [hend] at hd
    cases hd
  · intro wanted given _ hgiven
    rw [haudience] at hgiven
    cases hgiven

end SampleToken

namespace KeyCache

/-! ## The time of a token -/

/-- **Accepted tokens have not ended.**  A token that is vouched for is accepted if it is not meant
    for others only and the second at which it ends, if it tells one, is not over by more than the
    leeway; a second that is written as a whole number is told as it is written.  When it starts
    does not matter; rules that check the start as well would hold of those accepted tokens that
    have started. -/
theorem accepted_tokens_not_ended (c : KeyCache) (fetch : String → Option KeyAnswer) (now : Nat)
    (check : TokenCheck) :
    let accepted := (c.verify fetch now check).accepted
    let rules := TokenRules.forAudience check.audience
    (accepted = true → ∃ t key payload, c.Vouches fetch check t key payload) ∧
    ∀ t key payload, c.Vouches fetch check t key payload →
      (accepted = true ↔ payload.IsMeantFor rules.audience ∧
        ∀ x, payload.claimNumber? "exp" = some x → 0 ≤ x → x < 2 ^ 64 →
          (now : ℤ) ≤ round x + 60) ∧
      (∀ n < 2 ^ 64, TokenClaims.claim? payload "exp" = some (some (.number (Text.decimal n))) →
        accepted = true → now ≤ n + 60) ∧
      (t.holds (.rsa key) { rules with checksStart := true } now = true ↔ accepted = true ∧
        ∀ x, payload.claimNumber? "nbf" = some x → 0 ≤ x → x < 2 ^ 64 →
          round x ≤ (now : ℤ) + 60) := by
  intro accepted rules
  refine ⟨exists_vouches, fun t key payload h => ⟨?_, ?_, ?_⟩⟩
  · rw [h.accepted_iff, and_comm]
    rfl
  · intro n hn hwritten haccepted
    have hnumber := Json.claimNumber?_decimal hwritten hn
    have hend := (h.accepted_iff.mp haccepted).1 n hnumber (by positivity) (by exact_mod_cast hn)
    rw [round_natCast] at hend
    exact_mod_cast hend
  · obtain ⟨claims, hclaims⟩ := Option.isSome_iff_exists.mp h.legible
    rw [h.holds_iff hclaims rfl, TokenClaims.fulfil_payload_iff hclaims rfl, h.accepted_iff]
    constructor
    · rintro ⟨-, hend, hstart, haudience⟩
      exact ⟨⟨hend, haudience⟩, hstart rfl⟩
    · rintro ⟨⟨hend, haudience⟩, hstart⟩
      exact ⟨fun name hname => absurd hname List.not_mem_nil, hend, fun _ => hstart, haudience⟩

/-- A token is accepted long before it starts. -/
theorem early_token_accepted :
    (empty.verify (fun _ => some SampleToken.keys) 1800000000 SampleToken.check).accepted = true ∧
    ∃ t key payload x,
      empty.Vouches (fun _ => some SampleToken.keys) SampleToken.check t key payload ∧
      payload.claimNumber? "nbf" = some x ∧ (1800000000 : ℚ) + 60 < x := by
  obtain ⟨payload, h, -, hstart, -⟩ := SampleToken.vouched
  refine ⟨SampleToken.accepted 1800000000, _, _, payload, _, h, hstart, ?_⟩
  norm_num

/-! ## The audience of a token -/

/-- **Accepted tokens are not meant for others only.**  A token that is vouched for is accepted for
    an audience if it has not ended and is meant for that audience, if it tells whom it is meant
    for.  Rules that require it to tell would hold of those accepted tokens that do. -/
theorem accepted_tokens_not_for_others (c : KeyCache) (fetch : String → Option KeyAnswer)
    (now : Nat) (check : TokenCheck) (audience : String)
    (haudience : check.audience = some audience) (hgiven : Text.trimmed audience ≠ "") :
    let accepted := (c.verify fetch now check).accepted
    let rules := TokenRules.forAudience check.audience
    (accepted = true → ∃ t key payload, c.Vouches fetch check t key payload) ∧
    ∀ t key payload, c.Vouches fetch check t key payload →
      (accepted = true ↔ payload.EndsInTime now 60 ∧
        ∀ given, payload.claimNames? "aud" = some given → Text.trimmed audience ∈ given) ∧
      (t.holds (.rsa key) { rules with requiredClaims := ["aud"] } now = true ↔
        accepted = true ∧
          ∃ given, payload.claimNames? "aud" = some given ∧ Text.trimmed audience ∈ given) := by
  intro accepted rules
  have hwanted : rules.audience = some (Text.trimmed audience) := by
    show (check.audience.map Text.trimmed).filter (· ≠ "") = _
    rw [haudience, Option.map_some, Option.filter_some, if_pos (decide_eq_true hgiven)]
  have hmeant : ∀ payload : Json, payload.IsMeantFor rules.audience ↔
      ∀ given, payload.claimNames? "aud" = some given → Text.trimmed audience ∈ given := by
    intro payload
    constructor
    · exact fun hall given => hall _ given hwanted
    · intro hall wanted given hsame
      rw [hwanted] at hsame
      cases hsame
      exact hall given
  refine ⟨exists_vouches, fun t key payload h => ⟨?_, ?_⟩⟩
  · rw [h.accepted_iff, hmeant]
  · obtain ⟨claims, hclaims⟩ := Option.isSome_iff_exists.mp h.legible
    have haudiences : claims.audiences = payload.claimNames? "aud" :=
      (TokenClaims.ofPayload?_eq_some hclaims).2.2
    have htells : (∀ name ∈ ["aud"], claims.has name = true) ↔
        (payload.claimNames? "aud").isSome = true := by
      rw [← haudiences]
      simp [TokenClaims.has]
    rw [h.holds_iff hclaims rfl, TokenClaims.fulfil_payload_iff hclaims rfl, htells,
      h.accepted_iff, hmeant]
    constructor
    · rintro ⟨htold, hend, -, hall⟩
      obtain ⟨given, hnames⟩ := Option.isSome_iff_exists.mp htold
      exact ⟨⟨hend, hall⟩, given, hnames, hall given hnames⟩
    · rintro ⟨⟨hend, hall⟩, given, hnames, -⟩
      exact ⟨Option.isSome_iff_exists.mpr ⟨given, hnames⟩, hend, nofun, hall⟩

/-- The token that does not tell whom it is meant for: it is accepted, and it would be refused if it
    had to tell. -/
theorem accepted_tokens_not_for_others_portal :
    SampleToken.check.audience = some " portal " ∧ Text.trimmed " portal " ≠ "" ∧
    (empty.verify (fun _ => some SampleToken.keys) 0 SampleToken.check).accepted = true ∧
    SampleToken.parts.holds (.rsa SampleToken.key)
      { TokenRules.forAudience SampleToken.check.audience with requiredClaims := ["aud"] } 0 =
        false := by
  have htrimmed : Text.trimmed " portal " ≠ "" := by decide
  obtain ⟨payload, h, -, -, haudience⟩ := SampleToken.vouched
  have hiff := (accepted_tokens_not_for_others empty (fun _ => some SampleToken.keys) 0
    SampleToken.check " portal " rfl htrimmed).2 _ _ payload h
  refine ⟨rfl, htrimmed, SampleToken.accepted 0, ?_⟩
  rw [Bool.eq_false_iff, ne_eq, hiff.2]
  rintro ⟨-, given, hgiven, -⟩
  rw [haudience] at hgiven
  cases hgiven

/-- A token that does not tell whom it is meant for is accepted. -/
theorem unaddressed_token_accepted :
    (empty.verify (fun _ => some SampleToken.keys) 1800000000 SampleToken.check).accepted = true ∧
    SampleToken.check.audience = some " portal " ∧
    ∃ t key payload,
      empty.Vouches (fun _ => some SampleToken.keys) SampleToken.check t key payload ∧
      payload.claimNames? "aud" = none := by
  obtain ⟨payload, h, -, -, haudience⟩ := SampleToken.vouched
  exact ⟨SampleToken.accepted 1800000000, rfl, _, _, payload, h, haudience⟩

end KeyCache
end AccessGateway
