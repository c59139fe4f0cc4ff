import AccessGateway.Federation.Verifier
import AccessGateway.Proofs.Document.Binary64
import Mathlib.Algebra.Order.Round
import Mathlib.Data.Rat.Floor
import Mathlib.Tactic.Linarith
import Mathlib.Tactic.Positivity

/-!
# Verdicts on tokens

A token is accepted for what its payload says.  It first has to be vouched for: it can be taken
apart, the key that it names is found, and its signature holds under that key.  What is then asked
of the payload are a time and an audience, each only if it is told there.

## Results

* `TokenClaims.fulfil_iff` — what rules ask of claims.
* `Token.holds_iff` — what rules ask of a token, by its signature and its payload.
* `KeyCache.verify_eq` — what a verification does.
* `KeyCache.exists_vouches`, `KeyCache.Vouches.accepted_iff` — which tokens are accepted.
-/

set_option autoImplicit false

namespace AccessGateway

/-! ## What a payload tells -/

namespace Json

/-- The number that a claim is. -/
def claimNumber? (payload : Json) (name : String) : Option ℚ :=
  match TokenClaims.claim? payload name with
  | some (some (.number digits)) => Binary64.ofLiteral? digits
  | _ => none

/-- The names that a claim is, one or a list. -/
def claimNames? (payload : Json) (name : String) : Option (List String) :=
  (TokenClaims.claim? payload name).bind TokenClaims.names?

/-- A whole number is told as it is written. -/
theorem claimNumber?_decimal {payload : Json} {name : String} {n : Nat}
    (h : TokenClaims.claim? payload name = some (some (.number (Text.decimal n))))
    (hn : n < 2 ^ 64) : payload.claimNumber? name = some (n : ℚ) := by
  unfold claimNumber?
  rw [h]
  exact Binary64.ofLiteral?_decimal hn

/-- A payload does not tell that its time has ended. -/
def EndsInTime (payload : Json) (now leeway : Nat) : Prop :=
  ∀ x, payload.claimNumber? "exp" = some x → 0 ≤ x → x < 2 ^ 64 → (now : ℤ) ≤ round x + leeway

/-- A payload does not tell that its time is yet to come. -/
def StartsInTime (payload : Json) (now leeway : Nat) : Prop :=
  ∀ x, payload.claimNumber? "nbf" = some x → 0 ≤ x → x < 2 ^ 64 → round x ≤ (now : ℤ) + leeway

/-- A payload does not tell that it is meant for others only. -/
def IsMeantFor (payload : Json) (audience : Option String) : Prop :=
  ∀ wanted given, audience = some wanted → payload.claimNames? "aud" = some given → wanted ∈ given

end Json

namespace TokenClaims

variable {c : TokenClaims} {payload : Json} {rules : TokenRules} {now : Nat}

/-- A number tells a second if it is neither negative nor too large. -/
theorem seconds?_eq_some {x : ℚ} {n : Nat} :
    seconds? x = some n ↔ 0 ≤ x ∧ x < 2 ^ 64 ∧ (n : ℤ) = round x := by
  have hsize : ((UInt64.size : Nat) : ℚ) = 2 ^ 64 := by norm_num [UInt64.size]
  unfold seconds?
  rw [hsize]
  split
  case isTrue hrange =>
    have hnonneg : 0 ≤ (x + 1 / 2).floor := Rat.le_floor_iff.mpr (by push_cast; linarith [hrange.1])
    have hround : ((x + 1 / 2).floor.toNat : ℤ) = round x := by
      rw [Int.toNat_of_nonneg hnonneg, round_eq]
      rfl
    rw [← hround, Option.some_inj, Nat.cast_inj]
    simp [hrange, eq_comm]
  case isFalse hrange =>
    constructor
    · exact nofun
    · rintro ⟨hnonneg, hbelow, -⟩
      exact absurd ⟨hnonneg, hbelow⟩ hrange

/-- Whatever holds of a second that a number tells holds of the number, rounded. -/
theorem forall_seconds_iff (told : Option ℚ) (P : ℤ → Prop) :
    (∀ t : Nat, told.bind seconds? = some t → P t) ↔
      ∀ x, told = some x → 0 ≤ x → x < 2 ^ 64 → P (round x) := by
  constructor
  · intro hall x hx hnonneg hbelow
    have hround : 0 ≤ round x := by
      rw [round_eq]
      positivity
    obtain ⟨t, ht⟩ := Int.eq_ofNat_of_zero_le hround
    rw [ht]
    apply hall t
    rw [hx, Option.bind_some]
    exact seconds?_eq_some.mpr ⟨hnonneg, hbelow, ht.symm⟩
  · intro hall t ht
    obtain ⟨x, hx, hseconds⟩ := Option.bind_eq_some_iff.mp ht
    obtain ⟨hnonneg, hbelow, hround⟩ := seconds?_eq_some.mp hseconds
    rw [hround]
    exact hall x hx hnonneg hbelow

theorem date?_claim (payload : Json) (name : String) :
    (claim? payload name).bind date? = (payload.claimNumber? name).bind seconds? := by
  unfold Json.claimNumber?
  cases claim? payload name with
  | none => rfl
  | some claim =>
    cases claim with
    | none => rfl
    | some item => cases item <;> rfl

/-- The claims that count, by what the payload tells. -/
theorem ofPayload?_eq_some (h : ofPayload? payload = some c) :
    c.ends = (payload.claimNumber? "exp").bind seconds? ∧
      c.starts = (payload.claimNumber? "nbf").bind seconds? ∧
      c.audiences = payload.claimNames? "aud" := by
  unfold ofPayload? at h
  simp only [Option.bind_eq_bind, Option.bind_eq_some_iff] at h
  obtain ⟨ends, hends, starts, hstarts, subject, -, issuer, -, audience, haudience,
    hread⟩ := h
  split at hread
  · cases hread
  · cases hread
    rw [← date?_claim, ← date?_claim, hends, hstarts]
    unfold Json.claimNames?
    rw [haudience]
    exact ⟨rfl, rfl, rfl⟩

/-- **What rules ask of claims**, each part for itself. -/
theorem fulfil_iff : c.fulfil rules now = true ↔
    (∀ name ∈ rules.requiredClaims, c.has name = true) ∧
    (rules.checksEnd = true → ∀ t, c.ends = some t → now ≤ t + rules.leeway) ∧
    (rules.checksStart = true → ∀ t, c.starts = some t → t ≤ now + rules.leeway) ∧
    (∀ wanted given, rules.audience = some wanted → c.audiences = some given →
      wanted ∈ given) := by
  have hend : (!rules.checksEnd || c.ends.all fun t => now - rules.leeway ≤ t) = true ↔
      (rules.checksEnd = true → ∀ t, c.ends = some t → now ≤ t + rules.leeway) := by
    cases rules.checksEnd <;> simp [Option.all_eq_true]
  have hstart : (!rules.checksStart || c.starts.all fun t => t ≤ now + rules.leeway) = true ↔
      (rules.checksStart = true → ∀ t, c.starts = some t → t ≤ now + rules.leeway) := by
    cases rules.checksStart <;> simp [Option.all_eq_true]
  unfold fulfil
  rw [Bool.and_eq_true, Bool.and_eq_true, Bool.and_eq_true, List.all_eq_true, hend, hstart,
    and_assoc, and_assoc]
  cases rules.audience with
  | none => simp
  | some wanted =>
    cases c.audiences with
    | none => simp
    | some given => simp

/-- What rules that check the end ask of a payload. -/
theorem fulfil_payload_iff (h : ofPayload? payload = some c) (hend : rules.checksEnd = true) :
    c.fulfil rules now = true ↔
      (∀ name ∈ rules.requiredClaims, c.has name = true) ∧
      payload.EndsInTime now rules.leeway ∧
      (rules.checksStart = true → payload.StartsInTime now rules.leeway) ∧
      payload.IsMeantFor rules.audience := by
  obtain ⟨hends, hstarts, haudiences⟩ := ofPayload?_eq_some h
  have hin : (∀ t, c.ends = some t → now ≤ t + rules.leeway) ↔
      payload.EndsInTime now rules.leeway := by
    have htold := forall_seconds_iff (payload.claimNumber? "exp")
      fun t => (now : ℤ) ≤ t + rules.leeway
    rw [← hends] at htold
    exact_mod_cast htold
  have hbegun : (∀ t, c.starts = some t → t ≤ now + rules.leeway) ↔
      payload.StartsInTime now rules.leeway := by
    have htold := forall_seconds_iff (payload.claimNumber? "nbf")
      fun t => t ≤ (now : ℤ) + rules.leeway
    rw [← hstarts] at htold
    exact_mod_cast htold
  rw [fulfil_iff, hin, hbegun, haudiences, hend]
  simp [Json.IsMeantFor]

end TokenClaims

/-! ## Signatures -/

/-- A signature of the algorithm `RS256` holds under a key. -/
def Token.IsSignedUnder (t : Token) (key : Rsa.PublicKey) : Prop :=
  t.header.algorithm = "RS256" ∧ ∃ signature,
    Base64.decode? Base64.urlSafe t.signature = some signature ∧
      key.verifies t.signed signature = true

theorem Token.isSignedBy_iff {t : Token} {key : VerificationKey} {rules : TokenRules}
    (h : rules.algorithms = ["RS256"]) :
    t.isSignedBy key rules = true ↔ ∃ rsa, key = .rsa rsa ∧ t.IsSignedUnder rsa := by
  unfold isSignedBy IsSignedUnder
  rw [h]
  cases key with
  | otherFamily => simp
  | rsa key =>
    cases Base64.decode? Base64.urlSafe t.signature with
    | none => simp
    | some signature => simp

/-- **What rules ask of a token**: a signature, and of its claims what they ask of claims. -/
theorem Token.holds_iff {t : Token} {key : VerificationKey} {rules : TokenRules} {now : Nat}
    (h : rules.algorithms = ["RS256"]) :
    t.holds key rules now = true ↔ ∃ rsa payload claims, key = .rsa rsa ∧ t.IsSignedUnder rsa ∧
      t.payload? = some payload ∧ TokenClaims.ofPayload? payload = some claims ∧
      claims.fulfil rules now = true := by
  unfold holds
  rw [Bool.and_eq_true, isSignedBy_iff h, Option.any_eq_true]
  simp only [Option.bind_eq_some_iff]
  constructor
  · rintro ⟨⟨rsa, hkey, hsigned⟩, claims, ⟨payload, hpayload, hclaims⟩, hfulfil⟩
    exact ⟨rsa, payload, claims, hkey, hsigned, hpayload, hclaims, hfulfil⟩
  · rintro ⟨rsa, payload, claims, hkey, hsigned, hpayload, hclaims, hfulfil⟩
    exact ⟨⟨rsa, hkey, hsigned⟩, claims, ⟨payload, hpayload, hclaims⟩, hfulfil⟩

/-! ## What a token is accepted for -/

/-- The token, taken apart, and the id of the key that it names. -/
def TokenCheck.named? (check : TokenCheck) : Option (Token × String) :=
  (Token.parse? check.token).bind fun t => t.header.keyId.map fun id => (t, id)

theorem TokenCheck.named?_eq_some {check : TokenCheck} {t : Token} {id : String} :
    check.named? = some (t, id) ↔
      Token.parse? check.token = some t ∧ t.header.keyId = some id := by
  unfold named?
  rw [Option.bind_eq_some_iff]
  constructor
  · rintro ⟨t', hparsed, hid⟩
    obtain ⟨id', hid', hsame⟩ := Option.map_eq_some_iff.mp hid
    cases hsame
    exact ⟨hparsed, hid'⟩
  · rintro ⟨hparsed, hid⟩
    refine ⟨t, hparsed, ?_⟩
    rw [hid]
    rfl

namespace KeyCache

variable {c : KeyCache} {fetch : String → Option KeyAnswer} {now : Nat} {check : TokenCheck}
  {t : Token} {key : Rsa.PublicKey} {payload : Json}

/-- **A verification in one equation**: nothing is done for a token that names no key; for another
    one its key is found, and the verdict is that of the rules under this key. -/
theorem verify_eq (c : KeyCache) (fetch : String → Option KeyAnswer) (now : Nat)
    (check : TokenCheck) : c.verify fetch now check =
      match check.named? with
      | none => ⟨c, false, []⟩
      | some (t, id) =>
        let found := c.keyFor fetch check.certificateUrl id
        ⟨found.1, found.2.1.any fun key => t.holds key (.forAudience check.audience) now,
          found.2.2⟩ := by
  unfold verify TokenCheck.named?
  cases Token.parse? check.token with
  | none => rfl
  | some t =>
    rw [Option.bind_some]
    dsimp only
    cases t.header.keyId with
    | none => rfl
    | some id =>
      rw [Option.map_some]
      dsimp only
      obtain ⟨c', found, fetched⟩ := c.keyFor fetch check.certificateUrl id
      cases found with
      | none => rfl
      | some key => rfl

/-- A token is vouched for: it can be taken apart, the key that it names is found for its address,
    its signature holds under that key, and its claims can be read. -/
structure Vouches (c : KeyCache) (fetch : String → Option KeyAnswer) (check : TokenCheck)
    (t : Token) (key : Rsa.PublicKey) (payload : Json) : Prop where
  found : ∃ id, check.named? = some (t, id) ∧
    (c.keyFor fetch check.certificateUrl id).2.1 = some (.rsa key)
  signed : t.IsSignedUnder key
  read : t.payload? = some payload
  legible : (TokenClaims.ofPayload? payload).isSome = true

/-- A token is accepted if the key that it names is found and the rules hold under that key. -/
theorem verify_accepted_iff : (c.verify fetch now check).accepted = true ↔
    ∃ t id key, check.named? = some (t, id) ∧
      (c.keyFor fetch check.certificateUrl id).2.1 = some key ∧
      t.holds key (.forAudience check.audience) now = true := by
  rw [verify_eq]
  cases check.named? with
  | none => simp
  | some named =>
    obtain ⟨t, id⟩ := named
    dsimp only
    rw [Option.any_eq_true]
    constructor
    · rintro ⟨key, hfound, hholds⟩
      exact ⟨t, id, key, rfl, hfound, hholds⟩
    · rintro ⟨t', id', key, hnamed, hfound, hholds⟩
      cases hnamed
      exact ⟨key, hfound, hholds⟩

/-- Rules hold of a token that is vouched for if its claims fulfil them. -/
theorem Vouches.holds_iff {claims : TokenClaims} {rules : TokenRules}
    (h : c.Vouches fetch check t key payload)
    (hclaims : TokenClaims.ofPayload? payload = some claims)
    (hrules : rules.algorithms = ["RS256"]) :
    t.holds (.rsa key) rules now = true ↔ claims.fulfil rules now = true := by
  rw [Token.holds_iff hrules]
  constructor
  · rintro ⟨rsa, payload', claims', -, -, hread, hclaims', hfulfil⟩
    rw [h.read] at hread
    cases hread
    rw [hclaims] at hclaims'
    cases hclaims'
    exact hfulfil
  · intro hfulfil
    exact ⟨key, payload, claims, rfl, h.signed, h.read, hclaims, hfulfil⟩

/-- A token that is vouched for has one key, and its verdict is that of the rules under this key. -/
theorem Vouches.accepted_iff_holds (h : c.Vouches fetch check t key payload) :
    (c.verify fetch now check).accepted = true ↔
      t.holds (.rsa key) (.forAudience check.audience) now = true := by
  obtain ⟨id, hnamed, hfound⟩ := h.found
  rw [verify_accepted_iff]
  constructor
  · rintro ⟨t', id', key', hnamed', hfound', hholds⟩
    rw [hnamed] at hnamed'
    cases hnamed'
    rw [hfound] at hfound'
    cases hfound'
    exact hholds
  · intro hholds
    exact ⟨t, id, .rsa key, hnamed, hfound, hholds⟩

/-- **Every token that is accepted is vouched for.** -/
theorem exists_vouches (h : (c.verify fetch now check).accepted = true) :
    ∃ t key payload, c.Vouches fetch check t key payload := by
  obtain ⟨t, id, key, hnamed, hfound, hholds⟩ := verify_accepted_iff.mp h
  obtain ⟨rsa, payload, claims, rfl, hsigned, hread, hclaims, -⟩ :=
    (Token.holds_iff rfl).mp hholds
  have hlegible : (TokenClaims.ofPayload? payload).isSome = true := by
    rw [hclaims]
    rfl
  exact ⟨t, rsa, payload, ⟨id, hnamed, hfound⟩, hsigned, hread, hlegible⟩

/-- **A token that is vouched for is accepted** if its time has not ended and it is not meant for
    others only. -/
theorem Vouches.accepted_iff (h : c.Vouches fetch check t key payload) :
    (c.verify fetch now check).accepted = true ↔ payload.EndsInTime now 60 ∧
      payload.IsMeantFor (TokenRules.forAudience check.audience).audience := by
  obtain ⟨claims, hclaims⟩ := Option.isSome_iff_exists.mp h.legible
  rw [h.accepted_iff_holds, h.holds_iff hclaims rfl, TokenClaims.fulfil_payload_iff hclaims rfl]
  simp [TokenRules.forAudience]

end KeyCache
end AccessGateway
