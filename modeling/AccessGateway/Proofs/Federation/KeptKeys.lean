import AccessGateway.Proofs.Federation.Verdict

/-!
# Kept keys

Keys are fetched with all others of their address and kept, so that later tokens need no fetch.  If
each address always answers alike, keeping them changes no verdict: what is kept is at all times
exactly what the addresses that were asked publish, each address by itself.

## Results

* `KeyCache.find?_keepAll` — what is kept once the keys of an address were put in.
* `KeyCache.Mirrors.verify`, `KeyCache.Mirrors.afterAll` — the invariant, for one token and for a
  row of them.
* `KeyCache.Mirrors.accepted_eq`, `KeyCache.Mirrors.fetched_eq` — the verdict on a token and the
  fetches for it, by what the addresses publish.
* `KeyCache.kept_keys_unseen` — a token gets the verdict that it would get alone.
-/

set_option autoImplicit false

namespace AccessGateway

/-! ## Published keys -/

/-- Of the keys that a set has under an id, the last one that can be used. -/
def PublishedKey.lastUsable? (keys : List PublishedKey) (id : String) : Option VerificationKey :=
  (keys.filterMap fun k => if k.id = some id then k.key else none).getLast?

theorem PublishedKey.lastUsable?_cons (k : PublishedKey) (keys : List PublishedKey) (id : String) :
    lastUsable? (k :: keys) id =
      (lastUsable? keys id).or (if k.id = some id then k.key else none) := by
  unfold lastUsable?
  rw [List.filterMap_cons]
  cases (if k.id = some id then k.key else none) with
  | none => simp
  | some key => simp [List.getLast?_cons, Option.or_some]

theorem PublishedKey.lastUsable?_isSome {keys : List PublishedKey} {id : String} :
    (lastUsable? keys id).isSome = true ↔ ∃ k ∈ keys, k.id = some id ∧ k.key.isSome = true := by
  induction keys with
  | nil => simp [lastUsable?]
  | cons k keys ih =>
    rw [lastUsable?_cons, Option.isSome_or, Bool.or_eq_true, ih]
    by_cases hid : k.id = some id
    · simp [hid, or_comm]
    · simp [hid]

namespace KeyCache

variable {c : KeyCache} {fetch fetch' : String → Option KeyAnswer} {url : String} {id : String}
  {now : Nat} {check : TokenCheck}

/-- The set of keys that an address publishes, if it answers with one. -/
def published? (fetch : String → Option KeyAnswer) (url : String) : Option (List PublishedKey) :=
  (fetch url).bind keysOf?

/-- The key that an address publishes under an id. -/
def publishedKey? (fetch : String → Option KeyAnswer) (url id : String) : Option VerificationKey :=
  (published? fetch url).bind (PublishedKey.lastUsable? · id)

theorem publishedKey?_isSome : (publishedKey? fetch url id).isSome = true ↔
    ∃ keys, published? fetch url = some keys ∧
      ∃ k ∈ keys, k.id = some id ∧ k.key.isSome = true := by
  unfold publishedKey?
  cases published? fetch url with
  | none => simp
  | some keys => simp [PublishedKey.lastUsable?_isSome]

/-! ## What is kept -/

theorem find?_insert (c : KeyCache) (url id : String) (key : VerificationKey)
    (url' id' : String) : (c.insert url id key).find? url' id' =
      if url = url' ∧ id = id' then some key else c.find? url' id' := by
  unfold insert find?
  rw [List.find?_cons]
  by_cases h : url = url' ∧ id = id'
  · simp [h]
  · have hne : ((url, id) = (url', id')) = False := by simpa using h
    have hkept : (c.entries.filter (·.1 ≠ (url, id))).find? (·.1 = (url', id')) =
        c.entries.find? (·.1 = (url', id')) := by
      rw [List.find?_filter]
      congr 1
      funext e
      by_cases he : e.1 = (url', id')
      · simp [he, eq_comm, hne]
      · simp [he]
    simp only [hne, decide_false]
    rw [hkept, if_neg h]

theorem find?_keep (c : KeyCache) (url : String) (k : PublishedKey) (url' id' : String) :
    (keep url c k).find? url' id' =
      (if url = url' ∧ k.id = some id' then k.key else none).or (c.find? url' id') := by
  unfold keep
  cases hid : k.id with
  | none => simp
  | some id =>
    cases hkey : k.key with
    | none => simp
    | some key =>
      simp only [find?_insert, Option.some.injEq]
      split <;> rfl

/-- **What is kept once the keys of an address were put in**: of each id the last one that can be
    used, and everything else as before. -/
theorem find?_keepAll (c : KeyCache) (url : String) (keys : List PublishedKey)
    (url' id' : String) : (keys.foldl (keep url) c).find? url' id' =
      (if url = url' then PublishedKey.lastUsable? keys id' else none).or (c.find? url' id') := by
  induction keys generalizing c with
  | nil => simp [PublishedKey.lastUsable?]
  | cons k keys ih =>
    rw [List.foldl_cons, ih, find?_keep, PublishedKey.lastUsable?_cons]
    by_cases hurl : url = url'
    · simp [hurl, Option.or_assoc]
    · simp [hurl]

/-- What is kept is exactly what the given addresses publish. -/
def Mirrors (c : KeyCache) (fetch : String → Option KeyAnswer) (urls : List String) : Prop :=
  ∀ url id, c.find? url id = if url ∈ urls then publishedKey? fetch url id else none

theorem mirrors_empty (fetch : String → Option KeyAnswer) : empty.Mirrors fetch [] := by
  intro url id
  simp [empty, find?]

variable {urls : List String}

/-- A key that is wanted is found as it is published. -/
theorem Mirrors.key_eq (h : c.Mirrors fetch urls) (url id : String) :
    (c.keyFor fetch url id).2.1 = publishedKey? fetch url id := by
  have hkept := h url id
  unfold keyFor
  cases hfind : c.find? url id with
  | some key =>
    rw [hfind] at hkept
    split at hkept
    · exact hkept
    · cases hkept
  | none =>
    unfold publishedKey? published?
    cases hanswer : (fetch url).bind keysOf? with
    | none => rfl
    | some keys =>
      dsimp only
      rw [find?_keepAll, if_pos rfl, hfind, Option.or_none]
      rfl

/-- An address is asked unless it was asked before and publishes the key that is wanted. -/
theorem Mirrors.asked_eq (h : c.Mirrors fetch urls) (url id : String) :
    (c.keyFor fetch url id).2.2 =
      if url ∈ urls ∧ (publishedKey? fetch url id).isSome then [] else [url] := by
  have hkept := h url id
  have hsome : (c.find? url id).isSome = true ↔
      url ∈ urls ∧ (publishedKey? fetch url id).isSome = true := by
    rw [hkept]
    by_cases hurl : url ∈ urls
    · simp [hurl]
    · simp [hurl]
  unfold keyFor
  cases hfind : c.find? url id with
  | some key =>
    rw [hfind] at hsome
    rw [if_pos (hsome.mp rfl)]
  | none =>
    rw [hfind] at hsome
    rw [if_neg fun hboth => Bool.false_ne_true (hsome.mpr hboth)]
    cases (fetch url).bind keysOf? with
    | none => rfl
    | some keys => rfl

theorem Mirrors.keyFor (h : c.Mirrors fetch urls) (url id : String) :
    (c.keyFor fetch url id).1.Mirrors fetch (urls ++ (c.keyFor fetch url id).2.2) := by
  unfold KeyCache.keyFor
  cases hfind : c.find? url id with
  | some key =>
    dsimp only
    rw [List.append_nil]
    exact h
  | none =>
    cases hanswer : (fetch url).bind keysOf? with
    | none =>
      intro url' id'
      have hkept := h url' id'
      dsimp only
      rw [hkept]
      by_cases hsame : url' = url
      · have hnone : publishedKey? fetch url' id' = none := by
          subst hsame
          unfold publishedKey? published?
          rw [hanswer]
          rfl
        simp [hnone]
      · simp [hsame]
    | some keys =>
      intro url' id'
      dsimp only
      rw [find?_keepAll, h url' id']
      by_cases hsame : url = url'
      · have hpublished : publishedKey? fetch url' id' = PublishedKey.lastUsable? keys id' := by
          subst hsame
          unfold publishedKey? published?
          rw [hanswer]
          rfl
        rw [hpublished]
        by_cases hurl : url' ∈ urls
        · simp [hsame, hurl]
        · simp [hsame, hurl]
      · simp [hsame, Ne.symm hsame]

/-! ## Verifying one token -/

/-- The verdict on a token by what its address publishes. -/
def verdict (fetch : String → Option KeyAnswer) (now : Nat) (check : TokenCheck) : Bool :=
  check.named?.any fun (t, id) =>
    (publishedKey? fetch check.certificateUrl id).any fun key =>
      t.holds key (.forAudience check.audience) now

/-- The verdict says nothing of other addresses. -/
theorem verdict_congr (h : fetch check.certificateUrl = fetch' check.certificateUrl) :
    verdict fetch now check = verdict fetch' now check := by
  have hkeys : publishedKey? fetch check.certificateUrl =
      publishedKey? fetch' check.certificateUrl := by
    funext id
    unfold publishedKey? published?
    rw [h]
  unfold verdict
  rw [hkeys]

theorem Mirrors.accepted_eq (h : c.Mirrors fetch urls) (now : Nat) (check : TokenCheck) :
    (c.verify fetch now check).accepted = verdict fetch now check := by
  rw [verify_eq]
  unfold verdict
  cases check.named? with
  | none => rfl
  | some named =>
    obtain ⟨t, id⟩ := named
    dsimp only
    rw [h.key_eq, Option.any_some]

/-- **When an address is asked**: for every token that names a key, unless the address was asked
    before and publishes that key. -/
theorem Mirrors.fetched_eq (h : c.Mirrors fetch urls) (now : Nat) (check : TokenCheck) :
    (c.verify fetch now check).fetched =
      match check.named? with
      | none => []
      | some (_, id) =>
        if check.certificateUrl ∈ urls ∧ (publishedKey? fetch check.certificateUrl id).isSome
        then [] else [check.certificateUrl] := by
  rw [verify_eq]
  cases check.named? with
  | none => rfl
  | some named =>
    obtain ⟨t, id⟩ := named
    exact h.asked_eq _ _

theorem Mirrors.fetched_eq_or (h : c.Mirrors fetch urls) (now : Nat) (check : TokenCheck) :
    (c.verify fetch now check).fetched = [] ∨
      (c.verify fetch now check).fetched = [check.certificateUrl] := by
  rw [h.fetched_eq]
  split
  · exact Or.inl rfl
  · split
    · exact Or.inl rfl
    · exact Or.inr rfl

theorem Mirrors.fetched_iff (h : c.Mirrors fetch urls) (now : Nat) (check : TokenCheck) :
    (c.verify fetch now check).fetched = [check.certificateUrl] ↔
      ∃ t id, check.named? = some (t, id) ∧
        ¬(check.certificateUrl ∈ urls ∧
          (publishedKey? fetch check.certificateUrl id).isSome = true) := by
  rw [h.fetched_eq]
  cases check.named? with
  | none => simp
  | some named =>
    obtain ⟨t, id⟩ := named
    dsimp only
    split
    case isTrue hkept =>
      refine iff_of_false (by simp) ?_
      rintro ⟨t', id', hnamed, hmissing⟩
      cases hnamed
      exact hmissing hkept
    case isFalse hmissing =>
      exact iff_of_true rfl ⟨t, id, rfl, hmissing⟩

/-- **One token keeps the invariant.** -/
theorem Mirrors.verify (h : c.Mirrors fetch urls) (now : Nat) (check : TokenCheck) :
    (c.verify fetch now check).cache.Mirrors fetch
      (urls ++ (c.verify fetch now check).fetched) := by
  rw [verify_eq]
  cases check.named? with
  | none =>
    rw [List.append_nil]
    exact h
  | some named =>
    obtain ⟨t, id⟩ := named
    exact h.keyFor check.certificateUrl id

/-! ## Verifying a row of tokens -/

/-- The outcomes for tokens that are verified one after the other, each at its own second. -/
def verifyAll (c : KeyCache) (fetch : String → Option KeyAnswer) :
    List (Nat × TokenCheck) → List Verification
  | [] => []
  | (now, check) :: rest =>
    c.verify fetch now check :: (c.verify fetch now check).cache.verifyAll fetch rest

/-- What is kept after them. -/
def afterAll (c : KeyCache) (fetch : String → Option KeyAnswer) :
    List (Nat × TokenCheck) → KeyCache
  | [] => c
  | (now, check) :: rest => (c.verify fetch now check).cache.afterAll fetch rest

/-- **A row of tokens keeps the invariant.** -/
theorem Mirrors.afterAll (h : c.Mirrors fetch urls) (checks : List (Nat × TokenCheck)) :
    (c.afterAll fetch checks).Mirrors fetch
      (urls ++ (c.verifyAll fetch checks).flatMap (·.fetched)) := by
  induction checks generalizing c urls with
  | nil =>
    unfold KeyCache.afterAll verifyAll
    rw [List.flatMap_nil, List.append_nil]
    exact h
  | cons entry rest ih =>
    obtain ⟨now, check⟩ := entry
    unfold KeyCache.afterAll verifyAll
    rw [List.flatMap_cons, ← List.append_assoc]
    exact ih (h.verify now check)

/-- **Kept keys are not seen in verdicts.**  Let every address always answer alike, and let any
    tokens have been verified at any time.  A token then gets the verdict that it would get alone,
    which depends on what its own address answers and on nothing else.  At most one fetch is made,
    from that address, namely if the token can be taken apart and names a key that no earlier fetch
    brought in usable form.  Those tokens are accepted that have a signature under the last usable
    key that their address publishes under the name, have not ended and are not meant for others
    only. -/
theorem kept_keys_unseen (fetch : String → Option KeyAnswer) (earlier : List (Nat × TokenCheck))
    (now : Nat) (check : TokenCheck) :
    let url := check.certificateUrl
    let v := (empty.afterAll fetch earlier).verify fetch now check
    v.accepted = (empty.verify fetch now check).accepted ∧
    (∀ (fetch' : String → Option KeyAnswer) (earlier' : List (Nat × TokenCheck)),
      fetch' url = fetch url →
      ((empty.afterAll fetch' earlier').verify fetch' now check).accepted = v.accepted) ∧
    (v.fetched = [] ∨ v.fetched = [url]) ∧
    (v.fetched = [url] ↔ ∃ t id, check.named? = some (t, id) ∧
      ¬∃ w ∈ empty.verifyAll fetch earlier, url ∈ w.fetched ∧
        ∃ keys, published? fetch url = some keys ∧
          ∃ k ∈ keys, k.id = some id ∧ k.key.isSome = true) ∧
    (v.accepted = true ↔ ∃ t id keys key payload, check.named? = some (t, id) ∧
      published? fetch url = some keys ∧
      PublishedKey.lastUsable? keys id = some (.rsa key) ∧ t.IsSignedUnder key ∧
      t.payload? = some payload ∧ (TokenClaims.ofPayload? payload).isSome = true ∧
      payload.EndsInTime now 60 ∧
      payload.IsMeantFor (TokenRules.forAudience check.audience).audience) := by
  intro url v
  have hmirrors := (mirrors_empty fetch).afterAll earlier
  have hverdict : v.accepted = verdict fetch now check := hmirrors.accepted_eq now check
  refine ⟨?_, ?_, ?_, ?_, ?_⟩
  · rw [hverdict, (mirrors_empty fetch).accepted_eq]
  · intro fetch' earlier' hsame
    rw [hverdict, ((mirrors_empty fetch').afterAll earlier').accepted_eq]
    exact verdict_congr hsame
  · exact hmirrors.fetched_eq_or now check
  · rw [hmirrors.fetched_iff, List.nil_append]
    have hbrought : ∀ id, (url ∈ (empty.verifyAll fetch earlier).flatMap (·.fetched) ∧
        (publishedKey? fetch url id).isSome = true) ↔
        ∃ w ∈ empty.verifyAll fetch earlier, url ∈ w.fetched ∧
          ∃ keys, published? fetch url = some keys ∧
            ∃ k ∈ keys, k.id = some id ∧ k.key.isSome = true := by
      intro id
      rw [List.mem_flatMap, publishedKey?_isSome]
      constructor
      · rintro ⟨⟨w, hw, hasked⟩, hpublished⟩
        exact ⟨w, hw, hasked, hpublished⟩
      · rintro ⟨w, hw, hasked, hpublished⟩
        exact ⟨⟨w, hw, hasked⟩, hpublished⟩
    simp only [url, hbrought]
  · constructor
    · intro haccepted
      obtain ⟨t, key, payload, h⟩ := exists_vouches haccepted
      obtain ⟨id, hnamed, hfound⟩ := h.found
      rw [hmirrors.key_eq] at hfound
      obtain ⟨keys, hkeys, hlast⟩ := Option.bind_eq_some_iff.mp hfound
      obtain ⟨hend, hmeant⟩ := h.accepted_iff.mp haccepted
      exact ⟨t, id, keys, key, payload, hnamed, hkeys, hlast, h.signed, h.read, h.legible, hend,
        hmeant⟩
    · rintro ⟨t, id, keys, key, payload, hnamed, hkeys, hlast, hsigned, hread, hlegible, hasked⟩
      have hpublished : publishedKey? fetch url id = some (.rsa key) :=
        Option.bind_eq_some_iff.mpr ⟨keys, hkeys, hlast⟩
      have hfound : ((empty.afterAll fetch earlier).keyFor fetch url id).2.1 = some (.rsa key) :=
        (hmirrors.key_eq url id).trans hpublished
      have hvouches : (empty.afterAll fetch earlier).Vouches fetch check t key payload :=
        ⟨⟨id, hnamed, hfound⟩, hsigned, hread, hlegible⟩
      exact hvouches.accepted_iff.mpr hasked

end KeyCache
end AccessGateway
