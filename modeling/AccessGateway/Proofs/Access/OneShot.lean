import AccessGateway.Proofs.Session.Granting

/-!
# One-shot grants

A mapping with one-shot grants takes all roles away whenever it looks at them.  If they do not open
it, it asks a provider once; what the answer grants is looked at once and taken away again.  So no
grant outlives the request that it was made for, and the next decision has to be earned anew.

## Results

* `OneShot.authorize_open`, `OneShot.authorize_closed` — a decision by roles, and one by the
  provider's reply.
* `OneShot.authorize_roles`, `OneShot.authorize_calls` — what a decision takes and whom it asks.
* `OneShot.decisions_roleless` — a row of decisions, each a function of the reply to it.
* `one_shot_grants_consumed` — all of it, for every mapping and every session.
-/

set_option autoImplicit false

namespace AccessGateway

instance (s : Session) (required : List String) (now : Instant) :
    Decidable (s.HoldsAny required now) :=
  inferInstanceAs (Decidable (∃ role ∈ s.roles, role.isActive now = true ∧ role.name ∈ required))

namespace OneShot

variable {m : Mapping} {url : String} {peers : IdentityPeers} {r : AccessRequest} {s : Session}
  {st : RequestState}

/-! ## One decision -/

/-- The form that is posted for a request that roles do not open the mapping to. -/
def callFor (m : Mapping) (url : String) (r : AccessRequest) : ProviderCall :=
  .oneShot url m.name (forwardedHeaders m.headers r.headers)

/-- The decision on a request that a provider was asked about.  The cookies of its answer are
    harvested as for a new session; when that is plays no part. -/
def decisionOn (m : Mapping) : Reply ProviderAnswer → Decision
  | .outOfTime => .outOfTime
  | .failure reason => .failed (.identity reason)
  | .answer a =>
    .ofBool (decide
      ((Harvest.run .fresh m.contextRoot a.setCookies 0).1.HoldsAny m.requiredRoles 0))

theorem checkAndConsume_roles (now : Instant) : (checkAndConsume m s now).1.roles = [] := rfl

theorem authorize_open (h : m.OpenTo s r.now) : authorize m url peers r s st =
    ⟨.allowed, (checkAndConsume m s r.now).1, st, [], [], []⟩ := by
  have hcheck := checkAndConsume_eq_true.mpr h
  unfold authorize
  generalize checkAndConsume m s r.now = consumed at hcheck ⊢
  obtain ⟨s', allowed⟩ := consumed
  cases hcheck
  rfl

/-- What roles do not open is decided by the provider's reply. -/
theorem authorize_closed (h : ¬m.OpenTo s r.now) :
    let v := authorize m url peers r s st
    v.session.roles = [] ∧ v.calls = [callFor m url r] ∧
      v.decision = decisionOn m (peers.provider (callFor m url r)) := by
  have hrequired : m.requiredRoles ≠ [] := fun hnone => h (.inl hnone)
  have hcheck := mt checkAndConsume_eq_true.mp h
  have hroles : (checkAndConsume m s r.now).1.roles = Session.fresh.roles := rfl
  unfold authorize callFor
  generalize checkAndConsume m s r.now = consumed at hcheck hroles ⊢
  obtain ⟨s', allowed⟩ := consumed
  rw [Bool.not_eq_true] at hcheck
  cases hcheck
  dsimp only at hroles ⊢
  cases peers.provider (.oneShot url m.name (forwardedHeaders m.headers r.headers)) with
  | outOfTime => exact ⟨hroles, rfl, rfl⟩
  | failure reason => exact ⟨hroles, rfl, rfl⟩
  | answer a =>
    refine ⟨rfl, rfl, ?_⟩
    have hgranted : m.OpenTo (Harvest.run s' m.contextRoot a.setCookies r.now).1 r.now ↔
        (Harvest.run .fresh m.contextRoot a.setCookies 0).1.HoldsAny m.requiredRoles 0 := by
      rw [Mapping.openTo_congr (Harvest.run_roles hroles m.contextRoot m.contextRoot a.setCookies),
        Harvest.holdsAny_fresh m.requiredRoles r.now 0]
      exact or_iff_right hrequired
    unfold decisionOn
    dsimp only
    congr 1
    rw [Bool.eq_iff_iff, checkAndConsume_eq_true, decide_eq_true_eq]
    exact hgranted

/-- No role is left, however a decision ends. -/
theorem authorize_roles : (authorize m url peers r s st).session.roles = [] := by
  by_cases h : m.OpenTo s r.now
  · rw [authorize_open h]
    exact checkAndConsume_roles r.now
  · exact (authorize_closed h).1

/-- The provider is asked once if roles do not open the mapping, and not at all if they do. -/
theorem authorize_calls : (authorize m url peers r s st).calls =
    if (m.checkRoles s r.now).2 then [] else [callFor m url r] := by
  by_cases h : m.OpenTo s r.now
  · rw [authorize_open h, if_pos (Mapping.checkRoles_eq_true.mpr h)]
  · rw [if_neg (mt Mapping.checkRoles_eq_true.mp h)]
    exact (authorize_closed h).2.1

/-! ## A row of decisions -/

/-- What happens to a session between two requests, if it grants no roles to a session without. -/
structure Interlude where
  run : Session → Session
  grantsNothing : ∀ s, s.roles = [] → (run s).roles = []

/-- The harvest of a backend's answer without grants. -/
def Interlude.ofHarvest (root : String) (values : List HeaderValue) (now : Instant)
    (h : ∀ c ∈ Harvest.commands values, c.grants = false) : Interlude :=
  ⟨fun s => (Harvest.run s root values now).1, fun _ hs => Harvest.run_roleless hs root h⟩

/-- A request that asks to pass, with what happened since the one before it. -/
structure Turn where
  before : Interlude
  peers : IdentityPeers
  request : AccessRequest

/-- What comes of a turn. -/
def Turn.outcome (t : Turn) (m : Mapping) (url : String) (s : Session) : Authorization :=
  let s := t.before.run s
  authorize m url t.peers t.request s (.ofSession s)

/-- The decisions of a row of turns of one session. -/
def decisions (m : Mapping) (url : String) : Session → List Turn → List Decision
  | _, [] => []
  | s, t :: ts =>
    let v := t.outcome m url s
    v.decision :: decisions m url v.session ts

/-- The decision on a turn of a session without roles. -/
def Turn.verdict (t : Turn) (m : Mapping) (url : String) : Decision :=
  if m.requiredRoles = [] then .allowed
  else decisionOn m (t.peers.provider (callFor m url t.request))

theorem Turn.outcome_decision (t : Turn) (h : s.roles = []) :
    (t.outcome m url s).decision = t.verdict m url := by
  have hroles : (t.before.run s).roles = [] := t.before.grantsNothing s h
  have hopen : m.OpenTo (t.before.run s) t.request.now ↔ m.requiredRoles = [] := by
    unfold Mapping.OpenTo Session.HoldsAny
    rw [hroles]
    simp
  unfold outcome verdict
  dsimp only
  split
  · rename_i hnone
    rw [authorize_open (hopen.mpr hnone)]
  · rename_i hsome
    exact (authorize_closed (mt hopen.mp hsome)).2.2

/-- The decisions for a session without roles are functions of the replies to them. -/
theorem decisions_roleless (h : s.roles = []) (ts : List Turn) :
    decisions m url s ts = ts.map (·.verdict m url) := by
  induction ts generalizing s with
  | nil => rfl
  | cons t ts ih =>
    have hnext : (t.outcome m url s).session.roles = [] := authorize_roles
    unfold decisions
    dsimp only
    rw [t.outcome_decision h, ih hnext, List.map_cons]

end OneShot

/-- **One-shot grants are consumed.**  A decision leaves no roles, asks the provider once if roles
    do not open the mapping and not at all otherwise, and lets the request pass exactly if no role
    is required, the session held a required one, or the answer grants one to the session without
    its roles.  In every row of decisions for a session, each but the first depends on nothing but
    the provider's reply to it. -/
theorem one_shot_grants_consumed (m : Mapping) (url : String) (s : Session) :
    (∀ (peers : IdentityPeers) (r : AccessRequest) (st : RequestState),
      let call := ProviderCall.oneShot url m.name (OneShot.forwardedHeaders m.headers r.headers)
      let v := OneShot.authorize m url peers r s st
      v.session.roles = [] ∧
      v.calls = (if (m.checkRoles s r.now).2 then [] else [call]) ∧
      (v.decision = .allowed ↔
        m.requiredRoles = [] ∨ s.HoldsAny m.requiredRoles r.now ∨
        ∃ answer, peers.provider call = .answer answer ∧
          (Harvest.run s.clearRoles m.contextRoot answer.setCookies r.now).1.HoldsAny
            m.requiredRoles r.now)) ∧
    ∀ (first : OneShot.Turn) (rest : List OneShot.Turn),
      (OneShot.decisions m url s (first :: rest)).tail = rest.map fun turn =>
        if m.requiredRoles = [] then .allowed
        else OneShot.decisionOn m (turn.peers.provider (OneShot.callFor m url turn.request)) := by
  refine ⟨fun peers r st => ⟨OneShot.authorize_roles, OneShot.authorize_calls, ?_⟩, ?_⟩
  · have hharvest : ∀ values,
        (Harvest.run s.clearRoles m.contextRoot values r.now).1.HoldsAny m.requiredRoles r.now ↔
          (Harvest.run .fresh m.contextRoot values r.now).1.HoldsAny m.requiredRoles r.now := by
      intro values
      unfold Session.HoldsAny
      rw [Harvest.run_roles (s := s.clearRoles) (t := .fresh) rfl]
    simp only [hharvest]
    rw [OneShot.authorize_allowed]
    exact or_assoc
  · intro first rest
    exact OneShot.decisions_roleless OneShot.authorize_roles rest

/-- A grant lets one request pass; a cookie of the backend and a new answer do not bring it back. -/
example :
    let m : Mapping := { Mapping.denyAll with
      contextRoot := "/app", flow := .oneShot "http://idp/", requiredRoles := ["reader"] }
    let between := OneShot.Interlude.ofHarvest "/app" [⟨Bytes.ofText "sid=1"⟩] 0 (by decide +kernel)
    let turn (setCookies : List HeaderValue) : OneShot.Turn :=
      ⟨between, ⟨fun _ => .answer ⟨.ok, setCookies, []⟩, fun _ => some false⟩, ⟨.empty, "/app", 0⟩⟩
    OneShot.decisions m "http://idp/" .fresh
        [turn [⟨Bytes.ofText "AL_CONTROL=ADD_CREDENTIALS%3Dreader"⟩], turn []] =
      [.allowed, .denied] := by
  decide +kernel

end AccessGateway
