import AccessGateway.Proofs.Gateway.Isolation
import AccessGateway.Proofs.Gateway.Location
import AccessGateway.Proofs.Settings.Faults
import Mathlib.Data.List.DropRight

/-!
# What passes by the dispatcher

A post to the SAML endpoint is not looked at by the dispatcher, so that no mapping rules it.  Which
paths are the endpoint's is set by a text that is read as a pattern.  If braces, colons and stars
stand in it, it means more than it says, or it means nothing and there is no router.

## Results

* `PathPattern.covers_literals` — a plain text stands for the paths behind it.
* `PathPattern.exists_covered` — any other text also stands for a path that is not behind it.
* `Router.passesBy_iff` — which requests pass by the dispatcher, whatever the endpoint's path is.
* `dispatcher_bypass_iff` — when nothing but posts behind the endpoint's path passes by.
* `dispatcher_bypass_astray` — accepted settings without a router, and with one that lets more by.
-/

set_option autoImplicit false

namespace AccessGateway

namespace PathPattern

/-! ## Texts and their patterns -/

/-- How a text is read as a pattern: a brace that is doubled stands for itself, a name in braces for
    any piece of a path up to the next slash, and all else for itself. -/
inductive Reads : List Char → List PatternPiece → Prop
  | nil : Reads [] []
  | literal {c : Char} {cs : List Char} {ps : List PatternPiece} (hopening : c ≠ opening)
      (hclosing : c ≠ closing) (hrest : Reads cs ps) : Reads (c :: cs) (.literal c :: ps)
  | doubled {c : Char} {cs : List Char} {ps : List PatternPiece}
      (hbrace : c = opening ∨ c = closing) (hrest : Reads cs ps) :
      Reads (c :: c :: cs) (.literal c :: ps)
  | parameter {cs : List Char} {ps : List PatternPiece} (name : List Char)
      (hend : ∀ c, cs.head? = some c → c = '/') (hrest : Reads cs ps) :
      Reads (opening :: (name ++ closing :: cs)) (.parameter :: ps)

variable {cs : List Char} {ps : List PatternPiece} {root path : String}

/-- A name that is shorter than what follows its first character has a brace behind it. -/
theorem eq_append_closing {d : Char} {rest : List Char}
    (h : ((d :: rest).takeWhile (· ≠ closing)).length ≤ rest.length) :
    d :: rest = (d :: rest).takeWhile (· ≠ closing) ++
      closing :: rest.drop ((d :: rest).takeWhile (· ≠ closing)).length := by
  have hmem : closing ∈ d :: rest := by
    by_contra hnot
    have hall : ∀ c ∈ d :: rest, decide (c ≠ closing) = true := by
      intro c hc
      refine decide_eq_true ?_
      rintro rfl
      exact hnot hc
    rw [List.takeWhile_eq_self_iff.mpr hall, List.length_cons] at h
    omega
  obtain ⟨name, after, hsplit, hname⟩ := List.eq_append_cons_of_mem hmem
  have hdrop : rest.drop name.length = after := by
    have hnext : rest.drop name.length = (d :: rest).drop (name.length + 1) := rfl
    rw [hnext, hsplit, ← List.drop_drop, List.drop_left, List.drop_one, List.tail_cons]
  rw [hsplit, Text.takeWhile_append_sep hname, hdrop]

/-- What a pattern was read from. -/
theorem reads_of_pieces? (h : pieces? cs = some ps) : Reads cs ps := by
  fun_induction pieces? cs generalizing ps with
  | case1 =>
    cases h
    exact .nil
  | case2 c hbrace => cases h
  | case3 c hplain =>
    rw [not_or] at hplain
    cases h
    exact .literal hplain.1 hplain.2 .nil
  | case4 c d rest hdouble ih =>
    obtain ⟨qs, hqs, rfl⟩ := Option.map_eq_some_iff.mp h
    rcases hdouble with ⟨rfl, rfl⟩ | ⟨rfl, rfl⟩
    · exact .doubled (.inl rfl) (ih hqs)
    · exact .doubled (.inr rfl) (ih hqs)
  | case5 => cases h
  | case6 => cases h
  | case7 d rest name hname hdouble hclosing =>
    rename_i ih
    obtain ⟨qs, hqs, rfl⟩ := Option.map_eq_some_iff.mp h
    simp only [not_or, Nat.not_lt] at hname
    obtain ⟨-, -, -, hlong, hend⟩ := hname
    rw [eq_append_closing hlong]
    refine .parameter _ (fun c hc => ?_) (ih hqs)
    rw [hc] at hend
    simpa using hend
  | case8 c d rest hdouble hclosing hopening ih =>
    obtain ⟨qs, hqs, rfl⟩ := Option.map_eq_some_iff.mp h
    exact .literal hopening hclosing (ih hqs)

theorem pieces?_of_noBrace (h : ∀ c ∈ cs, c ≠ opening ∧ c ≠ closing) :
    pieces? cs = some (cs.map .literal) := by
  fun_induction pieces? cs with
  | case1 => rfl
  | case2 c hbrace =>
    obtain ⟨hopening, hclosing⟩ := h c List.mem_cons_self
    exact absurd hbrace (not_or.mpr ⟨hopening, hclosing⟩)
  | case3 c hplain => rfl
  | case4 c d rest hdouble ih =>
    obtain ⟨hopening, hclosing⟩ := h c List.mem_cons_self
    exact (hdouble.elim (hopening ·.1) (hclosing ·.1)).elim
  | case5 => exact absurd rfl (h _ List.mem_cons_self).2
  | case6 => exact absurd rfl (h _ List.mem_cons_self).1
  | case7 => exact absurd rfl (h _ List.mem_cons_self).1
  | case8 c d rest hdouble hclosing hopening ih =>
    rw [ih fun e he => h e (List.mem_cons_of_mem _ he)]
    rfl

/-- A pattern is as long as its text at most, and only as long if there are no braces. -/
theorem Reads.length_le (h : Reads cs ps) : ps.length ≤ cs.length := by
  induction h with
  | nil => exact Nat.le_refl _
  | literal hopening hclosing hrest ih => simpa using ih
  | doubled hbrace hrest ih =>
    simp only [List.length_cons]
    omega
  | parameter name hend hrest ih =>
    simp only [List.length_cons, List.length_append]
    omega

theorem Reads.noBrace (h : Reads cs ps) (hlength : cs.length ≤ ps.length) :
    ∀ c ∈ cs, c ≠ opening ∧ c ≠ closing := by
  induction h with
  | nil => simp
  | literal hopening hclosing hrest ih =>
    simp only [List.length_cons, Nat.add_le_add_iff_right] at hlength
    simp only [List.mem_cons, forall_eq_or_imp]
    exact ⟨⟨hopening, hclosing⟩, ih hlength⟩
  | doubled hbrace hrest ih =>
    have hle := hrest.length_le
    simp only [List.length_cons] at hlength
    omega
  | parameter name hend hrest ih =>
    have hle := hrest.length_le
    simp only [List.length_cons, List.length_append] at hlength
    omega

/-! ## Paths that a pattern covers -/

/-- **A plain text stands for the paths behind it.** -/
theorem covers_literals (ds : List Char) :
    covers (cs.map .literal) ds = true ↔ ∃ c rest, ds = cs ++ '/' :: c :: rest := by
  induction cs generalizing ds with
  | nil =>
    rw [List.map_nil]
    cases ds with
    | nil => simp [covers]
    | cons d ds =>
      by_cases hd : d = '/'
      · subst hd
        cases ds <;> simp [covers]
      · simp [covers, hd]
  | cons c cs ih =>
    rw [List.map_cons]
    cases ds with
    | nil => simp [covers]
    | cons d ds =>
      rw [covers, Bool.and_eq_true, decide_eq_true_eq, ih]
      constructor
      · rintro ⟨rfl, e, rest, rfl⟩
        exact ⟨e, rest, rfl⟩
      · rintro ⟨e, rest, h⟩
        obtain ⟨rfl, rfl⟩ := List.cons.inj h
        exact ⟨rfl, e, rest, rfl⟩

/-- A shortest path that a pattern covers. -/
def shortest : List PatternPiece → List Char
  | [] => ['/', '0']
  | .literal c :: ps => c :: shortest ps
  | .parameter :: ps => '0' :: shortest ps

theorem length_shortest (ps : List PatternPiece) : (shortest ps).length = ps.length + 2 := by
  induction ps with
  | nil => rfl
  | cons p ps ih => cases p <;> simp [shortest, ih]

theorem Reads.head?_shortest (h : Reads cs ps) (hend : ∀ c, cs.head? = some c → c = '/') :
    (shortest ps).head? = some '/' := by
  cases h with
  | nil => rfl
  | literal hopening hclosing hrest => exact congrArg some (hend _ rfl)
  | doubled hbrace hrest => exact congrArg some (hend _ rfl)
  | parameter name hafter hrest => exact absurd (hend _ rfl) (by decide)

theorem Reads.covers_shortest (h : Reads cs ps) : covers ps (shortest ps) = true := by
  induction h with
  | nil => rfl
  | literal hopening hclosing hrest ih => simp [shortest, covers, ih]
  | doubled hbrace hrest ih => simp [shortest, covers, ih]
  | parameter name hend hrest ih =>
    obtain ⟨rest, hslash⟩ := List.head?_eq_some_iff.mp (hrest.head?_shortest hend)
    rw [hslash] at ih
    simp [shortest, covers, hslash, ih]

/-! ## The endpoint's path -/

/-- A text that stands for itself: it is not empty and has no braces, and no piece of it between
    slashes starts with a colon or a star. -/
structure IsPlain (root : String) : Prop where
  ne_empty : root ≠ ""
  noBrace : ∀ c ∈ root.toList, c ≠ opening ∧ c ≠ closing
  noSign : ∀ piece ∈ Text.fields '/' root.toList, piece.head? ≠ some ':' ∧ piece.head? ≠ some '*'

/-- A path that goes on behind a text with a slash and at least one more character. -/
def IsBehind (root path : String) : Prop := ∃ rest, rest ≠ "" ∧ path = root ++ "/" ++ rest

variable {pattern : List PatternPiece}

theorem isBehind_iff :
    IsBehind root path ↔ ∃ c rest, path.toList = root.toList ++ '/' :: c :: rest := by
  constructor
  · rintro ⟨rest, hne, rfl⟩
    obtain ⟨c, more, hrest⟩ := List.exists_cons_of_ne_nil (String.toList_eq_nil_iff.not.mpr hne)
    exact ⟨c, more, by simp [String.toList_append, hrest]⟩
  · rintro ⟨c, rest, h⟩
    refine ⟨String.ofList (c :: rest), by simp, ?_⟩
    rw [← String.toList_inj, h]
    simp [String.toList_append]

theorem fields_any_eq_false :
    ((Text.fields '/' root.toList).any fun field =>
        decide (field.head? = some ':' ∨ field.head? = some '*')) = false ↔
      ∀ piece ∈ Text.fields '/' root.toList,
        piece.head? ≠ some ':' ∧ piece.head? ≠ some '*' := by
  rw [List.any_eq_false]
  refine forall_congr' fun piece => forall_congr' fun _ => ?_
  rw [decide_eq_true_eq, not_or]

/-- The pattern of a plain text. -/
theorem parse?_plain (h : IsPlain root) (hslash : root.toList.head? = some '/') :
    parse? root = some (root.toList.map .literal) := by
  obtain ⟨rest, hrest⟩ := List.head?_eq_some_iff.mp hslash
  unfold parse?
  dsimp only
  rw [fields_any_eq_false.mpr h.noSign, pieces?_of_noBrace h.noBrace, hrest, List.map_cons]
  cases rest <;> rfl

theorem parse?_eq_some (h : parse? root = some pattern) :
    Reads root.toList pattern ∧ pattern.head? = some (.literal '/') ∧
      ∀ piece ∈ Text.fields '/' root.toList,
        piece.head? ≠ some ':' ∧ piece.head? ≠ some '*' := by
  unfold parse? at h
  dsimp only at h
  split at h
  · cases h
  · next hsigns =>
    have hnoSign := fields_any_eq_false.mp (Bool.eq_false_iff.mpr hsigns)
    split at h
    · cases h
    · next rest hpieces =>
      cases h
      exact ⟨reads_of_pieces? hpieces, rfl, hnoSign⟩
    · cases h

/-- **Any other text also stands for a path that is not behind it.** -/
theorem exists_covered (h : parse? root = some pattern) (hnot : ¬IsPlain root) :
    ∃ path : String, path.toList.head? = some '/' ∧ covers pattern path.toList = true ∧
      ¬IsBehind root path := by
  obtain ⟨hreads, hslash, hnoSign⟩ := parse?_eq_some h
  have hne : root ≠ "" := by
    rintro rfl
    cases hreads
    cases hslash
  have hlonger : pattern.length < root.toList.length := by
    by_contra hlength
    exact hnot ⟨hne, hreads.noBrace (by omega), hnoSign⟩
  refine ⟨String.ofList (shortest pattern), ?_, ?_, ?_⟩
  · obtain ⟨rest, rfl⟩ := List.head?_eq_some_iff.mp hslash
    rw [String.toList_ofList]
    rfl
  · rw [String.toList_ofList]
    exact hreads.covers_shortest
  · rw [isBehind_iff]
    rintro ⟨c, rest, hpath⟩
    have hlength := congrArg List.length hpath
    rw [String.toList_ofList, length_shortest, List.length_append, List.length_cons,
      List.length_cons] at hlength
    omega

end PathPattern

/-! ## The router -/

/-- A request that goes this way is served and the dispatcher does not look at it. -/
def Route.PassesBy (route : Route) : Prop := ∃ root, route = .binding root

/-- A post behind the path that the settings give to the SAML endpoint. -/
def SamlSettings.Binds (s : SamlSettings) (method : Method) (path : String) : Prop :=
  method = .post ∧ ∃ root, s.postBindingPath = some root ∧
    PathPattern.IsBehind (Router.trimSlashes root) path

namespace Router

variable {router : Router} {saml : SamlSettings} {method : Method} {root path : String}

theorem head?_trimSlashes (h : root.toList.head? = some '/') (hne : trimSlashes root ≠ "") :
    (trimSlashes root).toList.head? = some '/' := by
  have hprefix : (trimSlashes root).toList <+: root.toList := by
    unfold trimSlashes
    rw [String.toList_ofList]
    exact List.rdropWhile_prefix _ _
  obtain ⟨after, hafter⟩ := hprefix
  obtain ⟨c, rest, hcs⟩ := List.exists_cons_of_ne_nil (String.toList_eq_nil_iff.not.mpr hne)
  rw [← hafter, hcs] at h
  rw [hcs]
  exact h

theorem route_eq_binding_iff : router.route method path = .binding root ↔
    method = .post ∧ path.toList.head? = some '/' ∧
      ∃ pattern, router.binding = some (root, pattern) ∧
        PathPattern.covers pattern path.toList = true := by
  unfold route
  split
  · next hslash =>
    refine iff_of_false nofun ?_
    rintro ⟨-, hstarts, -⟩
    exact hslash hstarts
  · next hslash =>
    rw [ne_eq, not_not] at hslash
    split
    · next hnone => exact iff_of_false nofun (by simp [hnone])
    · next other pattern hsome =>
      rw [hsome]
      split
      · next hcovers =>
        split
        · next hpost => simp [hpost, hslash, hcovers]
        · next hother => exact iff_of_false nofun fun h => hother h.1
      · next hnot =>
        refine iff_of_false nofun ?_
        rintro ⟨-, -, _, hbinding, hcovers⟩
        cases hbinding
        exact hnot hcovers

/-- **Which requests pass by the dispatcher.** -/
theorem passesBy_iff : (router.route method path).PassesBy ↔
    method = .post ∧ path.toList.head? = some '/' ∧
      ∃ root pattern, router.binding = some (root, pattern) ∧
        PathPattern.covers pattern path.toList = true := by
  unfold Route.PassesBy
  simp only [route_eq_binding_iff, exists_and_left]

theorem binding_of_ofSettings? {pattern : List PatternPiece} (h : ofSettings? saml = some router)
    (hbinding : router.binding = some (root, pattern)) :
    ∃ p, saml.postBindingPath = some p ∧ root = trimSlashes p := by
  unfold ofSettings? at h
  split at h
  · cases h
    cases hbinding
  · next p hp =>
    obtain ⟨_, -, rfl⟩ := Option.map_eq_some_iff.mp h
    cases hbinding
    exact ⟨p, hp, rfl⟩

/-- The router passes by the dispatcher what the settings set apart for the endpoint, and nothing
    else, exactly if the endpoint's path is plain. -/
theorem bypass_iff (hslash : ∀ root, saml.postBindingPath = some root →
      root.toList.head? = some '/') :
    (∃ router, ofSettings? saml = some router ∧ ∀ method path, path.toList.head? = some '/' →
        ((router.route method path).PassesBy ↔ saml.Binds method path)) ↔
      ∀ root, saml.postBindingPath = some root → PathPattern.IsPlain (trimSlashes root) := by
  unfold ofSettings? SamlSettings.Binds
  cases hroot : saml.postBindingPath with
  | none =>
    refine iff_of_true ⟨⟨none⟩, rfl, fun method path _ => ?_⟩ nofun
    rw [passesBy_iff]
    simp
  | some root =>
    simp only [Option.some.injEq, forall_eq', exists_eq_left', Option.map_eq_some_iff]
    constructor
    · rintro ⟨router, ⟨pattern, hpattern, rfl⟩, hall⟩
      by_contra hnot
      obtain ⟨path, hstarts, hcovers, hbehind⟩ := PathPattern.exists_covered hpattern hnot
      apply hbehind
      exact ((hall .post path hstarts).mp (passesBy_iff.mpr ⟨rfl, hstarts, _, _, rfl, hcovers⟩)).2
    · intro hplain
      have hstarts := head?_trimSlashes (hslash root hroot) hplain.ne_empty
      refine ⟨_, ⟨_, PathPattern.parse?_plain hplain hstarts, rfl⟩, fun method path hpath => ?_⟩
      rw [passesBy_iff, PathPattern.isBehind_iff, ← PathPattern.covers_literals]
      simp [hpath]

end Router

/-! ## Requests -/

namespace Server

variable {s : Server} {w : Surroundings} {r : Request}

/-- What does not pass by is the dispatcher's, if its path starts with a slash. -/
theorem exchange_dispatch (hslash : r.target.path.toList.head? = some '/')
    (hstays : ¬(s.router.route r.method r.target.path).PassesBy) :
    s.exchange w r = s.gateway.dispatch w (RequestId.assign w.freshRequest r) := by
  unfold exchange answer
  dsimp only
  rw [RequestId.assign_method, RequestId.assign_target]
  cases hroute : s.router.route r.method r.target.path with
  | dispatcher => rfl
  | besideBinding => rfl
  | binding root =>
    exact absurd ⟨root, hroute⟩ hstays
  | nowhere =>
    unfold Router.route at hroute
    rw [if_neg (not_not.mpr hslash)] at hroute
    split at hroute
    · cases hroute
    · split at hroute
      · split at hroute <;> cases hroute
      · cases hroute

/-- A path without a slash in front is nobody's. -/
theorem exchange_nowhere (hslash : r.target.path.toList.head? ≠ some '/') :
    s.exchange w r = ⟨s.gateway, some (.ofStatus .notFound), [], [], [], []⟩ := by
  have hroute : s.router.route r.method r.target.path = .nowhere := by
    unfold Router.route
    rw [if_pos hslash]
  unfold exchange answer
  dsimp only
  rw [RequestId.assign_method, RequestId.assign_target, hroute]

end Server

/-- **When nothing but the endpoint's posts passes by the dispatcher.**  For accepted settings,
    there is a server and it keeps from the dispatcher those posts whose path goes on behind the
    endpoint's with a slash and more, and nothing else, exactly if the endpoint's path without the
    slashes at its end is plain.  And whatever the settings and whatever happened to a server
    before: what passes by is served as a post to the endpoint, all else whose path starts with a
    slash is dispatched, and what has no such path is found nowhere and changes nothing. -/
theorem dispatcher_bypass_iff (settings : Settings) (localPort : Nat)
    (hvalid : settings.isValid = true) :
    ((∃ server, Server.start? settings localPort = some server ∧
        ∀ method path, path.toList.head? = some '/' →
          ((server.router.route method path).PassesBy ↔ settings.saml.Binds method path)) ↔
      ∀ root, settings.saml.postBindingPath = some root →
        PathPattern.IsPlain (Router.trimSlashes root)) ∧
    ∀ server, Server.start? settings localPort = some server →
      ∀ (events : List ServerEvent) (w : Surroundings) (r : Request),
        let s := server.run events
        let q := RequestId.assign w.freshRequest r
        let passesBy := (server.router.route r.method r.target.path).PassesBy
        (passesBy → ∃ root, settings.saml.postBindingPath = some root ∧
          s.exchange w r = PostBinding.handle s.gateway w (Router.trimSlashes root) q) ∧
        (¬passesBy → r.target.path.toList.head? = some '/' →
          s.exchange w r = s.gateway.dispatch w q) ∧
        (r.target.path.toList.head? ≠ some '/' →
          s.exchange w r = ⟨s.gateway, some (.ofStatus .notFound), [], [], [], []⟩) := by
  have hslash : ∀ root, settings.saml.postBindingPath = some root →
      root.toList.head? = some '/' := by
    intro root hroot
    by_contra hother
    exact Validation.isValid_iff.mp hvalid _ (.postBindingPath hroot (.inl hother))
  constructor
  · rw [← Router.bypass_iff hslash]
    unfold Server.start?
    simp only [Option.map_eq_some_iff]
    constructor
    · rintro ⟨_, ⟨router, hrouter, rfl⟩, hall⟩
      exact ⟨router, hrouter, hall⟩
    · rintro ⟨router, hrouter, hall⟩
      exact ⟨_, ⟨router, hrouter, rfl⟩, hall⟩
  · intro server hstart events w r s q passesBy
    have hrouter : s.router = server.router := Server.run_router server events
    refine ⟨fun hpasses => ?_, fun hstays hpath => ?_, fun hpath => Server.exchange_nowhere hpath⟩
    · obtain ⟨root, hroute⟩ := hpasses
      obtain ⟨-, -, pattern, hbinding, -⟩ := Router.route_eq_binding_iff.mp hroute
      obtain ⟨router, hsettings, rfl⟩ := Option.map_eq_some_iff.mp hstart
      obtain ⟨p, hp, rfl⟩ := Router.binding_of_ofSettings? hsettings hbinding
      refine ⟨p, hp, Server.exchange_binding ?_⟩
      rw [hrouter]
      exact hroute
    · apply Server.exchange_dispatch hpath
      rw [hrouter]
      exact hstays

/-! ## Paths for the endpoint -/

/-- Settings with a path for the SAML endpoint. -/
def EndpointAt.settings (root : String) : Settings := { saml := { postBindingPath := some root } }

/-- Under a usual path the endpoint has the posts behind it, and the dispatcher all else. -/
theorem dispatcher_bypass_iff_saml :
    (EndpointAt.settings "/saml/").isValid = true ∧
    ∃ server, Server.start? (EndpointAt.settings "/saml/") 8080 = some server ∧
      (server.router.route .post "/saml/app").PassesBy ∧
      ¬(server.router.route .post "/saml").PassesBy ∧
      ¬(server.router.route .get "/saml/app").PassesBy := by
  have hvalid : (EndpointAt.settings "/saml/").isValid = true := by decide +kernel
  have hroot : Router.trimSlashes "/saml/" = "/saml" := by decide
  have hplain : ∀ root, (EndpointAt.settings "/saml/").saml.postBindingPath = some root →
      PathPattern.IsPlain (Router.trimSlashes root) := by
    rintro _ ⟨⟩
    rw [hroot]
    exact ⟨by decide, Text.forall_mem_of_all (by decide), by decide⟩
  obtain ⟨hiff, -⟩ := dispatcher_bypass_iff (EndpointAt.settings "/saml/") 8080 hvalid
  obtain ⟨server, hstart, hall⟩ := hiff.mpr hplain
  refine ⟨hvalid, server, hstart, ?_, ?_, ?_⟩
  · rw [hall _ _ (by decide)]
    exact ⟨rfl, _, rfl, "app", by decide, by decide⟩
  · rw [hall _ _ (by decide)]
    rintro ⟨-, _, ⟨⟩, hbehind⟩
    rw [hroot, PathPattern.isBehind_iff] at hbehind
    obtain ⟨c, rest, hpath⟩ := hbehind
    simpa using congrArg List.length hpath
  · rw [hall _ _ (by decide)]
    rintro ⟨hmethod, -⟩
    exact absurd hmethod (by decide)

/-- Slashes alone are accepted as a path, and there is no server; a piece in braces is accepted, and
    posts pass by that are not behind it. -/
theorem dispatcher_bypass_astray :
    (EndpointAt.settings "//").isValid = true ∧
    Server.start? (EndpointAt.settings "//") 8080 = none ∧
    (EndpointAt.settings "/a/\x7bx\x7d").isValid = true ∧
    ∃ server, Server.start? (EndpointAt.settings "/a/\x7bx\x7d") 8080 = some server ∧
      (server.router.route .post "/a/b/c").PassesBy ∧
      ¬(EndpointAt.settings "/a/\x7bx\x7d").saml.Binds .post "/a/b/c" := by
  have hstart : Server.start? (EndpointAt.settings "/a/\x7bx\x7d") 8080 =
      some ⟨⟨some ("/a/\x7bx\x7d",
          [.literal '/', .literal 'a', .literal '/', .parameter])⟩,
        .ofSettings (EndpointAt.settings "/a/\x7bx\x7d") 8080⟩ := by
    decide +kernel
  refine ⟨by decide +kernel, by decide +kernel, by decide +kernel, _, hstart,
    ⟨"/a/\x7bx\x7d", by decide +kernel⟩, ?_⟩
  rintro ⟨-, _, ⟨⟩, hbehind⟩
  obtain ⟨c, rest, hpath⟩ := PathPattern.isBehind_iff.mp hbehind
  have hroot : Router.trimSlashes "/a/\x7bx\x7d" = "/a/\x7bx\x7d" := by decide
  rw [hroot] at hpath
  simpa using congrArg List.length hpath

end AccessGateway
