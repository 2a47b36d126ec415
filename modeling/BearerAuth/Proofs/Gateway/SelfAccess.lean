import Mathlib
import BearerAuth.Proofs.Gateway.Mediation
import BearerAuth.Proofs.Service.Leeway

/-!
# Acting on oneself

The rule for users who act on themselves compares the caller with the user acted on, which is the
one that the path names, and nil on routes that name none.  Whoever is no administrator therefore
gets through on a route that names users if the path names the caller, and on any other route if
the caller is nil.

Main statement: `Gateway.selfOrAdmin_iff_named_or_nil`.
-/

namespace BearerAuth

variable {σ : Type}

/-! ### Names of parameters -/

/-- The names of the parameters of a pattern, in order. -/
def Route.names (route : Route) : List String :=
  route.filterMap fun
    | .parameter name => some name
    | .literal _ => none

/-- A request for this address that the pattern matches has these parameters. -/
def Route.Yields (route : Route) (uri : String) (parameters : PathParameters) : Prop :=
  ∃ bound, route.bind? (Path.cut (pathOf uri)) = some bound ∧ decode bound = parameters

/-- Pieces that fit a pattern are bound to the names in it. -/
theorem Route.map_fst_of_bind? {route : Route} {pieces : List Bytes}
    {bound : List (String × Bytes)} (h : route.bind? pieces = some bound) :
    bound.map (·.1) = route.names := by
  induction route generalizing pieces bound with
  | nil =>
    cases pieces with
    | nil =>
      cases h
      rfl
    | cons piece pieces => cases h
  | cons part route ih =>
    cases pieces with
    | nil => cases part <;> cases h
    | cons piece pieces =>
      cases part with
      | literal text =>
        rw [bind?] at h
        split at h
        · exact ih h
        · cases h
      | parameter name =>
        rw [bind?] at h
        split at h
        · cases h
        · obtain ⟨rest, hrest, rfl⟩ := Option.map_eq_some_iff.mp h
          exact congrArg (name :: ·) (ih hrest)

/-- Parameters keep their names while they are decoded. -/
theorem Route.map_fst_of_mapM {bound : List (String × Bytes)} {parameters : List (String × String)}
    (h : (bound.mapM fun p => (percentDecode p.2).text?.map (p.1, ·)) = some parameters) :
    parameters.map (·.1) = bound.map (·.1) := by
  induction bound generalizing parameters with
  | nil =>
    cases h
    rfl
  | cons p bound ih =>
    rw [List.mapM_cons] at h
    obtain ⟨head, hhead, h⟩ := Option.bind_eq_some_iff.mp h
    obtain ⟨tail, htail, h⟩ := Option.bind_eq_some_iff.mp h
    cases h
    obtain ⟨text, -, rfl⟩ := Option.map_eq_some_iff.mp hhead
    exact congrArg (p.1 :: ·) (ih htail)

/-- A decoded parameter is found if the pattern names it, and only then. -/
theorem Route.find?_isSome_iff {route : Route} {uri name : String} {parameters : PathParameters}
    (h : route.Yields uri parameters) (hdecoded : parameters ≠ .undecodable) :
    (parameters.find? name).isSome ↔ name ∈ route.names := by
  obtain ⟨bound, hbound, rfl⟩ := h
  unfold decode at hdecoded ⊢
  split at hdecoded
  · rename_i found hfound
    rw [← map_fst_of_bind? hbound, ← map_fst_of_mapM hfound]
    simp only [PathParameters.find?, Option.isSome_map, List.find?_isSome, List.mem_map,
      decide_eq_true_eq]
  · exact absurd rfl hdecoded

/-! ### The rule -/

/-- The path names the user by a parameter. -/
def Request.NamesUser (r : Request) (id : UserId) : Prop :=
  ∃ text, r.parameters.find? Gateway.userParameter = some text ∧ UserId.parse? text = some id

/-- The path has no parameter that names a user, and its parameters can be decoded. -/
def Request.NamesNoUser (r : Request) : Prop :=
  r.parameters ≠ .undecodable ∧ r.parameters.find? Gateway.userParameter = none

/-- Of administrators the rule asks nothing, of others to be the user acted on. -/
theorem AuthService.standard_permits_selfOrAdmin_iff {config : AuthConfig} {source : KeySource σ}
    {now : Clock} {claims : Claims} {userId : UserId} :
    (standard config source).Permits now claims userId RuleName.selfOrAdmin ↔
      claims.isAdmin = true ∨ claims.subject = userId := by
  have hfind : (RuleTable.standard config.leeway).find? .authorization RuleName.selfOrAdmin =
      some (RuleTable.ofProperty fun question => question.holds .admin || question.isSelf) := by
    simp [RuleTable.standard, RuleTable.find?_register]
  have hevaluate : (standard config source).policy.evaluate .authorization RuleName.selfOrAdmin
      (.authorization claims.roles claims.subject userId) now =
        .silent (.ok (claims.isAdmin || decide (claims.subject = userId))) := by
    simp only [standard, RuleTable.toEvaluator, RuleTable.evaluate, hfind]
    rfl
  rw [Permits, hevaluate]
  simp [Ruling.silent]

/-- A path can be read, and the user acted on is this one. -/
theorem Request.readable_and_acts_on_iff {r : Request} {id : UserId} :
    r.Readable ∧ id = r.named?.getD UserId.nil ↔
      r.NamesUser id ∨ r.NamesNoUser ∧ id = UserId.nil := by
  unfold NamesUser NamesNoUser Readable named?
  cases hfind : r.parameters.find? Gateway.userParameter with
  | none => simp
  | some text =>
    have hdecoded : r.parameters ≠ .undecodable := by
      intro h
      rw [h] at hfind
      cases hfind
    cases hid : UserId.parse? text with
    | none => simp [hid]
    | some found => simp [hdecoded, hid, eq_comm]

namespace Gateway

variable {svc : AuthService σ} {around : Surroundings} {r : Request} {c : Context}
  {s : ServiceState σ} {claims : Claims} {rule : String}

/-- An authorization layer lets a request pass whose path can be read and whose rule is
permitted. -/
theorem pass_authorize_isOk_iff (hclaims : c.claims = some claims) :
    (∃ passed, (pass svc around r (.authorize rule) c s).result = .ok passed) ↔
      r.Readable ∧ svc.Permits around.now claims (r.named?.getD UserId.nil) rule := by
  constructor
  · rintro ⟨passed, hpassed⟩
    have hread : r.Readable := by
      by_contra hread
      rw [pass_authorize_of_unreadable hclaims hread] at hpassed
      cases hpassed
    refine ⟨hread, ?_⟩
    by_contra hpermits
    rw [pass_authorize_of_not_permits hclaims hread hpermits] at hpassed
    cases hpassed
  · rintro ⟨hread, hpermits⟩
    exact ⟨_, pass_authorize_of_permits hclaims hread hpermits⟩

variable {config : AuthConfig} {source : KeySource σ}

/-- Whoever is no administrator gets through an authorization layer by being the user acted on. -/
theorem pass_selfOrAdmin_isOk_iff (hclaims : c.claims = some claims)
    (hadmin : claims.isAdmin = false) :
    (∃ passed, (pass (.standard config source) around r (.authorize RuleName.selfOrAdmin) c
        s).result = .ok passed) ↔
      r.NamesUser claims.subject ∨ r.NamesNoUser ∧ claims.subject = UserId.nil := by
  rw [pass_authorize_isOk_iff hclaims, AuthService.standard_permits_selfOrAdmin_iff, hadmin,
    ← Request.readable_and_acts_on_iff]
  simp

/-- A layer of a stack asks for its rule. -/
theorem mem_rules_of_mem {layers : List Layer} (h : .authorize rule ∈ layers) :
    rule ∈ rules layers :=
  List.mem_filterMap.mpr ⟨_, h, rfl⟩

/-- Whoever is no administrator and reaches the handler behind such a layer is the user acted on. -/
theorem named_or_nil_of_passAll {layers : List Layer} {passed : Context}
    (hlayer : .authorize RuleName.selfOrAdmin ∈ layers)
    (h : (passAll (.standard config source) around r layers .empty s).result = .ok passed)
    (hclaims : passed.claims = some claims) (hadmin : claims.isAdmin = false) :
    r.NamesUser claims.subject ∨ r.NamesNoUser ∧ claims.subject = UserId.nil := by
  have hrule := mem_rules_of_mem hlayer
  obtain ⟨hguarded, -, hrules, hnoted, -⟩ := passAll_eq_ok_iff.mp h
  obtain ⟨hread, hpermits⟩ := hrules (List.ne_nil_of_mem hrule)
  obtain ⟨found, hfound, hpermitted⟩ := hpermits _ hrule
  obtain ⟨outer, inner, rfl⟩ := List.append_of_mem hlayer
  have hauthenticates := List.mem_append_left (.authorize RuleName.selfOrAdmin :: inner)
    (hguarded outer _ inner rfl)
  rw [hclaims, if_pos hauthenticates, hfound] at hnoted
  obtain rfl : claims = found := Option.some.inj hnoted
  rw [AuthService.standard_permits_selfOrAdmin_iff, hadmin] at hpermitted
  exact Request.readable_and_acts_on_iff.mp ⟨hread, by simpa using hpermitted⟩

/-- Whoever is believed and is the user acted on reaches the handler. -/
theorem passAll_of_named_or_nil
    (h : ((AuthService.standard config source).authenticate around (headerText r) s).result =
      .ok claims)
    (hself : r.NamesUser claims.subject ∨ r.NamesNoUser ∧ claims.subject = UserId.nil) :
    (passAll (.standard config source) around r [.authenticate, .authorize RuleName.selfOrAdmin]
      .empty s).result = .ok ⟨some claims, r.named?⟩ := by
  obtain ⟨hread, hacts⟩ := Request.readable_and_acts_on_iff.mpr hself
  refine passAll_eq_ok_iff.mpr ⟨guarded_authenticate_cons _, fun _ => ⟨claims, h⟩,
    fun _ => ⟨hread, ?_⟩, ?_, rfl⟩
  · intro rule hrule
    obtain rfl := List.mem_singleton.mp hrule
    exact ⟨claims, h, AuthService.standard_permits_selfOrAdmin_iff.mpr (.inr hacts)⟩
  · rw [if_pos List.mem_cons_self, h]
    rfl

/-- On a route that names no user, a caller who is neither an administrator nor nil is turned away:
as forbidden, or because of a parameter that cannot be decoded. -/
theorem pass_selfOrAdmin_of_namesNoUser {route : Route} {uri : String}
    (hclaims : c.claims = some claims) (hadmin : claims.isAdmin = false)
    (hroute : route.Yields uri r.parameters) (hname : userParameter ∉ route.names)
    (hsubject : claims.subject ≠ UserId.nil) :
    (pass (.standard config source) around r (.authorize RuleName.selfOrAdmin) c s).result =
      .error (if r.parameters = .undecodable then .invalidId else .forbidden) := by
  by_cases hdecoded : r.parameters = .undecodable
  · rw [if_pos hdecoded]
    exact pass_authorize_of_unreadable hclaims fun hread => hread.1 hdecoded
  · rw [if_neg hdecoded]
    have hnone : r.parameters.find? userParameter = none := by
      rw [← Option.not_isSome_iff_eq_none, Route.find?_isSome_iff hroute hdecoded]
      exact hname
    have hread : r.Readable := ⟨hdecoded, fun text htext => by simp [hnone] at htext⟩
    refine pass_authorize_of_not_permits hclaims hread ?_
    rw [AuthService.standard_permits_selfOrAdmin_iff, hadmin, Request.named?, hnone]
    simpa using hsubject

/-- Where a route names a user, nil is no way around the name. -/
theorem not_namesNoUser_of_mem_names {route : Route} {uri : String}
    (hroute : route.Yields uri r.parameters) (hname : userParameter ∈ route.names) :
    ¬ r.NamesNoUser := by
  rintro ⟨hdecoded, hnone⟩
  have hsome := (Route.find?_isSome_iff hroute hdecoded).mpr hname
  rw [hnone] at hsome
  cases hsome

/-! ### Requests with a token -/

/-- A header shows the character as text. -/
def IsVisible (c : Char) : Prop :=
  0x20 ≤ c.toNat ∧ c.toNat ≤ 0x7E

/-- A header of visible characters is read as it is. -/
theorem headerText_utf8 {text : String} (h : ∀ c ∈ text.toList, IsVisible c)
    (parameters : PathParameters) : headerText ⟨[utf8 text], parameters⟩ = text := by
  have hascii : utf8 text = text.toList.map ascii := by
    rw [← String.ofList_toList (s := text), utf8_ofList_of_lt, String.ofList_toList]
    intro c hc
    have hvisible := (h c hc).2
    omega
  have hall : (utf8 text).all isHeaderByte = true := by
    rw [hascii, List.all_map, List.all_eq_true]
    intro c hc
    obtain ⟨hlow, hhigh⟩ := h c hc
    have hbyte := toNat_ascii (c := c) (by omega)
    have hwithin : 0x20 ≤ ascii c ∧ ascii c ≤ 0x7E := by
      rw [UInt8.le_iff_toNat_le, UInt8.le_iff_toNat_le, hbyte]
      exact ⟨hlow, hhigh⟩
    simp [isHeaderByte, hwithin]
  simp only [headerText, hall, if_true, Bytes.text?_utf8, Option.getD_some]

/-- The symbols of base64 are visible. -/
theorem isVisible_of_mem_encode {b : Bytes} {c : Char}
    (hc : c ∈ Base64.Alphabet.urlSafe.encode b) : IsVisible c := by
  have hsymbols : ∀ n < 64, IsVisible (Base64.Alphabet.urlSafe.symbol n) := by
    unfold IsVisible
    decide
  have hsome := Base64.Alphabet.isSome_value?_of_decode (Token.decodeSegment_encode b) hc
  obtain ⟨n, hn⟩ := Option.isSome_iff_exists.mp hsome
  obtain ⟨hlt, rfl⟩ := Base64.Alphabet.symbol_of_value? hn
  exact hsymbols n hlt

/-- A request that presents a token. -/
def requestWith (token : String) (parameters : PathParameters) : Request :=
  ⟨[utf8 (Fixtures.bearer token)], parameters⟩

/-- A signed token is presented as it is. -/
theorem headerText_requestWith {p : KeyPair} {kid token : String} (h : p.Signs claims kid token)
    (parameters : PathParameters) :
    headerText (requestWith token parameters) = Fixtures.bearer token := by
  refine headerText_utf8 ?_ parameters
  obtain ⟨signature, rfl, -⟩ := h
  have hbearer : ∀ c ∈ "Bearer ".toList, IsVisible c := by
    have hlist : "Bearer ".toList = ['B', 'e', 'a', 'r', 'e', 'r', ' '] := rfl
    simp [hlist, IsVisible]
  have hdot : IsVisible '.' := by
    unfold IsVisible
    decide
  intro c hc
  rw [Fixtures.bearer, String.toList_append, Token.toList_issued] at hc
  simp only [Token.Segments.message, Token.issuedSegments, List.mem_append, List.mem_cons] at hc
  rcases hc with hc | (hc | rfl | hc) | rfl | hc
  · exact hbearer c hc
  · exact isVisible_of_mem_encode hc
  · exact hdot
  · exact isVisible_of_mem_encode hc
  · exact hdot
  · exact isVisible_of_mem_encode hc

/-! ### Main statement -/

/-- Who gets through a layer that asks for the caller to be the user acted on, without being an
administrator.  The path names the caller, or it names no user and the caller is nil; the same holds
of everyone who reaches a handler behind such a layer, whatever the other layers.  On a route that
names users, it is the name that counts, for nil as well.  On any other route a caller who is not
nil is answered that this is forbidden, or that the id is invalid if there is a parameter that
cannot be decoded. -/
theorem selfOrAdmin_iff_named_or_nil (hadmin : claims.isAdmin = false) :
    (∀ c : Context, c.claims = some claims →
      ((∃ passed, (pass (.standard config source) around r (.authorize RuleName.selfOrAdmin) c
          s).result = .ok passed) ↔
        r.NamesUser claims.subject ∨ r.NamesNoUser ∧ claims.subject = UserId.nil) ∧
      ∀ {route : Route} {uri : String}, route.Yields uri r.parameters →
        (userParameter ∈ route.names →
          ((∃ passed, (pass (.standard config source) around r
              (.authorize RuleName.selfOrAdmin) c s).result = .ok passed) ↔
            r.NamesUser claims.subject)) ∧
        (userParameter ∉ route.names → claims.subject ≠ UserId.nil →
          ∃ rejection, (pass (.standard config source) around r
              (.authorize RuleName.selfOrAdmin) c s).result = .error rejection ∧
            rejection.status = if r.parameters = .undecodable then 400 else 403)) ∧
    ∀ {layers : List Layer} {passed : Context}, .authorize RuleName.selfOrAdmin ∈ layers →
      (passAll (.standard config source) around r layers .empty s).result = .ok passed →
        passed.claims = some claims →
          r.NamesUser claims.subject ∨ r.NamesNoUser ∧ claims.subject = UserId.nil := by
  constructor
  · intro c hclaims
    refine ⟨pass_selfOrAdmin_isOk_iff hclaims hadmin, ?_⟩
    intro route uri hroute
    constructor
    · intro hname
      rw [pass_selfOrAdmin_isOk_iff hclaims hadmin]
      simp [not_namesNoUser_of_mem_names hroute hname]
    · intro hname hsubject
      refine ⟨_, pass_selfOrAdmin_of_namesNoUser hclaims hadmin hroute hname hsubject, ?_⟩
      split <;> rfl
  · intro layers passed hlayer h hclaims
    exact named_or_nil_of_passAll hlayer h hclaims hadmin

/-- A user gets through where the path names this user, and is forbidden what names none. -/
theorem selfOrAdmin_iff_named_or_nil_of_user :
    ∃ token passed rejection,
      (passAll (.standard Fixtures.config KeyStore.source) ⟨1700003600, false⟩
        (requestWith token (.decoded [(userParameter, Fixtures.user.id.toText)]))
        [.authenticate, .authorize RuleName.selfOrAdmin] .empty AuthService.cachedState).result =
          .ok passed ∧
      passed.claims = some (Fixtures.freshUserClaims 1700000000) ∧
      (requestWith token (.decoded [(userParameter, Fixtures.user.id.toText)])).NamesUser
        Fixtures.user.id ∧
      (Route.ofText "/feed").Yields "/feed" (.decoded []) ∧
      (pass (.standard Fixtures.config KeyStore.source) ⟨1700003600, false⟩
        (requestWith token (.decoded [])) (.authorize RuleName.selfOrAdmin)
        ⟨some (Fixtures.freshUserClaims 1700000000), none⟩ AuthService.cachedState).result =
          .error rejection ∧
      rejection.status = 403 := by
  have hwindow : Token.InWindow (Fixtures.freshUserClaims 1700000000) none Duration.zero
      1700003600 := Token.inWindow_at_end (by decide)
  obtain ⟨token, hsigns, -, hauthenticates⟩ := AuthService.exists_authenticate hwindow
  rw [← headerText_requestWith hsigns (.decoded [(userParameter, Fixtures.user.id.toText)])]
    at hauthenticates
  have hadmin : (Fixtures.freshUserClaims 1700000000).isAdmin = false := by decide
  have hnames : (requestWith token (.decoded [(userParameter, Fixtures.user.id.toText)])).NamesUser
      Fixtures.user.id := ⟨Fixtures.user.id.toText, rfl, UserId.parse?_toText _⟩
  have hpassed : (passAll (.standard Fixtures.config KeyStore.source) ⟨1700003600, false⟩
      (requestWith token (.decoded [(userParameter, Fixtures.user.id.toText)]))
      [.authenticate, .authorize RuleName.selfOrAdmin] .empty AuthService.cachedState).result =
        .ok ⟨some (Fixtures.freshUserClaims 1700000000), _⟩ :=
    passAll_of_named_or_nil hauthenticates (.inl hnames)
  have hself := (selfOrAdmin_iff_named_or_nil hadmin).2 (by decide) hpassed rfl
  have hnamed := hself.resolve_right fun h => absurd h.2 (by decide)
  have hroute : (Route.ofText "/feed").Yields "/feed"
      (requestWith token (.decoded [])).parameters :=
    ⟨[], by decide +kernel, rfl⟩
  obtain ⟨-, hlayer⟩ := (selfOrAdmin_iff_named_or_nil hadmin).1
    ⟨some (Fixtures.freshUserClaims 1700000000), none⟩ rfl
  obtain ⟨rejection, hrejection, hstatus⟩ := (hlayer hroute).2 (by decide) (by decide)
  exact ⟨token, _, rejection, hpassed, rfl, hnamed, hroute, hrejection, hstatus⟩

/-- The claims of nobody, who is nil and logged in for an hour. -/
def nobodyClaims : Claims :=
  Claims.ofLogin ⟨UserId.nil, "nobody"⟩ [.user] Claims.loginLifetime 1700000000

/-- Nobody gets through without being named, though no administrator, and a user is not forbidden
what has a parameter that cannot be decoded but answered that the id is invalid. -/
theorem nobody_reaches_handler_unnamed :
    (∃ token,
      (passAll (.standard Fixtures.config KeyStore.source) ⟨1700003600, false⟩
        (requestWith token (.decoded [])) [.authenticate, .authorize RuleName.selfOrAdmin] .empty
        AuthService.cachedState).result = .ok ⟨some nobodyClaims, none⟩ ∧
      nobodyClaims.isAdmin = false ∧
      (Route.ofText "/feed").Yields "/feed" (.decoded []) ∧
      ¬ (requestWith token (.decoded [])).NamesUser nobodyClaims.subject) ∧
    ∃ rejection,
      (Route.ofText "/items/:item_id").Yields "/items/%FF" .undecodable ∧
      userParameter ∉ (Route.ofText "/items/:item_id").names ∧
      (pass (.standard Fixtures.config KeyStore.source) ⟨1700003600, false⟩ ⟨[], .undecodable⟩
        (.authorize RuleName.selfOrAdmin) ⟨some (Fixtures.freshUserClaims 1700000000), none⟩
        AuthService.cachedState).result = .error rejection ∧
      rejection.status = 400 := by
  constructor
  · have hwindow : Token.InWindow nobodyClaims none Duration.zero 1700003600 :=
      Token.inWindow_at_end (by decide)
    obtain ⟨token, hsigns, -, hauthenticates⟩ := AuthService.exists_authenticate hwindow
    rw [← headerText_requestWith hsigns (.decoded [])] at hauthenticates
    have hnobody : (requestWith token (.decoded [])).NamesNoUser ∧
        nobodyClaims.subject = UserId.nil := ⟨⟨nofun, rfl⟩, rfl⟩
    refine ⟨token, passAll_of_named_or_nil hauthenticates (.inr hnobody), by decide,
      ⟨[], by decide +kernel, rfl⟩, ?_⟩
    rintro ⟨text, htext, -⟩
    cases htext
  · exact ⟨.invalidId, ⟨[("item_id", utf8 "%FF")], by decide +kernel, by decide +kernel⟩,
      by decide +kernel, pass_authorize_of_unreadable rfl fun hread => hread.1 rfl, rfl⟩

end Gateway

end BearerAuth
