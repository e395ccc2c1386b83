import TraustLedger.Auth.Callers
import TraustLedger.Proofs.ConfiguredProviders

namespace LedgerProof

open Python Runs LedgerModel

variable {PrivateKey Key : Type}

/-- PyJWT shows without a check what it accepts. -/
def ShowsUnverified (jwt : Jwt PrivateKey Key) : Prop :=
  ∀ key issuer audience token claims, jwt.decode key issuer audience token = .ok claims → jwt.peek token = some claims

def Configured (loads : String → Except String Json) (config : IdentityConfig) (jwksUrl issuer audience : Json) :
    Prop :=
  (strip config.oidcTrust = "" ∧ jwksUrl = settingJson config.oidcJwksUrl ∧ issuer = settingJson config.oidcIssuer ∧
    audience = settingJson config.oidcAudience) ∨
  ∃ items fields, loads (strip config.oidcTrust) = .ok (.arr items) ∧ .obj fields ∈ items ∧
    jwksUrl = Dict.get fields "jwks_url" ∧ issuer = Dict.get fields "issuer" ∧ audience = Dict.get fields "audience"

/-- An entry that was built for a configured issuer, and for its keys alone. -/
structure BuiltFor (loads : String → Except String Json) (config : IdentityConfig) (entry : TrustEntry Key) : Prop where
  configured : Configured loads config entry.verifier.config.jwksUrl entry.issuer entry.verifier.config.audience
  issuer : entry.verifier.config.issuer = entry.issuer
  machineClaim : entry.verifier.config.machineClaim = config.oidcMachineClaim
  identityClaim : entry.verifier.config.identityClaim = config.oidcIdentityClaim
  remote : entry.verifier.localKeys = []

section Starting

variable {loads : String → Except String Json} {config : IdentityConfig} {trust : List (TrustEntry Key)}

theorem trustEntry_built {jwksUrl issuer audience : Json} {entry : TrustEntry Key}
    (built : trustEntry config jwksUrl issuer audience = .ok entry)
    (configured : Configured loads config jwksUrl issuer audience) : BuiltFor loads config entry := by
  obtain ⟨verifier, made, rest⟩ := bind_ok_iff.mp built
  cases rest
  obtain ⟨same, keys⟩ := build_ok made
  refine ⟨?_, by rw [same], by rw [same], by rw [same], (Except.ok.inj keys).symm⟩
  rw [same]
  exact configured

theorem listedEntry_built {items : List Json} {item : Json × Nat} {entry : TrustEntry Key}
    (listed : loads (strip config.oidcTrust) = .ok (.arr items)) (member : item.1 ∈ items)
    (built : listedEntry config item = .ok entry) : BuiltFor loads config entry := by
  unfold listedEntry at built
  split at built
  · next fields same =>
    rw [same] at member
    exact trustEntry_built (gate_passed built) (.inr ⟨items, fields, listed, member, rfl, rfl, rfl⟩)
  · cases built

theorem oidcAdapter_ok {entries : List (TrustEntry Key)} (started : oidcAdapter entries = .ok trust) :
    entries = trust := by
  have rest := gate_passed (gate_passed started)
  cases rest
  rfl

theorem fromConfig_built (started : fromConfig loads config = .ok trust) :
    ∀ entry ∈ trust, BuiltFor loads config entry := by
  unfold fromConfig at started
  simp only at started
  split at started
  · next unset =>
    obtain ⟨entry, built, rest⟩ := bind_ok_iff.mp (gate_passed started)
    cases oidcAdapter_ok rest
    intro other member
    rw [List.mem_singleton] at member
    subst member
    exact trustEntry_built built (.inl ⟨unset, rfl, rfl, rfl⟩)
  · obtain ⟨items, read, rest⟩ := bind_ok_iff.mp started
    have listed := mapError_ok read
    split at rest
    · next first others =>
      obtain ⟨entries, built, rest⟩ := bind_ok_iff.mp rest
      cases oidcAdapter_ok (gate_passed rest)
      intro entry member
      obtain ⟨item, numbered, made⟩ := mem_of_mapM built member
      exact listedEntry_built listed (List.fst_mem_of_mem_zipIdx numbered) made
    · cases rest

end Starting

section Selecting

variable {env : AuthEnv PrivateKey Key} {trust : List (TrustEntry Key)} {token : String} {entry : TrustEntry Key}

theorem entryForToken_ok (selected : entryForToken env trust token = .ok entry) :
    entry ∈ trust ∧ ((trust.length = 1 ∧ entry.issuer = .null) ∨
      ∃ claims, env.jwt.peek token = some claims ∧ Json.pyEq entry.issuer (claims.get "iss") = true) := by
  have named : ∀ {found}, namedEntry env trust token = .ok found → found ∈ trust ∧ ∃ claims,
      env.jwt.peek token = some claims ∧ Json.pyEq found.issuer (claims.get "iss") = true := by
    intro found looked
    unfold namedEntry at looked
    split at looked
    · cases looked
    · next claims shown =>
      replace looked := gate_passed looked
      split at looked
      · cases looked
      · next last =>
        cases looked
        obtain ⟨member, kept⟩ := List.mem_filter.mp (List.mem_of_getLast? last)
        rw [Bool.and_eq_true] at kept
        exact ⟨member, claims, shown, kept.2⟩
  unfold entryForToken at selected
  split at selected
  · next sole =>
    split at selected
    · next any =>
      cases selected
      exact ⟨List.mem_singleton_self _, .inl ⟨rfl, any⟩⟩
    · exact ⟨(named selected).1, .inr (named selected).2⟩
  · exact ⟨(named selected).1, .inr (named selected).2⟩

end Selecting

/-- Whatever the settings, a token the service accepts was checked with a key that one configured issuer publishes,
    for that issuer and its audience, and the token names that issuer: the keys of one issuer never vouch for a token
    of another. Only a sole entry without an issuer takes tokens of any. -/
theorem accepted_by_own_issuer {env : AuthEnv PrivateKey Key} {loads : String → Except String Json}
    {config : IdentityConfig} {trust : List (TrustEntry Key)} {token : String} {actor : TokenActor}
    (shows : ShowsUnverified env.jwt) (started : fromConfig loads config = .ok trust)
    (accepted : verifyToken env trust token = .ok actor) :
    ∃ jwksUrl issuer audience key claims, Configured loads config jwksUrl issuer audience ∧
      env.signingKey jwksUrl token = .ok key ∧
      env.jwt.decode key (orElse issuer .null) (orElse audience .null) token = .ok claims ∧
      claimsToActor env claims config.oidcMachineClaim config.oidcIdentityClaim (orElse issuer (.str "")) =
        .ok actor ∧
      ((trust.length = 1 ∧ issuer = .null) ∨ Json.pyEq issuer (claims.get "iss") = true) := by
  obtain ⟨entry, selected, verified⟩ := bind_ok_iff.mp accepted
  obtain ⟨member, chosen⟩ := entryForToken_ok selected
  have built := fromConfig_built started entry member
  obtain ⟨key, claims, resolved, decoded, mapped⟩ := verify_ok (mapError_ok verified)
  have signing := remote_key built.remote resolved
  rw [built.issuer] at decoded mapped
  rw [built.machineClaim, built.identityClaim] at mapped
  refine ⟨_, entry.issuer, _, key, claims, built.configured, signing, decoded, mapped, ?_⟩
  rcases chosen with sole | ⟨shown, peeked, same⟩
  · exact .inl sole
  · rw [shows key _ _ token claims decoded, Option.some.injEq] at peeked
    rw [peeked]
    exact .inr same

section TwoIssuers

def otherIssuer : Json := .obj (Dict.ofList [("issuer", .str "https://other.example"),
  ("jwks_url", .str "https://other.example/keys")])

def twoIssuers : Json :=
  .arr [.obj (Dict.ofList [("issuer", .str idpIssuer), ("jwks_url", .str "https://idp.example/keys")]), otherIssuer]

def twoIssuersText : String :=
  "[\x7b\"issuer\":\"https://idp.example\",\"jwks_url\":\"https://idp.example/keys\"\x7d," ++
    "\x7b\"issuer\":\"https://other.example\",\"jwks_url\":\"https://other.example/keys\"\x7d]"

def twoLoads (text : String) : Except String Json :=
  if text = twoIssuersText then return twoIssuers else .error "Expecting value"

def twoConfig : IdentityConfig := ⟨twoIssuersText, none, none, none, "azp", "email", [], 0⟩

def twoTrust : List (TrustEntry String) :=
  match fromConfig twoLoads twoConfig with
  | .ok trust => trust
  | .error _ => []

theorem fromConfig_twoConfig : fromConfig twoLoads twoConfig = .ok twoTrust := by
  have reads : (fromConfig twoLoads twoConfig : Authed (List (TrustEntry String))).isOk = true := by decide +kernel
  obtain ⟨trust, read⟩ := exists_of_isOk reads
  unfold twoTrust
  rw [read]

theorem idpJwt_showsUnverified : ShowsUnverified idpJwt := by
  intro key issuer audience token claims decoded
  simp only [idpJwt] at decoded ⊢
  split at decoded
  · next held =>
    split at decoded
    · cases decoded
      rw [if_pos held.2]
    · cases decoded
  · cases decoded

theorem accepted_by_own_issuer_idp :
    ∃ jwksUrl issuer audience key claims, Configured twoLoads twoConfig jwksUrl issuer audience ∧
      idpEnv.signingKey jwksUrl "ana.jwt" = .ok key ∧
      idpEnv.jwt.decode key (orElse issuer .null) (orElse audience .null) "ana.jwt" = .ok claims ∧
      claimsToActor idpEnv claims "azp" "email" (orElse issuer (.str "")) = .ok idpActor ∧
      ((twoTrust.length = 1 ∧ issuer = .null) ∨ Json.pyEq issuer (claims.get "iss") = true) :=
  accepted_by_own_issuer idpJwt_showsUnverified fromConfig_twoConfig (by decide +kernel)

end TwoIssuers

end LedgerProof
