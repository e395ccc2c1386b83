import TraustLedger.Proofs.CredentialFiles

namespace LedgerProof

open Python Runs LedgerModel GuardedCalls

variable {PrivateKey Key : Type}

def ChecksIssuer (jwt : Jwt PrivateKey Key) : Prop :=
  ∀ key issuer audience token claims, jwt.decode key (.str issuer) audience token = .ok claims →
    claims.get "iss" = .str issuer

/-- The issuers the operator named, in the environment of a command or with `ledger config set --issuer`. -/
def NamedIssuer (processes : List (Process PrivateKey Key)) (env : AuthEnv PrivateKey Key) (issuer : String) : Prop :=
  env.environ "LEDGER_OIDC_ISSUER" = some issuer ∨ ∃ process ∈ processes,
    process.env.environ "LEDGER_OIDC_ISSUER" = some issuer ∨
      ∃ server clientId, process.command = .configSet server (some issuer) clientId

def Issued (issuers : String → Prop) (value : Json) : Prop :=
  value = .null ∨ ∃ issuer, issuers issuer ∧ value = .str issuer

def TracedConfig (issuers : String → Prop) (config : Dict) : Prop := Issued issuers (config.get "issuer")

def TracedCredential (issuers : String → Prop) (creds : Dict) : Prop :=
  creds.get "issuer" = .str localIssuer ∨ Issued issuers (creds.get "issuer")

section Traces

variable {issuers : String → Prop} {env : AuthEnv PrivateKey Key}

theorem getOr_issued {name : String} {other : Json} (named : ∀ value, env.environ name = some value → issuers value)
    (held : Issued issuers other) : Issued issuers (env.getOr name other) := by
  unfold AuthEnv.getOr AuthEnv.get
  cases found : env.environ name with
  | none => exact held
  | some value =>
    simp only [Option.getD_some]
    split
    · exact .inr ⟨value, named value found, rfl⟩
    · exact held

theorem issued_str {issuer : String} (held : Issued issuers (.str issuer)) : issuers issuer := by
  rcases held with absent | ⟨other, named, same⟩
  · cases absent
  · cases same
    exact named

theorem keeping_traced {process : Process PrivateKey Key}
    (named : ∀ issuer, process.env.environ "LEDGER_OIDC_ISSUER" = some issuer → issuers issuer)
    (configured : ∀ server issuer clientId, process.command = .configSet server (some issuer) clientId →
      issuers issuer) :
    Keeping (TracedConfig issuers) (TracedCredential issuers) process where
  activates config host held := by simpa [TracedConfig] using held
  configures server issuer clientId ran config held := by
    cases issuer with
    | none => cases server <;> cases clientId <;> simpa [TracedConfig, setWhenNamed] using held
    | some issuer =>
      have known := configured server issuer clientId ran
      have set : (setWhenNamed (setWhenNamed (setWhenNamed config "server_url" server) "issuer" (some issuer))
          "client_id" clientId).get "issuer" = .str issuer := by
        cases server <;> cases clientId <;> simp [setWhenNamed]
      exact .inr ⟨issuer, known, set⟩
  remembers asked machine human ran config identity held _ _ := by
    simpa [TracedConfig, rememberedConfig] using held
  imports text := .inr (.inl (by simp [Dict.ofList, Dict.update]))
  logsIn config held response expiresAt issuer clientId data issued built := by
    have known : issuers issuer := issued_str (issued ▸ getOr_issued named held)
    obtain ⟨token, _, rest⟩ := bind_ok_iff.mp built
    cases rest
    exact .inr (.inr ⟨issuer, known, by simp [Dict.ofList, Dict.update]⟩)
  serves config held response expiresAt issuer clientId issued := by
    have known : issuers issuer := issued_str (issued ▸ getOr_issued named held)
    exact .inr (.inr ⟨issuer, known, by simp [serviceCredential, Dict.ofList, Dict.update]⟩)
  renews creds held response expiresAt data built := by
    obtain ⟨token, _, rest⟩ := bind_ok_iff.mp built
    cases rest
    unfold TracedCredential at held ⊢
    split <;> simpa using held
  mints token expiresAt := .inl (by simp [localCredential, Dict.ofList, Dict.update, localIssuer])

end Traces

section Verifiers

variable {env : AuthEnv PrivateKey Key} {verifier : TokenVerifier Key} {config : VerifierConfig Key} {token : String}
  {claims : Dict} {actor : TokenActor}

theorem mapError_ok {ε δ α : Type} {x : Except ε α} {f : ε → δ} {value : α} (same : x.mapError f = .ok value) :
    x = .ok value := by
  cases x with
  | error _ => cases same
  | ok _ =>
    cases same
    rfl

theorem verify_ok (accepted : verifier.verify env token = .ok actor) :
    ∃ key claims, verifier.resolveSigningKey env token = .ok key ∧
      env.jwt.decode key (orElse verifier.config.issuer .null) (orElse verifier.config.audience .null) token =
        .ok claims ∧
      claimsToActor env claims verifier.config.machineClaim verifier.config.identityClaim
        (orElse verifier.config.issuer (.str "")) = .ok actor := by
  obtain ⟨claims, decoded, mapped⟩ := bind_ok_iff.mp accepted
  obtain ⟨key, resolved, checked⟩ := bind_ok_iff.mp (mapError_ok decoded)
  exact ⟨key, claims, resolved, checked, mapped⟩

theorem build_ok (built : TokenVerifier.build config = .ok verifier) :
    verifier.config = config ∧ TokenVerifier.readLocalKeys config.jwksFile = .ok verifier.localKeys := by
  obtain ⟨keys, read, rest⟩ := bind_ok_iff.mp built
  have same := gate_passed rest
  cases same
  exact ⟨rfl, read⟩

theorem remote_key {key : Key} (remote : verifier.localKeys = [])
    (resolved : verifier.resolveSigningKey env token = .ok key) :
    env.signingKey verifier.config.jwksUrl token = .ok key := by
  rw [TokenVerifier.resolveSigningKey, remote] at resolved
  simp only at resolved
  split at resolved
  · exact resolved
  · cases resolved

theorem claimsToActor_ok {machineClaim identityClaim : String} {fallback : Json}
    (mapped : claimsToActor env claims machineClaim identityClaim fallback = .ok actor) :
    ∃ kind identity, claimedIdentity claims machineClaim identityClaim = .ok (kind, identity) ∧
      actor.kind = kind ∧ actor.identity = some identity ∧
      actor.identityVerified = some (if pyStr (orElse (claims.get "iss") fallback) == localIssuer
        then localIdentityTrusted env else true) := by
  obtain ⟨⟨kind, identity⟩, claimed, rest⟩ := bind_ok_iff.mp mapped
  cases rest
  exact ⟨kind, identity, claimed, rfl, rfl, rfl⟩

theorem isVerified_eq {checked : Bool} (stamped : actor.identityVerified = some checked) :
    isVerified actor.toLayerActor = checked := by
  simp [isVerified, stamped]

theorem local_not_verified (checks : ChecksIssuer env.jwt) (untrusting : localIdentityTrusted env = false)
    (issued : verifier.config.issuer = .str localIssuer) (accepted : verifier.verify env token = .ok actor) :
    isVerified actor.toLayerActor = false := by
  obtain ⟨key, claims, _, decoded, mapped⟩ := verify_ok accepted
  rw [issued] at decoded mapped
  have named : claims.get "iss" = .str localIssuer := checks key localIssuer _ token claims decoded
  obtain ⟨kind, identity, _, _, _, stamped⟩ := claimsToActor_ok mapped
  have checked := isVerified_eq stamped
  rw [named] at checked
  rw [checked, untrusting]
  rfl

end Verifiers

/-- The issuer a token is checked for: one the operator named, or none where an address for the keys is configured and
    no issuer is. -/
def ExpectedIssuer (env : AuthEnv PrivateKey Key) (issuers : String → Prop) (issuer : Json) : Prop :=
  (∃ named, issuers named ∧ issuer = .str named) ∨
    (issuer = .null ∧ env.get "LEDGER_OIDC_ISSUER" = "" ∧ env.get "LEDGER_OIDC_JWKS_URL" ≠ "")

/-- What stands behind an actor: a key that the configured provider publishes checked the token, for the issuer that
    is expected, and the actor is what its claims say. -/
structure Vouched (env : AuthEnv PrivateKey Key) (issuers : String → Prop) (token : String) (actor : TokenActor) :
    Prop where
  checked : ∃ jwksUrl issuer key claims,
    ((env.get "LEDGER_OIDC_JWKS_URL" ≠ "" ∧ jwksUrl = .str (env.get "LEDGER_OIDC_JWKS_URL")) ∨
      ∃ named metadata, issuers named ∧ discoverOidc env named = .ok metadata ∧ jwksUrl = metadata.jwksUri) ∧
    ExpectedIssuer env issuers issuer ∧ env.signingKey jwksUrl token = .ok key ∧
    env.jwt.decode key issuer (env.getOr "LEDGER_OIDC_AUDIENCE" .null) token = .ok claims ∧
    claimsToActor env claims "azp" "email" (orElse issuer (.str "")) = .ok actor

section Providers

variable {env : AuthEnv PrivateKey Key} {issuers : String → Prop} {verifier : TokenVerifier Key} {token : String}
  {actor : TokenActor}

theorem orElse_orElse_null (value other : Json) : orElse (orElse value .null) other = orElse value other := by
  have empty : Json.null.truthy = false := rfl
  unfold orElse
  cases set : value.truthy <;> simp [set, empty]

theorem getOr_orElse (name : String) : orElse (env.getOr name .null) .null = env.getOr name .null := by
  unfold orElse AuthEnv.getOr
  split
  · next set => simp [Json.truthy, set]
  · rfl

theorem oidcIssuerOf_issued {trusted : Json}
    (named : ∀ issuer, env.environ "LEDGER_OIDC_ISSUER" = some issuer → issuers issuer)
    (held : Issued issuers trusted) : Issued issuers (oidcIssuerOf env trusted) := by
  unfold oidcIssuerOf orElse
  split
  · exact held
  · exact getOr_issued named (.inl rfl)

theorem oidcJwksUrl_published {issuer url : Json} (held : Issued issuers issuer)
    (found : oidcJwksUrl env issuer = .ok url) :
    (env.get "LEDGER_OIDC_JWKS_URL" ≠ "" ∧ url = .str (env.get "LEDGER_OIDC_JWKS_URL")) ∨
      ∃ named metadata, issuers named ∧ discoverOidc env named = .ok metadata ∧ url = metadata.jwksUri := by
  unfold oidcJwksUrl at found
  split at found
  · next set =>
    cases found
    exact .inl ⟨set, rfl⟩
  · split at found
    · rcases held with absent | ⟨named, known, same⟩
      · subst absent
        obtain ⟨_, failed, _⟩ := bind_ok_iff.mp found
        cases failed
      · subst same
        obtain ⟨metadata, discovered, rest⟩ := bind_ok_iff.mp found
        cases rest
        exact .inr ⟨named, metadata, known, discovered, rfl⟩
    · cases found

theorem oidcIssuerOf_expected {trusted url : Json} (held : Issued issuers (oidcIssuerOf env trusted))
    (found : oidcJwksUrl env (oidcIssuerOf env trusted) = .ok url) :
    ExpectedIssuer env issuers (orElse (oidcIssuerOf env trusted) .null) := by
  by_cases set : (oidcIssuerOf env trusted).truthy = true
  · left
    rw [orElse, if_pos set]
    rcases held with absent | ⟨named, known, same⟩
    · rw [absent] at set
      cases set
    · exact ⟨named, known, same⟩
  · right
    refine ⟨by rw [orElse, if_neg set], ?_, ?_⟩
    · by_contra configured
      apply set
      unfold oidcIssuerOf orElse AuthEnv.getOr
      split
      · assumption
      · simp [configured, Json.truthy]
    · intro unset
      rw [oidcJwksUrl, if_neg (not_not.mpr unset), if_neg set] at found
      cases found

theorem provider_vouches {trusted : Json}
    (named : ∀ issuer, env.environ "LEDGER_OIDC_ISSUER" = some issuer → issuers issuer)
    (held : Issued issuers trusted) (built : buildOidcVerifier env trusted = .ok verifier)
    (accepted : verifier.verify env token = .ok actor) : Vouched env issuers token actor := by
  obtain ⟨url, found, rest⟩ := bind_ok_iff.mp built
  obtain ⟨config, keys⟩ := build_ok rest
  have none : verifier.localKeys = [] := (Except.ok.inj keys).symm
  obtain ⟨key, claims, resolved, decoded, mapped⟩ := verify_ok accepted
  have signing := remote_key none resolved
  simp only [config] at signing decoded mapped
  have expected := oidcIssuerOf_issued named held
  refine ⟨url, orElse (oidcIssuerOf env trusted) .null, key, claims, oidcJwksUrl_published expected found,
    oidcIssuerOf_expected expected found, signing, ?_, ?_⟩
  · rwa [getOr_orElse] at decoded
  · rwa [orElse_orElse_null]

end Providers

theorem runProcesses_traced (processes : List (Process PrivateKey Key)) (env : AuthEnv PrivateKey Key) :
    Filed (TracedConfig (NamedIssuer processes env)) (TracedCredential (NamedIssuer processes env))
      (runProcesses Home.empty processes) := by
  apply runProcesses_filed
  · exact ⟨.inl rfl, fun host creds found => by cases found⟩
  · intro process member
    apply keeping_traced
    · intro issuer set
      exact .inr ⟨process, member, .inl set⟩
    · intro server issuer clientId ran
      exact .inr ⟨process, member, .inr ⟨server, clientId, ran⟩⟩

theorem paired_vouches {issuers : String → Prop} {env : AuthEnv PrivateKey Key} {actor : TokenActor}
    {credential : ResolvedCredential Key} (checks : ChecksIssuer env.jwt)
    (untrusting : localIdentityTrusted env = false)
    (named : ∀ issuer, env.environ "LEDGER_OIDC_ISSUER" = some issuer → issuers issuer)
    (paired : Paired env (TracedCredential issuers) credential.verifier)
    (accepted : credential.verify env = .ok actor) (verified : isVerified actor.toLayerActor = true) :
    ∃ token, Vouched env issuers token actor := by
  unfold ResolvedCredential.verify at accepted
  split at accepted
  · next token _ =>
    refine ⟨token, ?_⟩
    rcases paired with ⟨jwks, built⟩ | ⟨trusted, source, foreign, built⟩
    · have issued : credential.verifier.config.issuer = .str localIssuer := by rw [(build_ok built).1]
      have unverified := local_not_verified checks untrusting issued accepted
      rw [unverified] at verified
      cases verified
    · refine provider_vouches named ?_ built accepted
      rcases source with absent | ⟨creds, held, same⟩
      · exact .inl absent
      · subst same
        exact held.resolve_left foreign
  · cases accepted

/-- Whatever the commands before did, from an empty configuration directory on: an actor that counts as verified,
    where local identities are not trusted, was checked with a key of a provider the operator named. No token, stored
    or given, chooses who vouches for it. -/
theorem verified_by_named_provider {processes : List (Process PrivateKey Key)} {env : AuthEnv PrivateKey Key}
    {actor : TokenActor} (checks : ChecksIssuer env.jwt) (untrusting : localIdentityTrusted env = false)
    (served : (requireVerifiedActor env).result (runProcesses Home.empty processes) = .ok (some actor))
    (verified : isVerified actor.toLayerActor = true) :
    ∃ token, Vouched env (NamedIssuer processes env) token actor := by
  have traced := runProcesses_traced processes env
  obtain ⟨credential, paired, accepted⟩ := (requireVerifiedActor_filed _ traced).2 _ served actor rfl
  exact paired_vouches checks untrusting (fun issuer set => .inl set) paired accepted verified

section Login

def idpIssuer : String := "https://idp.example"

def idpClaims : Dict := Dict.ofList [("iss", .str idpIssuer), ("email", .str "Ana@Example.com"), ("sub", .str "7")]

def idpJwt : Jwt String String where
  peek token := if token = "ana.jwt" then some idpClaims else none
  keyId _ := return none
  decode key issuer _ token :=
    if key = "idp-key" ∧ token = "ana.jwt" then
      if issuer = .null ∨ issuer = .str idpIssuer then return idpClaims else .error .invalidIssuer
    else .error (.invalidToken "Signature verification failed")
  encode _ _ := ""
  publicKey key := key

def idpEnv : AuthEnv String String where
  environ _ := none
  jwt := idpJwt
  signingKey url _ := if url = .str "https://idp.example/keys" then return "idp-key" else .error (.jwkClient "no key")
  discovery url :=
    if url = "https://idp.example/.well-known/openid-configuration" then
      return Dict.ofList [("jwks_uri", .str "https://idp.example/keys"),
        ("token_endpoint", .str "https://idp.example/token")]
    else .error (.runtimeError "404 Not Found")
  readText path := .error (.osError path)
  seconds := 1700000000
  expired _ := return false
  later _ := return .int 1700003600
  freshKey := ""

def idpProvider : Provider where
  deviceCode _ _ := return Dict.ofList [("access_token", .str "ana.jwt"), ("expires_in", .int 3600)]
  clientCredentials _ _ _ := .error (.runtimeError "unauthorized_client")
  refreshGrant _ _ _ := .error (.runtimeError "invalid_grant")

def idpLogin : List (Process String String) :=
  [⟨idpEnv, idpProvider, .configSet none (some idpIssuer) (some "ledger-cli")⟩, ⟨idpEnv, idpProvider, .login none⟩]

def idpActor : TokenActor where
  kind := "human"
  identity := some "ana@example.com"
  identityVerified := some true
  identityProvider := some "oidc"
  employeeStatus := none
  ldapVerified := none
  identityIssuer := some idpIssuer
  identitySubject := some "7"

theorem idpJwt_checksIssuer : ChecksIssuer idpJwt := by
  intro key issuer audience token claims decoded
  simp only [idpJwt] at decoded
  split at decoded
  · split at decoded
    · next named =>
      cases decoded
      rcases named with absent | same
      · cases absent
      · rw [same]
        decide
    · cases decoded
  · cases decoded

theorem verified_by_named_provider_login :
    ∃ token, Vouched idpEnv (NamedIssuer idpLogin idpEnv) token idpActor :=
  verified_by_named_provider idpJwt_checksIssuer (by decide) (by decide +kernel) (by decide)

end Login

end LedgerProof
