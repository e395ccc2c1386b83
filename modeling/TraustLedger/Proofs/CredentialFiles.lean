import TraustLedger.Auth.Commands

namespace LedgerProof

open Python Runs LedgerModel GuardedCalls

variable {PrivateKey Key : Type}

structure Filed (configOk credsOk : Dict → Prop) (home : Home PrivateKey Key) : Prop where
  config : configOk home.config
  credentials : ∀ host creds, home.credentials.get host = .obj creds → credsOk creds

/-- What a command writes keeps the conditions, one field for each kind of write. -/
structure Keeping (configOk credsOk : Dict → Prop) (process : Process PrivateKey Key) : Prop where
  activates : ∀ config host, configOk config → configOk (config.set "active_server" host)
  configures : ∀ server issuer clientId, process.command = .configSet server issuer clientId →
    ∀ config, configOk config → configOk (setWhenNamed (setWhenNamed (setWhenNamed config "server_url" server)
      "issuer" issuer) "client_id" clientId)
  remembers : ∀ asked machine human, process.command = .localToken asked machine human → ∀ config identity,
    configOk config → textOr asked (config.get "local_identity") = .str identity → ¬ (machine = true ∧ human = true) →
    configOk (rememberedConfig config (localName identity (localMachine config asked identity machine human))
      (localMachine config asked identity machine human))
  imports : ∀ text, credsOk (Dict.ofList [("access_token", .str text)])
  logsIn : ∀ config, configOk config → ∀ response expiresAt issuer clientId data,
    process.env.getOr "LEDGER_OIDC_ISSUER" (config.get "issuer") = .str issuer →
    deviceCredential response expiresAt issuer clientId = .ok data → credsOk data
  serves : ∀ config, configOk config → ∀ response expiresAt issuer clientId,
    process.env.getOr "LEDGER_OIDC_ISSUER" (config.get "issuer") = .str issuer →
    credsOk (serviceCredential response expiresAt issuer clientId)
  renews : ∀ creds, credsOk creds → ∀ response expiresAt data,
    refreshedCredential creds response expiresAt = .ok data → credsOk data
  mints : ∀ token expiresAt, credsOk (localCredential token expiresAt)

section Files

variable {configOk credsOk : Dict → Prop} {env : AuthEnv PrivateKey Key}

theorem loadConfig_filed : Ensures (Filed configOk credsOk) (loadConfig : Cli PrivateKey Key Dict) configOk :=
  Ensures.read fun _ filed => filed.config

theorem saveConfig_filed {data : Dict} (kept : configOk data) :
    Ensures (Filed configOk credsOk) (saveConfig data : Cli PrivateKey Key Unit) fun _ => True := by
  apply Ensures.write
  intro home filed
  exact ⟨kept, filed.credentials⟩

theorem activeHost_filed : Ensures (Filed configOk credsOk) (activeHost env) fun _ => True := by
  apply Ensures.bind loadConfig_filed
  intro config _
  exact Ensures.pure trivial

theorem loadCredentials_filed :
    Ensures (Filed configOk credsOk) (loadCredentials env) fun stored =>
      ∀ creds, stored = .obj creds → credsOk creds := by
  apply Ensures.bind activeHost_filed
  intro host _
  apply Ensures.ite
  · intro _
    apply Ensures.pure
    intro creds same
    cases same
  · intro _
    -- the credentials are read as a whole, and only then looked up
    have held : Ensures (Filed configOk credsOk) (loadAllCredentials : Cli PrivateKey Key Dict) fun credentials =>
        ∀ name creds, credentials.get name = .obj creds → credsOk creds :=
      Ensures.read fun _ filed => filed.credentials
    apply Ensures.bind held
    intro credentials kept
    apply Ensures.ofExcept
    intro stored found creds same
    subst same
    cases host with
    | str name => exact kept name creds (Except.ok.inj found)
    | _ => cases found

theorem saveCredentials_filed {data : Dict} {host : Json} (kept : credsOk data) :
    Ensures (Filed configOk credsOk) (saveCredentials env data host) fun _ => True := by
  apply Ensures.bind activeHost_filed
  intro active _
  cases orElse host active with
  | str name =>
    apply Ensures.bind Ensures.outcome
    intro _ _
    apply Ensures.write
    intro home filed
    refine ⟨filed.config, ?_⟩
    intro other creds found
    simp only [Dict.get_set] at found
    split at found
    · cases found
      exact kept
    · exact filed.credentials other creds found
  | _ => exact Ensures.ofExcept fun _ _ => trivial

theorem writeJwks_filed (key : PrivateKey) : Ensures (Filed configOk credsOk) (writeJwks env key) fun _ => True := by
  apply Ensures.write
  intro home filed
  exact ⟨filed.config, filed.credentials⟩

theorem ensureLocalKeypair_filed : Ensures (Filed configOk credsOk) (ensureLocalKeypair env) fun _ => True := by
  apply Ensures.bind Ensures.seen
  intro stored _
  cases stored with
  | none =>
    apply Ensures.bind (Ensures.write fun _ filed => ⟨filed.config, filed.credentials⟩)
    intro _ _
    apply Ensures.bind (writeJwks_filed env.freshKey)
    intro _ _
    exact Ensures.pure trivial
  | some loaded =>
    apply Ensures.bind Ensures.outcome
    intro key _
    apply Ensures.bind Ensures.seen
    intro jwks _
    apply Ensures.ite
    · intro _
      apply Ensures.bind (writeJwks_filed key)
      intro _ _
      exact Ensures.pure trivial
    · intro _
      exact Ensures.pure trivial

theorem autoMintLocalToken_filed : Ensures (Filed configOk credsOk) (autoMintLocalToken env) fun _ => True := by
  apply Ensures.ite
  · intro _
    exact Ensures.pure trivial
  · intro _
    apply Ensures.bind loadConfig_filed
    intro config _
    apply Ensures.bind ensureLocalKeypair_filed
    intro key _
    apply Ensures.bind Ensures.outcome
    intro token _
    exact Ensures.pure trivial

theorem activate_filed {config : Dict} {host : Json} {credential : Authed Dict}
    (active : configOk (config.set "active_server" host)) (kept : ∀ data, credential = .ok data → credsOk data) :
    Ensures (Filed configOk credsOk) (activate env config host credential) fun _ => True := by
  apply Ensures.bind (saveConfig_filed active)
  intro _ _
  apply Ensures.bind Ensures.outcome
  intro data found
  apply Ensures.bind (saveCredentials_filed (kept data found))
  intro _ _
  exact Ensures.pure trivial

/-- The verifier a token is paired with: that of the local key set, or that of the configured provider, where the
    only issuer that can stand in for the configured one is that of a stored credential. -/
def Paired (env : AuthEnv PrivateKey Key) (credsOk : Dict → Prop) (verifier : TokenVerifier Key) : Prop :=
  (∃ jwks, TokenVerifier.build { jwksFile := jwks, issuer := .str localIssuer } = .ok verifier) ∨
    ∃ trusted, (trusted = .null ∨ ∃ creds, credsOk creds ∧ Dict.get creds "issuer" = trusted) ∧
      trusted ≠ .str localIssuer ∧ buildOidcVerifier env trusted = .ok verifier

theorem buildLocalVerifier_filed :
    Ensures (Filed configOk credsOk) (buildLocalVerifier : Cli PrivateKey Key (TokenVerifier Key))
      (Paired env credsOk) := by
  apply Ensures.bind Ensures.seen
  intro jwks _
  apply Ensures.bind Ensures.outcome
  intro _ _
  apply Ensures.ofExcept
  intro verifier built
  exact .inl ⟨jwks, built⟩

theorem verifierForToken_filed (token : String) :
    Ensures (Filed configOk credsOk) (verifierForToken env token) (Paired env credsOk) := by
  apply Ensures.ite
  · intro _
    exact buildLocalVerifier_filed
  · intro _
    apply Ensures.ofExcept
    intro verifier built
    exact .inr ⟨.null, .inl rfl, by simp, built⟩

theorem fromToken_filed (token source : String) :
    Ensures (Filed configOk credsOk) (fromToken env token source) fun credential =>
      Paired env credsOk credential.verifier := by
  apply Ensures.bind (verifierForToken_filed token)
  intro verifier paired
  exact Ensures.pure paired

theorem verifierForIssuer_filed {creds : Dict} (held : credsOk creds) :
    Ensures (Filed configOk credsOk) (verifierForIssuer env (creds.get "issuer")) (Paired env credsOk) := by
  apply Ensures.ite
  · intro _
    exact buildLocalVerifier_filed
  · intro foreign
    apply Ensures.ofExcept
    intro verifier built
    exact .inr ⟨_, .inr ⟨creds, held, rfl⟩, foreign, built⟩

theorem none_of_unlessUnresolved {α : Type} {post : α → Prop} (failure : AuthFailure) (outcome : Authed (Option α))
    (handled : unlessUnresolved failure = some outcome) (value : Option α) (returned : outcome = .ok value) :
    ∀ found, value = some found → post found := by
  intro found same
  subst same
  cases failure <;> cases handled
  cases returned

theorem tryStoredCredential_filed :
    Ensures (Filed configOk credsOk) (tryStoredCredential env) fun found =>
      ∀ credential, found = some credential → Paired env credsOk credential.verifier := by
  have nothing : Ensures (Filed configOk credsOk) (pure none : Cli PrivateKey Key (Option (ResolvedCredential Key)))
      fun found => ∀ credential, found = some credential → Paired env credsOk credential.verifier :=
    Ensures.pure (by intro credential same; cases same)
  apply Ensures.bind loadCredentials_filed
  intro stored held
  apply Ensures.ite
  · intro _
    exact nothing
  · intro _
    cases stored with
    | obj creds =>
      apply Ensures.ite
      · intro _
        exact nothing
      · intro _
        apply Ensures.bind Ensures.outcome
        intro expired _
        apply Ensures.ite
        · intro _
          exact nothing
        · intro _
          apply Ensures.catching
          · apply Ensures.bind (verifierForIssuer_filed (held creds rfl))
            intro verifier paired
            apply Ensures.pure
            intro credential same
            cases same
            exact paired
          · exact none_of_unlessUnresolved
    | _ =>
      apply Ensures.ofExcept
      intro found returned
      cases returned

theorem tryAutoMint_filed :
    Ensures (Filed configOk credsOk) (tryAutoMint env) fun found =>
      ∀ credential, found = some credential → Paired env credsOk credential.verifier := by
  have minting : Ensures (Filed configOk credsOk) (Call.catching (autoMintLocalToken env) unlessUnwritable)
      fun _ => True := Ensures.catching autoMintLocalToken_filed fun _ _ _ _ _ => trivial
  apply Ensures.bind minting
  intro minted _
  cases minted with
  | none => exact Ensures.pure (by intro credential same; cases same)
  | some token =>
    apply Ensures.ite
    · intro _
      exact Ensures.pure (by intro credential same; cases same)
    · intro _
      apply Ensures.catching
      · apply Ensures.bind buildLocalVerifier_filed
        intro verifier paired
        apply Ensures.pure
        intro credential same
        cases same
        exact paired
      · exact none_of_unlessUnresolved

theorem resolveAuth_filed :
    Ensures (Filed configOk credsOk) (resolveAuth env) fun credential => Paired env credsOk credential.verifier := by
  apply Ensures.bind Ensures.outcome
  intro named _
  cases named with
  | some found => exact fromToken_filed found.1 found.2
  | none =>
    apply Ensures.bind tryStoredCredential_filed
    intro stored paired
    cases stored with
    | some credential => exact Ensures.pure (paired credential rfl)
    | none =>
      apply Ensures.bind tryAutoMint_filed
      intro minted paired
      cases minted with
      | some credential => exact Ensures.pure (paired credential rfl)
      | none =>
        apply Ensures.ofExcept
        intro credential returned
        cases returned

theorem requireVerifiedActor_filed :
    Ensures (Filed configOk credsOk) (requireVerifiedActor env) fun found => ∀ actor, found = some actor →
      ∃ credential : ResolvedCredential Key, Paired env credsOk credential.verifier ∧
        credential.verify env = .ok actor := by
  apply Ensures.catching
  · apply Ensures.bind resolveAuth_filed
    intro credential paired
    apply Ensures.bind Ensures.outcome
    intro actor verified
    apply Ensures.pure
    intro other same
    cases same
    exact ⟨credential, paired, verified⟩
  · intro failure outcome handled value returned actor same
    subst same
    cases failure <;> cases handled <;> cases returned

end Files

section Commands

variable {configOk credsOk : Dict → Prop} {process : Process PrivateKey Key}

theorem login_filed (keeping : Keeping configOk credsOk process) (path : String) :
    Ensures (Filed configOk credsOk) (cmdAuthLoginFile process.env path) fun _ => True := by
  apply Ensures.bind loadConfig_filed
  intro config held
  apply Ensures.bind Ensures.outcome
  intro text _
  have saved : Ensures (Filed configOk credsOk) (do
      saveCredentials process.env (Dict.ofList [("access_token", .str (strip text))])
        (orElse (serverUrl process.env config) (.str "local"))
      return 0 : Cli PrivateKey Key Nat) fun _ => True := by
    apply Ensures.bind (saveCredentials_filed (keeping.imports (strip text)))
    intro _ _
    exact Ensures.pure trivial
  apply Ensures.ite
  · intro _
    apply Ensures.bind (saveConfig_filed (keeping.activates config _ held))
    intro _ _
    exact saved
  · intro _
    exact saved

theorem loginDevice_filed (keeping : Keeping configOk credsOk process) :
    Ensures (Filed configOk credsOk) (cmdAuthLoginDevice process.env process.provider) fun _ => True := by
  apply Ensures.bind loadConfig_filed
  intro config held
  split
  · next issuer clientId issued _ =>
    apply Ensures.ite
    · intro _
      exact Ensures.pure trivial
    · intro _
      apply Ensures.bind Ensures.outcome
      intro response _
      apply Ensures.bind Ensures.outcome
      intro expiresIn _
      apply Ensures.bind Ensures.outcome
      intro expiresAt _
      apply activate_filed (keeping.activates config _ held)
      intro data built
      exact keeping.logsIn config held response expiresAt issuer clientId data issued built
  · exact Ensures.pure trivial

theorem asked_filed {response : Authed Dict} :
    Ensures (Filed configOk credsOk) (asked response : Cli PrivateKey Key (Option Dict)) fun _ => True :=
  Ensures.catching (Ensures.ofExcept fun _ _ => trivial) fun _ _ _ _ _ => trivial

theorem serviceAccount_filed (keeping : Keeping configOk credsOk process) (client secretFile : Option String) :
    Ensures (Filed configOk credsOk) (cmdAuthServiceAccount process.env process.provider client secretFile)
      fun _ => True := by
  apply Ensures.bind loadConfig_filed
  intro config held
  split
  · next issuer clientId issued _ =>
    apply Ensures.ite
    · intro _
      exact Ensures.pure trivial
    · intro _
      have secrets : Ensures (Filed configOk credsOk) (Call.catching (Call.ofExcept ((clientSecret process.env
          secretFile).map some)) unreadableSecret : Cli PrivateKey Key (Option String)) fun _ => True :=
        Ensures.catching (Ensures.ofExcept fun _ _ => trivial) fun _ _ _ _ _ => trivial
      apply Ensures.bind secrets
      intro secret _
      cases secret with
      | none => exact Ensures.pure trivial
      | some secret =>
        apply Ensures.ite
        · intro _
          exact Ensures.pure trivial
        · intro _
          apply Ensures.bind Ensures.outcome
          intro metadata _
          apply Ensures.bind asked_filed
          intro answer _
          cases answer with
          | none => exact Ensures.pure trivial
          | some response =>
            apply Ensures.ite
            · intro _
              exact Ensures.pure trivial
            · intro _
              apply Ensures.bind Ensures.outcome
              intro expiresAt _
              apply activate_filed (keeping.activates config _ held)
              intro data built
              cases built
              exact keeping.serves config held response expiresAt issuer clientId issued
  · exact Ensures.pure trivial

theorem logout_filed (all : Bool) :
    Ensures (Filed configOk credsOk) (cmdAuthLogout process.env all) fun _ => True := by
  apply Ensures.ite
  · intro _
    have cleared : Ensures (Filed configOk credsOk) (clearAllCredentials : Cli PrivateKey Key Unit) fun _ => True :=
      Ensures.write fun home filed => ⟨filed.config, fun host creds found => by cases found⟩
    apply Ensures.bind cleared
    intro _ _
    exact Ensures.pure trivial
  · intro _
    apply Ensures.bind activeHost_filed
    intro host _
    cases host with
    | str name =>
      apply Ensures.ite
      · intro _
        exact Ensures.pure trivial
      · intro _
        have cleared : Ensures (Filed configOk credsOk) (clearCredentials name : Cli PrivateKey Key Unit)
            fun _ => True := by
          apply Ensures.write
          intro home filed
          refine ⟨filed.config, ?_⟩
          intro other creds found
          simp only [Dict.get_remove] at found
          split at found
          · cases found
          · exact filed.credentials other creds found
        apply Ensures.bind cleared
        intro _ _
        exact Ensures.pure trivial
    | _ => exact Ensures.pure trivial

theorem switch_filed (keeping : Keeping configOk credsOk process) (host : Option String) :
    Ensures (Filed configOk credsOk) (cmdAuthSwitch host : Cli PrivateKey Key Nat) fun _ => True := by
  apply Ensures.bind Ensures.seen
  intro credentials _
  apply Ensures.ite
  · intro _
    exact Ensures.pure trivial
  · intro _
    apply Ensures.ite
    · intro _
      exact Ensures.pure trivial
    · intro _
      apply Ensures.ite
      · intro _
        exact Ensures.pure trivial
      · intro _
        apply Ensures.bind loadConfig_filed
        intro config held
        apply Ensures.bind (saveConfig_filed (keeping.activates config _ held))
        intro _ _
        exact Ensures.pure trivial

theorem refresh_filed (keeping : Keeping configOk credsOk process) :
    Ensures (Filed configOk credsOk) (cmdAuthRefresh process.env process.provider) fun _ => True := by
  apply Ensures.bind loadCredentials_filed
  intro stored held
  cases stored with
  | null => exact Ensures.pure trivial
  | obj creds =>
    apply Ensures.ite
    · intro _
      exact Ensures.pure trivial
    · intro _
      apply Ensures.bind Ensures.outcome
      intro metadata _
      apply Ensures.bind asked_filed
      intro answer _
      cases answer with
      | none => exact Ensures.pure trivial
      | some response =>
        apply Ensures.bind Ensures.outcome
        intro expiresAt _
        apply Ensures.bind Ensures.outcome
        intro data built
        apply Ensures.bind (saveCredentials_filed (keeping.renews creds (held creds rfl) response expiresAt data built))
        intro _ _
        exact Ensures.pure trivial
  | _ => exact Ensures.ofExcept fun _ _ => trivial

theorem token_filed : Ensures (Filed configOk credsOk) (cmdAuthToken process.env) fun _ => True := by
  have minted : Ensures (Filed configOk credsOk) (do
      let minted ← autoMintLocalToken process.env
      return minted.map .str : Cli PrivateKey Key (Option Json)) fun _ => True := by
    apply Ensures.bind autoMintLocalToken_filed
    intro _ _
    exact Ensures.pure trivial
  have resolved : Ensures (Filed configOk credsOk) (resolveToken process.env) fun _ => True := by
    apply Ensures.ite
    · intro _
      apply Ensures.bind Ensures.outcome
      intro text _
      exact Ensures.pure trivial
    · intro _
      apply Ensures.ite
      · intro _
        exact Ensures.pure trivial
      · intro _
        apply Ensures.bind loadCredentials_filed
        intro stored _
        cases stored with
        | null => exact minted
        | obj creds =>
          apply Ensures.bind Ensures.outcome
          intro expired _
          apply Ensures.ite
          · intro _
            exact Ensures.pure trivial
          · intro _
            exact minted
        | _ => exact Ensures.ofExcept fun _ _ => trivial
  apply Ensures.bind resolved
  intro _ _
  exact Ensures.pure trivial

theorem local_filed (keeping : Keeping configOk credsOk process) {identity : Option String} {machine human : Bool}
    (ran : process.command = .localToken identity machine human) :
    Ensures (Filed configOk credsOk) (cmdAuthLocal process.env identity machine human) fun _ => True := by
  apply Ensures.bind loadConfig_filed
  intro config held
  apply Ensures.ite
  · intro _
    exact Ensures.pure trivial
  · intro _
    apply Ensures.ite
    · intro _
      exact Ensures.pure trivial
    · intro single
      apply Ensures.bind Ensures.outcome
      intro name chosen
      apply Ensures.bind ensureLocalKeypair_filed
      intro key _
      apply Ensures.bind Ensures.outcome
      intro token _
      have text : textOr identity (config.get "local_identity") = .str name := by
        generalize textOr identity (config.get "local_identity") = value at chosen
        cases value with
        | str text =>
          cases chosen
          rfl
        | _ => cases chosen
      apply Ensures.bind (saveConfig_filed (keeping.remembers identity machine human ran config name held text single))
      intro _ _
      apply Ensures.bind Ensures.outcome
      intro expiresAt _
      apply Ensures.bind (saveCredentials_filed (keeping.mints token expiresAt))
      intro _ _
      exact Ensures.pure trivial

theorem run_filed (keeping : Keeping configOk credsOk process) :
    Ensures (Filed configOk credsOk) process.run fun _ => True := by
  unfold Process.run
  cases ran : process.command with
  | login tokenFile =>
    cases tokenFile with
    | none => exact loginDevice_filed keeping
    | some path =>
      apply Ensures.ite
      · intro _
        exact login_filed keeping path
      · intro _
        exact loginDevice_filed keeping
  | serviceAccount clientId secretFile => exact serviceAccount_filed keeping clientId secretFile
  | logout all => exact logout_filed all
  | switch host => exact switch_filed keeping host
  | refresh => exact refresh_filed keeping
  | token => exact token_filed
  | localToken identity machine human => exact local_filed keeping ran
  | configSet server issuer clientId =>
    apply Ensures.bind loadConfig_filed
    intro config held
    apply Ensures.bind (saveConfig_filed (keeping.configures server issuer clientId ran config held))
    intro _ _
    exact Ensures.pure trivial
  | other =>
    apply Ensures.bind requireVerifiedActor_filed
    intro _ _
    exact Ensures.pure trivial

theorem runProcesses_filed {home : Home PrivateKey Key} (filed : Filed configOk credsOk home)
    {processes : List (Process PrivateKey Key)} (keeping : ∀ process ∈ processes, Keeping configOk credsOk process) :
    Filed configOk credsOk (runProcesses home processes) := by
  induction processes generalizing home with
  | nil => exact filed
  | cons process rest ih =>
    apply ih
    · exact (run_filed (keeping process List.mem_cons_self) home filed).1
    · intro later member
      exact keeping later (List.mem_cons_of_mem _ member)

end Commands

end LedgerProof
