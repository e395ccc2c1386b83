import TraustLedger.Auth.Clients
import TraustLedger.Proofs.ConfiguredProviders
import TraustLedger.Proofs.DirectoryChecks

namespace LedgerProof

open Python Runs LedgerModel GuardedCalls

variable {PrivateKey Key : Type} {env : AuthEnv PrivateKey Key} {configOk credsOk : Dict → Prop}
  {client : LedgerClient PrivateKey Key}

def Equipped (env : AuthEnv PrivateKey Key) (credsOk : Dict → Prop) (client : LedgerClient PrivateKey Key) : Prop :=
  client.verifier = none ∨ ∃ verifier : TokenVerifier Key, Paired env credsOk verifier ∧
    client.verifier = some verifier.port

theorem resolveIdentity_filed (token : Option String) :
    Ensures (Filed configOk credsOk) (resolveIdentity env token none) fun found =>
      found.2 = none ∨ ∃ verifier : TokenVerifier Key, Paired env credsOk verifier ∧ found.2 = some verifier.port := by
  cases token with
  | some token =>
    apply Ensures.bind Ensures.outcome
    intro _ _
    exact Ensures.pure (.inl rfl)
  | none =>
    have credentials : Ensures (Filed configOk credsOk) (Call.catching (do
        let credential ← resolveAuth env
        return some credential) unlessUnresolved) fun found => ∀ credential, found = some credential →
          Paired env credsOk credential.verifier := by
      apply Ensures.catching
      · apply Ensures.bind resolveAuth_filed
        intro credential paired
        apply Ensures.pure
        intro found same
        cases same
        exact paired
      · exact none_of_unlessUnresolved
    apply Ensures.bind credentials
    intro found paired
    cases found with
    | some credential => exact Ensures.pure (.inr ⟨credential.verifier, paired credential rfl, rfl⟩)
    | none =>
      apply Ensures.bind Ensures.outcome
      intro _ _
      exact Ensures.pure (.inl rfl)

theorem build_filed (token : Option String) (directory : Option ScriptDirectory) :
    Ensures (Filed configOk credsOk) (LedgerClient.build env token none directory) fun client =>
      Equipped env credsOk client ∧ client.directory = directory := by
  apply Ensures.bind (resolveIdentity_filed token)
  intro found paired
  exact Ensures.pure ⟨paired, rfl⟩

theorem verifierOf_filed (equipped : Equipped env credsOk client) :
    Ensures (Filed configOk credsOk) (client.verifierOf env) fun port =>
      ∃ verifier : TokenVerifier Key, Paired env credsOk verifier ∧ port = verifier.port := by
  unfold LedgerClient.verifierOf
  rcases equipped with none | ⟨verifier, paired, held⟩
  · rw [none]
    cases client.token with
    | str token =>
      apply Ensures.bind (verifierForToken_filed token)
      intro verifier paired
      exact Ensures.pure ⟨verifier, paired, rfl⟩
    | _ =>
      apply Ensures.bind Ensures.outcome
      intro verifier built
      exact Ensures.pure ⟨verifier, .inr ⟨.null, .inl rfl, by simp, built⟩, rfl⟩
  · rw [held]
    exact Ensures.pure ⟨verifier, paired, rfl⟩

theorem actor_filed (equipped : Equipped env credsOk client) :
    Ensures (Filed configOk credsOk) (client.actor env) fun actor =>
      ∃ (credential : ResolvedCredential Key) (base : TokenActor), Paired env credsOk credential.verifier ∧
        credential.verify env = .ok base ∧ applyDirectory base client.directory = .ok actor := by
  have ports : Ensures (Filed configOk credsOk) (Call.catching (client.verifierOf env) unresolved) fun port =>
      ∃ verifier : TokenVerifier Key, Paired env credsOk verifier ∧ port = verifier.port := by
    apply Ensures.catching (verifierOf_filed equipped)
    intro failure outcome handled value returned
    subst returned
    cases failure <;> cases handled
  apply Ensures.bind ports
  intro port found
  obtain ⟨verifier, paired, rfl⟩ := found
  apply Ensures.bind Ensures.outcome
  intro base accepted
  apply Ensures.ofExcept
  intro actor passed
  exact ⟨⟨client.token, verifier, ""⟩, base, paired, mapError_ok accepted, mapError_ok passed⟩

theorem verify_stamps {credential : ResolvedCredential Key} {base : TokenActor}
    (accepted : credential.verify env = .ok base) : ∃ checked, base.identityVerified = some checked := by
  unfold ResolvedCredential.verify at accepted
  split at accepted
  · obtain ⟨key, claims, -, -, mapped⟩ := verify_ok accepted
    obtain ⟨kind, identity, -, -, -, stamped⟩ := claimsToActor_ok mapped
    exact ⟨_, stamped⟩
  · cases accepted

theorem identityVerified_of_directory {directory : Option ScriptDirectory} {base actor : TokenActor}
    (passed : applyDirectory base directory = .ok actor) : actor.identityVerified = base.identityVerified := by
  cases directory with
  | none =>
    cases passed
    rfl
  | some directory =>
    rcases applyDirectory_ok passed with ⟨-, rfl⟩ | ⟨-, -, -, rfl⟩
    · rfl
    · rfl

/-- An actor of a client that was given no verifier, whatever token it was given or found: where local identities are
    not trusted, a verified one was checked with a key of a provider the operator named, and passed the directory. -/
theorem client_vouched_for {processes : List (Process PrivateKey Key)} {token : Option String}
    {directory : Option ScriptDirectory} {actor : TokenActor} (checks : ChecksIssuer env.jwt)
    (untrusting : localIdentityTrusted env = false)
    (served : (LedgerClient.build env token none directory >>= fun client => client.actor env).result
      (runProcesses Home.empty processes) = .ok actor)
    (verified : isVerified actor.toLayerActor = true) :
    ∃ presented base, Vouched env (NamedIssuer processes env) presented base ∧
      applyDirectory base directory = .ok actor := by
  have traced := runProcesses_traced processes env
  have used : Ensures (Filed (TracedConfig (NamedIssuer processes env)) (TracedCredential (NamedIssuer processes env)))
      (LedgerClient.build env token none directory >>= fun client => client.actor env) fun actor =>
        ∃ (credential : ResolvedCredential Key) (base : TokenActor),
          Paired env (TracedCredential (NamedIssuer processes env)) credential.verifier ∧
          credential.verify env = .ok base ∧ applyDirectory base directory = .ok actor := by
    apply Ensures.bind (build_filed token directory)
    intro client built
    rw [← built.2]
    exact actor_filed built.1
  obtain ⟨credential, base, paired, accepted, passed⟩ := (used _ traced).2 actor served
  obtain ⟨checked, stamped⟩ := verify_stamps accepted
  have same : isVerified actor.toLayerActor = isVerified base.toLayerActor := by
    rw [isVerified_eq stamped, isVerified_eq ((identityVerified_of_directory passed).trans stamped)]
  rw [same] at verified
  obtain ⟨presented, vouched⟩ := paired_vouches checks untrusting (fun issuer set => .inl set) paired accepted verified
  exact ⟨presented, base, vouched, passed⟩

theorem client_vouched_for_login : ∃ presented base,
    Vouched idpEnv (NamedIssuer idpLogin idpEnv) presented base ∧ applyDirectory base none = .ok idpActor :=
  client_vouched_for idpJwt_checksIssuer (by decide)
    (show (LedgerClient.build idpEnv none none none >>= fun client => client.actor idpEnv).result
      (runProcesses Home.empty idpLogin) = .ok idpActor by decide +kernel) (by decide)

end LedgerProof
