import TraustLedger.Proofs.PublishedSignatures
import TraustLedger.Proofs.ExitStatus

namespace LedgerProof

open Hashing Python Runs LedgerModel

variable {env : Env} {H : HashFunction}

def ByIdentity (layer : Layer) : Prop :=
  (layer.metadata.get "merkle_root_signature").truthy = true →
    layer.metadata.get "merkle_signing_method" = .str "identity"

/-- The call meets a service that signs by identity, and is no patch of the signature's own fields. -/
structure SignsByIdentity (call : Call) : Prop where
  keyless : ∀ moment ∈ momentOf call, Keyless moment
  unpatched : ∀ moment layerId updates, call = .patch moment layerId updates →
    updates.lookup "merkle_root_signature" = none ∧ updates.lookup "merkle_signing_method" = none

def NamesIdentity (tools : Tools) : Prop := ∀ config, (tools.signers.sigstore config).methodName = "identity"

theorem signatureKey_stamped {layer stamped : Layer} {dropped : Bool} {key : String} (member : key ∈ signatureKeys)
    (accepted : stampMerkleMetadata H layer = .ok (stamped, dropped)) :
    stamped.metadata.get key = if dropped then .null else layer.metadata.get key := by
  obtain ⟨-, -, -, rfl, -⟩ := stampMerkleMetadata_ok accepted
  have others : key ≠ "merkle_root" ∧ key ≠ "merkle_size" ∧ key ≠ "merkle_algorithm" ∧
      key ≠ "leaf_format" ∧ key ≠ "pre_merkle_checkpoint" ∧ key ≠ "merkle_epoch" := by
    revert key
    decide
  obtain ⟨notRoot, notSize, notAlgorithm, notFormat, notCheckpoint, notEpoch⟩ := others
  have body : (stampedMetadata H layer).get key = layer.metadata.get key := by
    simp only [stampedMetadata, withRoot, Dict.get_set, notRoot, notSize, notAlgorithm, notFormat, if_false]
    rw [get_withCheckpoint _ _ _ notCheckpoint, get_setDefault, if_neg notEpoch]
  cases dropped with
  | false => exact body
  | true => simp [get_dropSignature, member]

theorem ByIdentity.stamp {layer stamped : Layer} {dropped : Bool} (held : ByIdentity layer)
    (accepted : stampMerkleMetadata H layer = .ok (stamped, dropped)) : ByIdentity stamped := by
  intro signed
  rw [signatureKey_stamped (by decide) accepted] at signed
  rw [signatureKey_stamped (by decide) accepted]
  cases dropped with
  | true => cases signed
  | false => exact held signed

theorem ByIdentity.draft {layer draft : Layer} {call : Call} {moment : Moment} (held : ByIdentity layer)
    (signs : SignsByIdentity call) (drafted : Draft env layer call moment draft) : ByIdentity draft := by
  have kept : ∀ key ∈ ["merkle_root_signature", "merkle_signing_method"],
      draft.metadata.get key = layer.metadata.get key := by
    intro key member
    have outside : key ∉ signedMetadataFields ∧ key ≠ "updated" := by
      revert key
      decide
    rcases drafted.metadata_kept outside.1 outside.2 with same | ⟨layerId, updates, patch, written⟩
    · exact same
    · obtain ⟨noSignature, noMethod⟩ := signs.unpatched moment layerId updates patch
      simp only [List.mem_cons, List.not_mem_nil, or_false] at member
      rcases member with rfl | rfl
      · rw [written, noSignature]
        rfl
      · rw [written, noMethod]
        rfl
  unfold ByIdentity
  rw [kept _ (by simp), kept _ (by simp)]
  exact held

theorem byIdentity_attested {signers : Signers} {config : SigningConfig} {layer : Layer} {backend : SigningBackend}
    {signature : String} (named : ∀ config, (signers.sigstore config).methodName = "identity")
    (keyless : config.method = "identity") (makes : Makes signers config backend signature) :
    ByIdentity (attested layer backend signature) := by
  intro _
  have chosen := makes.chosen
  simp only [getBackendFromConfig, keyless, String.reduceEq, if_false, if_true, Except.ok.injEq] at chosen
  rw [attested_method, ← chosen, named]

theorem ByIdentity.step {layer next : Layer} {call : Tools × Call} (held : ByIdentity layer)
    (named : NamesIdentity call.1) (signs : SignsByIdentity call.2)
    (accepted : stepWith env layer call = .ok next) : ByIdentity next := by
  obtain ⟨tools, call⟩ := call
  cases step_written accepted with
  | finalized drafted finalizing =>
    obtain ⟨stamped, dropped, stamp, outcome⟩ := finalizeLayer_made finalizing
    rcases outcome with ⟨-, rfl⟩ | ⟨backend, signature, makes, rfl⟩
    · exact (held.draft signs drafted).stamp stamp
    · apply byIdentity_attested named _ makes
      exact signs.keyless _ drafted.moment
  | appended appending =>
    obtain ⟨added, rfl, -⟩ := appendMany_ok appending
    exact held
  | @endpoint moment layerId rekor _ attempt signing =>
    obtain ⟨stamped, dropped, stamp, outcome⟩ := signLayer_made signing
    rcases outcome with ⟨-, rfl⟩ | ⟨backend, signature, makes, -⟩
    · exact held.stamp stamp
    · -- The endpoint has no token for an identity tool, and no key is asked for under that method.
      rcases makes.credential with keypair | token
      · have keyless := signs.keyless moment rfl
        simp only [Option.getD_none, credentialsFromConfig] at keypair
        simp [Keyless, methodAlias, keypair] at keyless
      · exact absurd rfl token
  | queued metadata events =>
    unfold ByIdentity
    rw [metadata]
    exact held

/-- The tool that checks an identity signature is built without the identity it should expect. -/
theorem unset_rejects {Token Bundle : Type} (sigstore : Sigstore Token Bundle) (payload : Bytes) (signature : Json) :
    (sigstore.verify .unset payload signature).valid = false := by
  unfold Sigstore.verify
  split
  · rfl
  split
  · rfl
  split
  · rfl
  · rfl

theorem declaredSigner_identity {signers : Signers} {layer : Layer}
    (method : layer.metadata.get "merkle_signing_method" = .str "identity") :
    declaredSigner signers layer.metadata = some (signers.sigstore ⟨"identity", none, none⟩) := by
  unfold declaredSigner
  rw [method]
  simp [getBackendForMethod]

section Verifying

variable {Token Bundle : Type} {shell : Shell} {layer : Layer} {key : Option String} {sigstore : Sigstore Token Bundle}
  (built : shell.signers.sigstore ⟨"identity", none, none⟩ = sigstore.backend .unset)
  (method : layer.metadata.get "merkle_signing_method" = .str "identity")

include built method

theorem identity_not_accepted : ¬ Accepted shell layer key := by
  intro accepted
  obtain ⟨pubkeyPath, signer, payload, findings, result, -, declared, -, -, verified, valid⟩ := accepted
  rw [declaredSigner_identity method, built] at declared
  cases declared
  cases verified
  rw [unset_rejects] at valid
  cases valid

theorem unchecked_identity_iff : Unchecked shell layer key ↔ key = none ∨ sigstore.importable = false := by
  unfold Unchecked
  rw [declaredSigner_identity method, built]
  simp [Sigstore.backend]

end Verifying

theorem identity_signature_unverifiable {Token Bundle : Type} {shell : Shell} {start : Layer}
    {calls : List (Tools × Call)} {layerPath : String} (key : Option String) (sigstore : Sigstore Token Bundle)
    (built : shell.signers.sigstore ⟨"identity", none, none⟩ = sigstore.backend .unset)
    (unsigned : start.metadata.get "merkle_root_signature" = .null)
    (named : ∀ call ∈ calls, NamesIdentity call.1) (signs : ∀ call ∈ calls, SignsByIdentity call.2)
    (file : shell.files layerPath = .document (run (stepWith env) start calls)) :
    exitCode (shell.cmdVerifySignature layerPath key) = 0 ↔ shell.authorised = true ∧
      ((run (stepWith env) start calls).metadata.get "merkle_root").truthy = true ∧
      ((run (stepWith env) start calls).metadata.get "merkle_root_signature").truthy = true ∧
      (key = none ∨ sigstore.importable = false) := by
  have final : ByIdentity (run (stepWith env) start calls) := by
    apply run_preserves_mem
    · intro signed
      rw [unsigned] at signed
      cases signed
    · intro layer call next member held accepted
      exact held.step (named call member) (signs call member) accepted
  rw [cmdVerifySignature_zero_iff]
  constructor
  · intro passed
    obtain ⟨authorised, layer, found, rooted, signed, checked⟩ := passed
    rw [file] at found
    cases found
    rcases checked with unchecked | accepted
    · exact ⟨authorised, rooted, signed, (unchecked_identity_iff built (final signed)).mp unchecked⟩
    · exact absurd accepted (identity_not_accepted built (final signed))
  · intro spared
    obtain ⟨authorised, rooted, signed, unchecked⟩ := spared
    exact ⟨authorised, _, file, rooted, signed, Or.inl ((unchecked_identity_iff built (final signed)).mpr unchecked)⟩

def willingSigstore : Sigstore Unit Unit where
  importable := true
  identityToken := fun _ _ => .ok ()
  detectCredential := .ok none
  interactiveToken := fun _ _ => .ok ()
  signArtifact := fun _ _ _ => .ok "\x7b\x7d"
  fromJson := fun _ => .ok ()
  verifyArtifact := fun _ _ _ _ _ => .ok ()

def releaseSettings (config : SigningConfig) : OidcSettings :=
  ⟨some "https://idp.example", none, some "release@example.com", config.oidcToken, false, none, none⟩

def identitySigners : Signers where
  cosign := absentTool "keypair"
  sigstore := fun config => match config.keyPath, config.oidcToken with
    | none, none => willingSigstore.backend .unset
    | _, _ => willingSigstore.backend (releaseSettings config)

def identityMoment : Moment :=
  { unsigned with config := ⟨true, none, "sigstore-oidc"⟩, harness := ⟨"identity", none, some "token"⟩ }

def identityCall : Tools × Call := (⟨identitySigners, identitySigners⟩, .sign identityMoment "acme")

def identityShell : Shell where
  toEnv := { referenceEnv with signers := identitySigners }
  environ := fun _ => none
  authorised := true
  stored := ⟨[], by simp⟩
  files := fun path =>
    if path = "acme.json" then .document (run (stepWith referenceEnv) oneClaim [identityCall]) else .absent

theorem identity_signature_unverifiable_release :
    ((run (stepWith referenceEnv) oneClaim [identityCall]).metadata.get "merkle_root_signature") =
      .str "\x7b\x7d" ∧
    (exitCode (identityShell.cmdVerifySignature "acme.json" (some "release.pub")) = 0 ↔
      identityShell.authorised = true ∧
      ((run (stepWith referenceEnv) oneClaim [identityCall]).metadata.get "merkle_root").truthy = true ∧
      ((run (stepWith referenceEnv) oneClaim [identityCall]).metadata.get "merkle_root_signature").truthy = true ∧
      (some "release.pub" = none ∨ willingSigstore.importable = false)) := by
  refine ⟨by decide +kernel, identity_signature_unverifiable _ willingSigstore rfl rfl ?_ ?_ rfl⟩
  · intro call member config
    rw [List.mem_singleton.mp member]
    simp only [identityCall, identitySigners]
    split <;> rfl
  · intro call member
    rw [List.mem_singleton.mp member]
    constructor
    · intro moment met
      cases met
      rfl
    · intro moment layerId updates patch
      cases patch

end LedgerProof
