import TraustLedger.Backends.FileClients
import TraustLedger.Integrity.SigningTools
import TraustLedger.Proofs.SignedLayers

namespace LedgerProof

open Hashing Python Runs LedgerModel

variable {env : Env} {H : HashFunction} {signers : Signers} {config : SigningConfig}

structure Makes (signers : Signers) (config : SigningConfig) (backend : SigningBackend) (signature : String) :
    Prop where
  chosen : getBackendFromConfig signers config = .ok backend
  credential : config.method = "keypair" ∨ config.oidcToken.getD "" ≠ ""
  returned : ∃ payload result, backend.sign payload (config.keyPath.getD "") = .ok result ∧ result.success = true ∧
    result.signature = signature

def attested (layer : Layer) (backend : SigningBackend) (signature : String) : Layer :=
  { layer with metadata := ((layer.metadata.set "merkle_root_signature" (.str signature)).set
      "merkle_signing_method" (.str backend.methodName)).set "merkle_signature_format" (.int signatureFormatCurrent) }

@[simp] theorem attested_signature (layer : Layer) (backend : SigningBackend) (signature : String) :
    (attested layer backend signature).metadata.get "merkle_root_signature" = .str signature := by
  simp [attested]

@[simp] theorem attested_method (layer : Layer) (backend : SigningBackend) (signature : String) :
    (attested layer backend signature).metadata.get "merkle_signing_method" = .str backend.methodName := by
  simp [attested]

theorem signIfConfigured_made (layer : Layer) :
    ((signIfConfigured H signers config layer).2.status ≠ .signed ∧
        (signIfConfigured H signers config layer).1 = layer) ∨
      ∃ backend signature, Makes signers config backend signature ∧
        (signIfConfigured H signers config layer).1 = attested layer backend signature := by
  unfold signIfConfigured
  simp only
  generalize read : (if config.method = "" then "keypair" else config.method) = method
  split
  · exact Or.inl ⟨by simp, rfl⟩
  split
  · exact Or.inl ⟨by simp, rfl⟩
  next credential =>
    split
    · exact Or.inl ⟨by simp, rfl⟩
    cases chosen : getBackendFromConfig signers config with
    | error detail => exact Or.inl ⟨by simp, rfl⟩
    | ok backend =>
      simp only
      cases signing : backend.sign (merkleSignaturePayload H layer.metadata signatureFormatCurrent)
          (config.keyPath.getD "") with
      | error detail => exact Or.inl ⟨by simp, rfl⟩
      | ok result =>
        simp only
        split
        · next success =>
          have named : config.method ≠ "" := by
            intro blank
            simp [getBackendFromConfig, blank] at chosen
          have held : config.method = "keypair" ∨ config.oidcToken.getD "" ≠ "" := by
            rw [if_neg named] at read
            simpa [read, or_iff_not_imp_left] using credential
          exact Or.inr ⟨backend, result.signature, ⟨chosen, held, _, result, signing, success, rfl⟩, rfl⟩
        · exact Or.inl ⟨by simp, rfl⟩

theorem finalizeLayer_made {moment : Moment} {layerId root : String} {draft next : Layer}
    (accepted : finalizeLayer env moment layerId draft = .ok (next, root)) :
    ∃ stamped dropped, stampMerkleMetadata env.hash draft = .ok (stamped, dropped) ∧
      ((moment.config.signingRequired = false ∧ next = stamped) ∨ ∃ backend signature,
        Makes env.signers (signingConfig moment.config moment.harness) backend signature ∧
          next = attested stamped backend signature) := by
  unfold finalizeLayer at accepted
  obtain ⟨⟨stamped, dropped⟩, stamp, accepted⟩ := bind_ok_iff.mp accepted
  simp only at accepted
  have made := @signIfConfigured_made env.hash env.signers (signingConfig moment.config moment.harness) stamped
  generalize signIfConfigured env.hash env.signers (signingConfig moment.config moment.harness) stamped = answer
    at accepted made
  obtain ⟨signed, attempt⟩ := answer
  obtain ⟨_, enough, accepted⟩ := bind_ok_iff.mp accepted
  cases accepted
  rw [require_ok_iff] at enough
  refine ⟨stamped, dropped, stamp, ?_⟩
  rcases made with ⟨unsigned, same⟩ | ⟨backend, signature, makes, same⟩
  · exact Or.inl ⟨enough.resolve_right unsigned, same⟩
  · exact Or.inr ⟨backend, signature, makes, same⟩

theorem signLayer_made {moment : Moment} {credentials : Option SigningConfig} {layer next : Layer}
    {attempt : SignAttempt} (accepted : signLayer env moment signers credentials layer = .ok (next, attempt)) :
    ∃ stamped dropped, stampMerkleMetadata env.hash layer = .ok (stamped, dropped) ∧
      ((attempt.status ≠ .signed ∧ next = stamped) ∨ ∃ backend signature,
        Makes signers (credentials.getD (credentialsFromConfig moment.config)) backend signature ∧
          next = attested stamped backend signature) := by
  unfold signLayer at accepted
  obtain ⟨⟨stamped, dropped⟩, stamp, accepted⟩ := bind_ok_iff.mp accepted
  simp only at accepted
  have made := @signIfConfigured_made env.hash signers (credentials.getD (credentialsFromConfig moment.config)) stamped
  generalize signIfConfigured env.hash signers (credentials.getD (credentialsFromConfig moment.config)) stamped =
    answer at accepted made
  obtain ⟨signed, outcome⟩ := answer
  replace accepted := gate_passed accepted
  cases accepted
  refine ⟨stamped, dropped, stamp, ?_⟩
  exact made

theorem Draft.metadata_kept {layer draft : Layer} {call : Call} {moment : Moment} {key : String}
    (outside : key ∉ signedMetadataFields) (other : key ≠ "updated") (drafted : Draft env layer call moment draft) :
    draft.metadata.get key = layer.metadata.get key ∨ ∃ layerId updates, call = .patch moment layerId updates ∧
      draft.metadata.get key = patched (layer.metadata.get key) (updates.lookup key) := by
  cases drafted with
  | restate gated appending =>
    obtain ⟨-, signed, -⟩ := restatementEvent_ok gated
    obtain ⟨prepared, -, -, metadata⟩ := appendRestatement_ok appending
    rw [metadata, if_neg]
    · exact Or.inl rfl
    · rintro rfl
      exact outside signed
  | @patch _ layerId updates =>
    refine Or.inr ⟨layerId, updates, rfl, ?_⟩
    rw [Dict.get_set, if_neg other, get_applyUpdates]
  | submitEvent submitted appending =>
    obtain ⟨prepared, -, rfl⟩ := appendOne_ok appending
    exact Or.inl rfl
  | submitBatch appending =>
    obtain ⟨added, rfl, -⟩ := appendMany_ok appending
    exact Or.inl rfl
  | stampIdentities => exact Or.inl rfl
  | sign => exact Or.inl rfl

theorem patched_str {held : Json} {update : Option Json} {text : String} (result : patched held update = .str text) :
    held = .str text ∨ update = some (.str text) := by
  cases update with
  | none => exact Or.inl result
  | some value =>
    right
    cases held <;> cases value <;> simp_all [patched, patchValue]

inductive SignatureFrom (env : Env) (signature : String) : Call → Prop
  | update {moment : Moment} {layerId : String} {updates : Dict}
      (named : updates.get "merkle_root_signature" = .str signature) :
      SignatureFrom env signature (.patch moment layerId updates)
  | writing {call : Call} {layer draft : Layer} {moment : Moment} {backend : SigningBackend}
      (drafted : Draft env layer call moment draft)
      (makes : Makes env.signers (signingConfig moment.config moment.harness) backend signature) :
      SignatureFrom env signature call
  | endpoint {moment : Moment} {layerId : String} {rekor : Bool} {backend : SigningBackend}
      (makes : Makes (if rekor then env.publishing else env.signers) (credentialsFromConfig moment.config) backend
        signature) : SignatureFrom env signature (.signEndpoint moment layerId rekor)

theorem signature_of_stamped {layer stamped : Layer} {dropped : Bool} {signature : String}
    (stamp : stampMerkleMetadata H layer = .ok (stamped, dropped))
    (carried : stamped.metadata.get "merkle_root_signature" = .str signature) :
    layer.metadata.get "merkle_root_signature" = .str signature := by
  rw [signature_stamped stamp] at carried
  cases dropped with
  | true => cases carried
  | false => exact carried

theorem step_signature {layer next : Layer} {call : Call} {signature : String}
    (accepted : step env layer call = .ok next)
    (carried : next.metadata.get "merkle_root_signature" = .str signature) :
    layer.metadata.get "merkle_root_signature" = .str signature ∨ SignatureFrom env signature call := by
  cases step_written accepted with
  | @finalized _ moment draft _ _ _ drafted finalizing =>
    obtain ⟨stamped, dropped, stamp, outcome⟩ := finalizeLayer_made finalizing
    rcases outcome with ⟨-, rfl⟩ | ⟨backend, made, makes, rfl⟩
    · have held := signature_of_stamped stamp carried
      have kept := @Draft.metadata_kept _ _ _ _ _ "merkle_root_signature" (by decide) (by decide) drafted
      rcases kept with same | ⟨layerId, updates, rfl, written⟩
      · exact Or.inl (same ▸ held)
      · rw [written] at held
        rcases patched_str held with kept | named
        · exact Or.inl kept
        · exact Or.inr (.update (Dict.get_eq_of_lookup named))
    · rw [attested_signature, Json.str.injEq] at carried
      exact Or.inr (.writing drafted (carried ▸ makes))
  | appended appending =>
    obtain ⟨added, rfl, -⟩ := appendMany_ok appending
    exact Or.inl carried
  | endpoint signing =>
    obtain ⟨stamped, dropped, stamp, outcome⟩ := signLayer_made signing
    rcases outcome with ⟨-, rfl⟩ | ⟨backend, made, makes, rfl⟩
    · exact Or.inl (signature_of_stamped stamp carried)
    · rw [attested_signature, Json.str.injEq] at carried
      exact Or.inr (.endpoint (carried ▸ makes))
  | queued metadata events => exact Or.inl (metadata ▸ carried)

theorem cmdSign_signature {moment : Moment} {environ : Environ} {args : SignArgs} {layer next : Layer}
    {signature : String} (accepted : cmdSign env moment environ args layer = .ok next)
    (carried : next.metadata.get "merkle_root_signature" = .str signature) :
    ∃ backend, Makes (if args.rekor then env.publishing else env.signers) (buildCredentials environ args) backend
      signature := by
  unfold cmdSign at accepted
  obtain ⟨⟨signed, attempt⟩, signing, accepted⟩ := bind_ok_iff.mp (gate_passed accepted)
  obtain ⟨_, done, accepted⟩ := bind_ok_iff.mp accepted
  rw [require_ok_iff] at done
  cases accepted
  obtain ⟨stamped, dropped, -, outcome⟩ := signLayer_made signing
  rcases outcome with ⟨unsigned, -⟩ | ⟨backend, made, makes, rfl⟩
  · exact absurd done unsigned
  · rw [attested_signature, Json.str.injEq] at carried
    exact ⟨backend, carried ▸ makes⟩

section Cosign

variable {cosign : Cosign} {json : JsonModule} {payload : Bytes} {keyPath : String} {result : SignResult}

/-- Writing a document more compactly does not change what is read from it. -/
def Rereads (json : JsonModule) : Prop :=
  ∀ raw value, json.loads raw = some value → json.loads (json.compacted raw) = some value

/-- The signature is a bundle that names a place it was published at, or hides whether it does. -/
def Published (json : JsonModule) (signature : String) : Prop :=
  ∃ bundle, json.loads signature = some (.obj bundle) ∧ transparencyEvidence (.obj bundle) ≠ .ok []

theorem checkedBundle_unpublished {raw : String} (rereads : Rereads json)
    (checked : Cosign.checkedBundle json false raw = .ok result) (success : result.success = true) :
    ¬ Published json result.signature := by
  rintro ⟨bundle, read, evidence⟩
  unfold Cosign.checkedBundle at checked
  split at checked
  · next unread =>
    cases checked
    simp [unread] at read
  · next empty =>
    cases checked
    simp [empty] at read
  · next held other loaded =>
    obtain ⟨published, found, checked⟩ := bind_ok_iff.mp checked
    simp only at checked
    split at checked
    · cases checked
      cases success
    · next nowhere =>
      cases checked
      rw [rereads _ _ loaded] at read
      cases read
      have none : published = [] := by simpa using nowhere
      exact evidence (none ▸ found)

theorem sign_unpublished (rereads : Rereads json) (signed : cosign.sign json false payload keyPath = .ok result)
    (success : result.success = true) : ¬ Published json result.signature := by
  unfold Cosign.sign at signed
  split at signed
  · cases signed
    cases success
  split at signed
  · cases signed
    cases success
  split at signed
  · cases signed
    cases success
  · cases signed
  split at signed
  · cases signed
    cases success
  · exact checkedBundle_unpublished rereads signed success

end Cosign

structure Toolbox where
  cosign : Cosign
  sigstore : SigningConfig → SigningBackend

def Toolbox.tools (json : JsonModule) (toolbox : Toolbox) : Tools where
  signers := ⟨toolbox.cosign.backend json false, toolbox.sigstore⟩
  publishing := ⟨toolbox.cosign.backend json true, toolbox.sigstore⟩

def Keyless (moment : Moment) : Prop := methodAlias moment.config.signingMethod = "identity"

/-- The calls that can put a published signature into a layer: the endpoint asked to publish, a patch that brings the
    signature itself, and a write of a service that signs by identity. -/
def MayPublish (signature : String) : Call → Prop
  | .signEndpoint _ _ rekor => rekor = true
  | .patch moment _ updates => updates.get "merkle_root_signature" = .str signature ∨ Keyless moment
  | .restate moment .. | .submitEvent moment .. | .submitBatch moment .. | .stampIdentities moment .. | .sign moment .. =>
    Keyless moment
  | .cmdSubmitEvents .. | .cmdSubmitQueue .. | .resolve .. => False

theorem Draft.mayPublish {layer draft : Layer} {call : Call} {moment : Moment} {signature : String}
    (drafted : Draft env layer call moment draft) (keyless : Keyless moment) : MayPublish signature call := by
  cases drafted with
  | patch => exact Or.inr keyless
  | restate gated appending => exact keyless
  | submitEvent submitted appending => exact keyless
  | submitBatch appending => exact keyless
  | stampIdentities => exact keyless
  | sign => exact keyless

theorem Makes.keyless {json : JsonModule} {toolbox : Toolbox} {backend : SigningBackend} {signature : String}
    (rereads : Rereads json) (published : Published json signature)
    (makes : Makes (toolbox.tools json).signers config backend signature) : config.method = "identity" := by
  obtain ⟨payload, result, signing, success, rfl⟩ := makes.returned
  have chosen := makes.chosen
  unfold getBackendFromConfig at chosen
  split at chosen
  · cases chosen
    exact absurd published (sign_unpublished rereads signing success)
  split at chosen
  · assumption
  · cases chosen

theorem SignatureFrom.mayPublish {json : JsonModule} {toolbox : Toolbox} {signature : String} {call : Call}
    (rereads : Rereads json) (published : Published json signature)
    (source : SignatureFrom (env.withTools (toolbox.tools json)) signature call) : MayPublish signature call := by
  cases source with
  | update named => exact Or.inl named
  | writing drafted makes => exact drafted.mayPublish (makes.keyless rereads published)
  | @endpoint moment layerId rekor backend makes =>
    cases rekor with
    | true => rfl
    | false =>
      have keyless := Makes.keyless rereads published makes
      -- The endpoint hands no token on, so that an identity tool is never asked.
      rcases makes.credential with keypair | token
      · rw [keypair] at keyless
        simp at keyless
      · exact absurd rfl token

inductive Write where
  | door (call : Call)
  | cmdSign (moment : Moment) (environ : Environ) (args : SignArgs)

def writeWith (env : Env) (json : JsonModule) (layer : Layer) (write : Toolbox × Write) : Outcome Layer :=
  match write.2 with
  | .door call => step (env.withTools (write.1.tools json)) layer call
  | .cmdSign moment environ args => cmdSign (env.withTools (write.1.tools json)) moment environ args layer

/-- The writes that can put a published signature into a layer: the doors that can, and `ledger sign` where it was
    asked to publish or signs by identity. -/
def Write.MayPublish (signature : String) : Write → Prop
  | .door call => LedgerProof.MayPublish signature call
  | .cmdSign _ _ args => args.rekor = true ∨ args.method = .identity

def Requested (signature : String) (start : Layer) (writes : List (Toolbox × Write)) (layer : Layer) : Prop :=
  layer.metadata.get "merkle_root_signature" = .str signature →
    start.metadata.get "merkle_root_signature" = .str signature ∨ ∃ write ∈ writes, write.2.MayPublish signature

theorem Requested.step {json : JsonModule} {start layer next : Layer} {writes : List (Toolbox × Write)}
    {write : Toolbox × Write} {signature : String} (rereads : Rereads json) (published : Published json signature)
    (member : write ∈ writes) (held : Requested signature start writes layer)
    (accepted : writeWith env json layer write = .ok next) : Requested signature start writes next := by
  intro carried
  obtain ⟨toolbox, write⟩ := write
  cases write with
  | door call =>
    rcases step_signature accepted carried with kept | source
    · exact held kept
    · exact Or.inr ⟨_, member, source.mayPublish rereads published⟩
  | cmdSign moment environ args =>
    obtain ⟨backend, makes⟩ := cmdSign_signature accepted carried
    refine Or.inr ⟨_, member, ?_⟩
    cases asked : args.rekor with
    | true => exact Or.inl asked
    | false =>
      rw [asked] at makes
      have keyless := Makes.keyless rereads published makes
      right
      cases method : args.method with
      | identity => rfl
      | keypair => simp [buildCredentials, method] at keyless

theorem published_signature_requested {json : JsonModule} {start : Layer} {writes : List (Toolbox × Write)}
    {signature : String} (rereads : Rereads json) (published : Published json signature)
    (carried : (run (writeWith env json) start writes).metadata.get "merkle_root_signature" = .str signature) :
    start.metadata.get "merkle_root_signature" = .str signature ∨ ∃ write ∈ writes, write.2.MayPublish signature := by
  have final : Requested signature start writes (run (writeWith env json) start writes) := by
    apply run_preserves_mem
    · intro held
      exact Or.inl held
    · intro layer write next member held accepted
      exact held.step rereads published member accepted
  exact final carried

def publishedText : String := "\x7b\"verificationMaterial\":\x7b\"tlogEntries\":[1]\x7d\x7d"

def publishedBundle : Dict :=
  Dict.ofList [("verificationMaterial", .obj (Dict.ofList [("tlogEntries", .arr [.int 1])]))]

def bundleJson : JsonModule where
  loads := fun text => if text = publishedText then some (.obj publishedBundle) else none
  compacted := id

def publishingCosign : Cosign where
  installed := true
  execute := fun _ _ _ => .ended 0 "" (.text publishedText)

def publishingBox : Toolbox := ⟨publishingCosign, fun _ => absentTool "identity"⟩

def keyMoment : Moment := { unsigned with config := ⟨false, some "ledger.key", "keypair"⟩ }

def signTwice : List (Toolbox × Write) :=
  [(publishingBox, .door (.sign keyMoment "acme")),
    (publishingBox, .cmdSign keyMoment (fun _ => none) ⟨.keypair, some "ledger.key", true⟩)]

theorem published_signature_requested_rekor :
    (run (writeWith referenceEnv bundleJson) oneClaim (signTwice.take 1)).metadata.get "merkle_root_signature" =
      .null ∧
    (run (writeWith referenceEnv bundleJson) oneClaim signTwice).metadata.get "merkle_root_signature" =
      .str publishedText ∧
    (oneClaim.metadata.get "merkle_root_signature" = .str publishedText ∨
      ∃ write ∈ signTwice, write.2.MayPublish publishedText) := by
  have rereads : Rereads bundleJson := fun _ _ read => read
  have published : Published bundleJson publishedText := ⟨publishedBundle, by simp [bundleJson], by decide⟩
  have carried : (run (writeWith referenceEnv bundleJson) oneClaim signTwice).metadata.get
      "merkle_root_signature" = .str publishedText := by
    decide +kernel
  exact ⟨by decide +kernel, carried, published_signature_requested rereads published carried⟩

end LedgerProof
