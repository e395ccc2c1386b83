import TraustLedger.Proofs.FinalizedLayers
import TraustLedger.Proofs.SignatureBinding

namespace LedgerProof

open Hashing Python Runs Logs Sha256 LedgerModel

variable {env : Env} {H : HashFunction}

def payloadOf (H : HashFunction) (layer : Layer) : Bytes :=
  merkleSignaturePayload H layer.metadata signatureFormatCurrent

theorem computeRoot_digest (entries : List Bytes) : Digest (computeRoot H entries) := by
  by_cases none : entries = []
  · subst none
    simpa [Digest, computeRoot, mthFromLeafHashes] using H.digest_length []
  · exact MerkleTree.sized_root nodeHash_digest (by simpa using none) (leafHash_digest entries)

theorem hex_truthy (entries : List Bytes) : (Json.str (hex (computeRoot H entries))).truthy = true := by
  have spelled : hex (computeRoot H entries) ≠ "" := by
    intro blank
    have digest := @computeRoot_digest H entries
    have equal : hex (computeRoot H entries) = hex [] := blank
    rw [hex_injective equal] at digest
    cases digest
  simpa [Json.truthy] using spelled

structure MerkleFields (H : HashFunction) (layer : Layer) : Prop where
  root : layer.metadata.get "merkle_root" = .str (hex (computeRoot H ((postEpoch layer).map canonicalEventBytes)))
  size : layer.metadata.get "merkle_size" = .int (postEpoch layer).length
  format : layer.metadata.get "leaf_format" = .int leafFormatCurrent
  checkpoint : layer.metadata.get "pre_merkle_checkpoint" =
    if 0 < epochOf layer then .str (computePreEpochCheckpoint H (preEpoch layer)) else .null

theorem Stamped.fields {layer : Layer} (stamped : Stamped H layer) : MerkleFields H layer :=
  ⟨stamped.root, stamped.size, stamped.format, stamped.checkpoint⟩

theorem payloadOf_congr {left right : Layer} (leftFields : MerkleFields H left) (rightFields : MerkleFields H right)
    (same : SameSigned left right) : payloadOf H left = payloadOf H right := by
  have epochs := epochOf_congr same.epoch
  have entries : (postEpoch left).map canonicalEventBytes = (postEpoch right).map canonicalEventBytes := by
    have dumped := congrArg (List.map fun event => dumps false (.obj event)) same.postEpoch
    rwa [List.map_map, List.map_map] at dumped
  have sizes : (postEpoch left).length = (postEpoch right).length := by
    simpa using congrArg List.length entries
  have digests : ∀ {a b : Json}, SameOrEmpty a b → digestIfHeld H a = digestIfHeld H b := by
    rintro a b (rfl | ⟨leftEmpty, rightEmpty⟩)
    · rfl
    · simp [digestIfHeld, leftEmpty, rightEmpty]
  have formats : left.metadata.getD "leaf_format" (.int 1) = right.metadata.getD "leaf_format" (.int 1) := by
    rw [getD_eq_get (by simp [leftFields.format]), getD_eq_get (by simp [rightFields.format]),
      leftFields.format, rightFields.format]
  have rawEpochs : left.metadata.getD "merkle_epoch" (.int 0) = right.metadata.getD "merkle_epoch" (.int 0) :=
    same.epoch
  unfold payloadOf merkleSignaturePayload signatureDocument
  rw [leftFields.root, rightFields.root, leftFields.size, rightFields.size, leftFields.checkpoint,
    rightFields.checkpoint, entries, sizes, epochs, same.preEpoch, formats, rawEpochs, digests same.claimHashes,
    same.auditReport, digests same.artifactDigests]

def HonestSigners (made : String → Bytes → Prop) (signers : Signers) : Prop :=
  ∀ config backend payload keyPath result, getBackendFromConfig signers config = .ok backend →
    backend.sign payload keyPath = .ok result → result.success = true → made result.signature payload

/-- A tool that reports success made the signature it returns over the payload it was given. -/
structure Honest (made : String → Bytes → Prop) (env : Env) : Prop where
  signers : HonestSigners made env.signers
  publishing : HonestSigners made env.publishing

variable {made : String → Bytes → Prop}

def SignedOver (H : HashFunction) (made : String → Bytes → Prop) (layer : Layer) : Prop :=
  ∃ signature, layer.metadata.get "merkle_root_signature" = .str signature ∧ made signature (payloadOf H layer)

theorem payloadOf_signed (layer : Layer) (signature method format : Json) :
    payloadOf H { layer with metadata := ((layer.metadata.set "merkle_root_signature" signature).set
      "merkle_signing_method" method).set "merkle_signature_format" format } = payloadOf H layer := by
  simp [payloadOf, merkleSignaturePayload, signatureDocument, Dict.getD]

theorem signIfConfigured_cases {signers : Signers} {config : SigningConfig} (layer : Layer)
    (honest : HonestSigners made signers) :
    ((signIfConfigured H signers config layer).2.status = .signed ∧
      SignedOver H made (signIfConfigured H signers config layer).1) ∨
    ((signIfConfigured H signers config layer).2.status ≠ .signed ∧
      (signIfConfigured H signers config layer).1 = layer) := by
  unfold signIfConfigured
  simp only
  generalize (if config.method = "" then "keypair" else config.method) = method
  split
  · exact Or.inr ⟨by simp, rfl⟩
  split
  · exact Or.inr ⟨by simp, rfl⟩
  split
  · exact Or.inr ⟨by simp, rfl⟩
  cases chosen : getBackendFromConfig signers config with
  | error detail => exact Or.inr ⟨by simp, rfl⟩
  | ok backend =>
    simp only
    cases signing : backend.sign (merkleSignaturePayload H layer.metadata signatureFormatCurrent)
        (config.keyPath.getD "") with
    | error detail => exact Or.inr ⟨by simp, rfl⟩
    | ok result =>
      simp only
      split
      · next success =>
        refine Or.inl ⟨rfl, result.signature, by simp, ?_⟩
        rw [payloadOf_signed]
        exact honest config backend _ _ result chosen signing success
      · exact Or.inr ⟨by simp, rfl⟩

section Stamping

variable {layer stamped : Layer} {dropped : Bool} (accepted : stampMerkleMetadata H layer = .ok (stamped, dropped))

include accepted

theorem sameSigned_stamped : SameSigned stamped layer where
  epoch := rawEpoch_stamped accepted
  preEpoch := preEpoch_stamped accepted
  postEpoch := by rw [postEpoch_stamped accepted]
  claimHashes := Or.inl (get_stamped_of_ne accepted (by decide))
  auditReport := get_stamped_of_ne accepted (by decide)
  artifactDigests := Or.inl (get_stamped_of_ne accepted (by decide))

theorem signature_stamped : stamped.metadata.get "merkle_root_signature" =
    if dropped then .null else layer.metadata.get "merkle_root_signature" := by
  obtain ⟨-, -, -, rfl, -⟩ := stampMerkleMetadata_ok accepted
  have body : (stampedMetadata H layer).get "merkle_root_signature" =
      layer.metadata.get "merkle_root_signature" := by
    unfold stampedMetadata withRoot
    simp only [Dict.get_set, String.reduceEq, if_false]
    rw [get_withCheckpoint _ _ _ (by decide), get_setDefault, if_neg (by decide)]
  cases dropped with
  | false => exact body
  | true => simp [get_dropSignature, signatureKeys]

theorem Stamped.again (held : Stamped H layer) : dropped = false ∧ payloadOf H stamped = payloadOf H layer := by
  obtain ⟨-, -, -, -, moved⟩ := stampMerkleMetadata_ok accepted
  refine ⟨?_, payloadOf_congr (stamped_of_stamp accepted).fields held.fields (sameSigned_stamped accepted)⟩
  rw [held.root] at moved
  cases dropped with
  | false => rfl
  | true => simpa using moved.mp rfl

theorem SignedOver.again (held : Stamped H layer) (signed : SignedOver H made layer) : SignedOver H made stamped := by
  obtain ⟨kept, payload⟩ := held.again accepted
  obtain ⟨signature, carried, produced⟩ := signed
  refine ⟨signature, ?_, ?_⟩
  · rw [signature_stamped accepted, kept]
    exact carried
  · rw [payload]
    exact produced

end Stamping

/-- What `finalizeLayer` stores is signed over itself, or it is the stamped draft, signing is not required and
    the signer did not sign. -/
theorem finalizeLayer_cases {moment : Moment} {layerId root : String} {draft next : Layer}
    (honest : HonestSigners made env.signers)
    (accepted : finalizeLayer env moment layerId draft = .ok (next, root)) :
    SignedOver env.hash made next ∨ ∃ dropped, stampMerkleMetadata env.hash draft = .ok (next, dropped) ∧
      moment.config.signingRequired = false ∧ (signIfConfigured env.hash env.signers
        (signingConfig moment.config moment.harness) next).2.status ≠ .signed := by
  unfold finalizeLayer at accepted
  obtain ⟨⟨stamped, dropped⟩, stamp, accepted⟩ := bind_ok_iff.mp accepted
  simp only at accepted
  have cases := @signIfConfigured_cases env.hash made env.signers (signingConfig moment.config moment.harness)
    stamped honest
  generalize outcome : signIfConfigured env.hash env.signers (signingConfig moment.config moment.harness) stamped =
    answer at accepted cases
  obtain ⟨signed, attempt⟩ := answer
  obtain ⟨_, enough, accepted⟩ := bind_ok_iff.mp accepted
  cases accepted
  rw [require_ok_iff] at enough
  rcases cases with ⟨-, attested⟩ | ⟨failed, rfl⟩
  · exact Or.inl attested
  · exact Or.inr ⟨dropped, stamp, enough.resolve_right failed, by rwa [outcome]⟩

structure KeyPairConfigured (config : SigningConfig) : Prop where
  method : config.method = "" ∨ config.method = "keypair"
  key : config.keyPath.getD "" ≠ ""

theorem signIfConfigured_configured {signers : Signers} {config : SigningConfig} (layer : Layer)
    (configured : KeyPairConfigured config) :
    (signIfConfigured H signers config layer).2.status ≠ .unconfigured := by
  have method : (if config.method = "" then "keypair" else config.method) = "keypair" := by
    rcases configured.method with named | named <;> simp [named]
  unfold signIfConfigured
  simp only [method, configured.key, beq_iff_eq, and_false, if_false, ne_eq, not_true, false_and]
  split
  · simp
  split
  · simp
  split
  · simp
  · split <;> simp

theorem signLayer_cases {moment : Moment} {signers : Signers} {layer next : Layer} {attempt : SignAttempt}
    (honest : HonestSigners made signers) (accepted : signLayer env moment signers none layer = .ok (next, attempt)) :
    SignedOver env.hash made next ∨ ¬ KeyPairConfigured (credentialsFromConfig moment.config) ∧
      ∃ dropped, stampMerkleMetadata env.hash layer = .ok (next, dropped) := by
  unfold signLayer at accepted
  obtain ⟨⟨stamped, dropped⟩, stamp, accepted⟩ := bind_ok_iff.mp accepted
  simp only [Option.getD_none] at accepted
  obtain ⟨_, passed, accepted⟩ := bind_ok_iff.mp accepted
  rw [require_ok_iff] at passed
  cases accepted
  rcases @signIfConfigured_cases env.hash made signers (credentialsFromConfig moment.config) stamped honest with
    ⟨-, attested⟩ | ⟨unsigned, same⟩
  · exact Or.inl attested
  · refine Or.inr ⟨fun known => ?_, dropped, by rw [same, stamp]⟩
    have configured := @signIfConfigured_configured env.hash signers (credentialsFromConfig moment.config) stamped known
    revert passed unsigned configured
    cases (signIfConfigured env.hash signers (credentialsFromConfig moment.config) stamped).2.status <;> simp

def momentOf : Call → Option Moment
  | .restate moment .. | .patch moment .. | .submitEvent moment .. | .submitBatch moment .. | .stampIdentities moment ..
  | .sign moment .. | .signEndpoint moment .. | .resolve moment .. => some moment
  | .cmdSubmitEvents .. | .cmdSubmitQueue .. => none

theorem Draft.moment {layer draft : Layer} {call : Call} {moment : Moment}
    (drafted : Draft env layer call moment draft) : momentOf call = some moment := by
  cases drafted <;> rfl

def RequiresSigning (call : Call) : Prop := ∀ moment ∈ momentOf call, moment.config.signingRequired = true

/-- A layer that holds an event is stamped and signed over itself. -/
structure Sealed (H : HashFunction) (made : String → Bytes → Prop) (layer : Layer) : Prop where
  stamped : layer.events ≠ [] → Stamped H layer
  signed : layer.events ≠ [] → SignedOver H made layer

/-- The call signs what it stores, whatever the layer held before: it stamps, and the sign endpoint finds a key. -/
structure SignsStored (call : Call) : Prop where
  stamps : Stamps call
  configured : ∀ moment layerId rekor, call = .signEndpoint moment layerId rekor →
    KeyPairConfigured (credentialsFromConfig moment.config)

theorem Sealed.step {layer next : Layer} {call : Call} (held : SignsStored call ∨ Sealed env.hash made layer)
    (honest : Honest made env) (required : RequiresSigning call) (known : ¬ BringsNew env layer call)
    (accepted : step env layer call = .ok next) : Sealed env.hash made next := by
  cases step_written accepted with
  | finalized drafted finalizing =>
    refine ⟨fun _ => stamped_of_finalize finalizing, fun _ => ?_⟩
    rcases finalizeLayer_cases honest.signers finalizing with signed | ⟨-, -, optional, -⟩
    · exact signed
    · rw [required _ drafted.moment] at optional
      cases optional
  | appended appending =>
    cases cmdSubmit_known known appending
    exact held.resolve_left fun signs => signs.stamps
  | @endpoint moment layerId rekor _ attempt signing =>
    have tool : HonestSigners made (if rekor then env.publishing else env.signers) := by
      split
      · exact honest.publishing
      · exact honest.signers
    refine ⟨fun _ => stamped_of_signLayer signing, fun nonempty => ?_⟩
    rw [(signLayer_ok signing).1] at nonempty
    rcases signLayer_cases tool signing with signed | ⟨unconfigured, dropped, stamp⟩
    · exact signed
    have sealed := held.resolve_left fun signs => unconfigured (signs.configured moment layerId rekor rfl)
    exact (sealed.signed nonempty).again stamp (sealed.stamped nonempty)
  | queued metadata events unstamped =>
    have payload : payloadOf env.hash next = payloadOf env.hash layer := by
      rw [payloadOf, payloadOf, metadata]
    have sealed := held.resolve_left fun signs => unstamped signs.stamps
    constructor
    · rw [events]
      exact fun nonempty => (sealed.stamped nonempty).congr events fun key _ => by rw [metadata]
    · rw [events]
      intro nonempty
      obtain ⟨signature, carried, produced⟩ := sealed.signed nonempty
      refine ⟨signature, by rw [metadata, carried], ?_⟩
      rw [payload]
      exact produced

def SignsFirst (env : Env) (layer : Layer) : List (Tools × Call) → Prop
  | [] => True
  | call :: calls =>
    match stepWith env layer call with
    | .ok _ => SignsStored call.2
    | .error _ => SignsFirst env layer calls

/-- An accepted call that leaves an event stores a layer signed over itself. -/
def StoresSigned (env : Env) (made : String → Bytes → Prop) (layer : Layer) (call : Tools × Call) : Prop :=
  ∀ next, stepWith env layer call = .ok next → next.events ≠ [] → SignedOver env.hash made next

theorem required_signing (env : Env) (made : String → Bytes → Prop) (start : Layer) (calls : List (Tools × Call))
    (honest : ∀ call ∈ calls, Honest made (env.withTools call.1)) (required : ∀ call ∈ calls, RequiresSigning call.2)
    (known : Along (stepWith env) (fun layer call => ¬ BringsNew env layer call.2) start calls)
    (begun : Sealed env.hash made start ∨ SignsFirst env start calls) :
    Along (stepWith env) (StoresSigned env made) start calls := by
  induction calls generalizing start with
  | nil => trivial
  | cons call calls ih =>
    rw [List.forall_mem_cons] at honest required
    have sealed : ∀ next, stepWith env start call = .ok next → Sealed env.hash made next := by
      intro next accepted
      have held : SignsStored call.2 ∨ Sealed env.hash made start := by
        rcases begun with sealed | first
        · exact Or.inr sealed
        · rw [SignsFirst, accepted] at first
          exact Or.inl first
      exact @Sealed.step (env.withTools call.1) made start next call.2 held honest.1 required.1
        (known.1 ⟨next, accepted⟩) accepted
    refine ⟨fun _ next accepted => (sealed next accepted).signed, ?_⟩
    apply ih _ honest.2 required.2 known.2
    -- A refused call leaves the layer as it was, so the first accepted call is still ahead.
    cases outcome : stepWith env start call with
    | ok next =>
      rw [attempt_ok outcome]
      exact Or.inl (sealed next outcome)
    | error failure =>
      have stays : attempt (stepWith env) start call = start := by simp [attempt, outcome]
      rw [stays]
      rw [SignsFirst, outcome] at begun
      exact begun

def spellingBackend : SigningBackend where
  methodName := "keypair"
  available := true
  sign := fun payload _ => .ok ⟨hex payload, true, none⟩
  verify := fun payload signature _ => .ok ⟨decide (signature = .str (hex payload)), none⟩

def spellingTools : Tools where
  signers := ⟨spellingBackend, fun _ => spellingBackend⟩
  publishing := ⟨spellingBackend, fun _ => spellingBackend⟩

def spells (signature : String) (payload : Bytes) : Prop := signature = hex payload

theorem spelling_honest (env : Env) : Honest spells (env.withTools spellingTools) := by
  have signs : HonestSigners spells spellingTools.signers := by
    intro config backend payload keyPath result chosen signing _
    have chosenTool : backend = spellingBackend := by
      unfold getBackendFromConfig at chosen
      split at chosen
      · cases chosen
        rfl
      · split at chosen
        · cases chosen
          rfl
        · cases chosen
    subst chosenTool
    cases signing
    rfl
  exact ⟨signs, signs⟩

def requiredSigning : Moment := { unsigned with config := ⟨true, some "ledger.key", "cosign"⟩ }

def submitScanWith (moment : Moment) : Call :=
  .submitBatch moment "acme" ⟨"validation-1.json", sampleInstant, [scanEvent], []⟩ scannerAccount

def cmdSubmitScan : Tools × Call := (spellingTools, .cmdSubmitEvents "acme" [.obj scanEvent] scannerAccount)

def signedScan : Tools × Call := (spellingTools, submitScanWith requiredSigning)

def endpointSign : Tools × Call := (spellingTools, .signEndpoint requiredSigning "acme" false)

theorem requiredSigning_required {call : Tools × Call} (member : call ∈ [cmdSubmitScan, signedScan, endpointSign]) :
    Honest spells (referenceEnv.withTools call.1) ∧ RequiresSigning call.2 := by
  simp only [List.mem_cons, List.not_mem_nil, or_false] at member
  rcases member with rfl | rfl | rfl <;>
    exact ⟨spelling_honest referenceEnv, fun moment found => by cases found <;> rfl⟩

def unsignedScan : Layer := run (stepWith referenceEnv) oneClaim [cmdSubmitScan]

theorem required_signing_scan : unsignedScan.events ≠ [] ∧
    unsignedScan.metadata.get "merkle_root_signature" = .null ∧
    (stepWith referenceEnv unsignedScan signedScan).isOk = true ∧
    Along (stepWith referenceEnv) (StoresSigned referenceEnv spells) unsignedScan [signedScan, endpointSign] := by
  have accepted : (stepWith referenceEnv unsignedScan signedScan).isOk = true := by decide +kernel
  refine ⟨by decide +kernel, by decide +kernel, accepted, ?_⟩
  apply required_signing referenceEnv spells unsignedScan
  · intro call member
    exact (requiredSigning_required (List.mem_cons_of_mem _ member)).1
  · intro call member
    exact (requiredSigning_required (List.mem_cons_of_mem _ member)).2
  · exact ⟨fun _ => not_false, fun _ => not_false, trivial⟩
  · right
    rw [SignsFirst]
    split
    · exact ⟨List.cons_ne_nil _ _, fun _ _ _ endpoint => by cases endpoint⟩
    · next refused =>
      rw [refused] at accepted
      cases accepted

/-- With signing required and a working signer, `cmd_submit` stores an unsigned log, and the sign endpoint, which
    does not know the method under its service name, accepts it and leaves it unsigned. -/
theorem cmdSubmit_unsigned : initializeLayer referenceEnv "acme" none oneClaim = .ok oneClaim ∧
    (∀ call ∈ [cmdSubmitScan, endpointSign], Honest spells (referenceEnv.withTools call.1) ∧ RequiresSigning call.2) ∧
    (stepWith referenceEnv oneClaim cmdSubmitScan).isOk = true ∧
    (stepWith referenceEnv (run (stepWith referenceEnv) oneClaim [cmdSubmitScan]) endpointSign).isOk = true ∧
    (run (stepWith referenceEnv) oneClaim [cmdSubmitScan, endpointSign]).events ≠ [] ∧
    ¬ SignedOver sha256 spells (run (stepWith referenceEnv) oneClaim [cmdSubmitScan, endpointSign]) := by
  refine ⟨rfl, ?_, by decide +kernel, by decide +kernel, by decide +kernel, ?_⟩
  · intro call member
    apply requiredSigning_required
    simp only [List.mem_cons, List.not_mem_nil, or_false] at member ⊢
    exact member.imp_right Or.inr
  · rintro ⟨signature, carried, -⟩
    have absent : (run (stepWith referenceEnv) oneClaim [cmdSubmitScan, endpointSign]).metadata.get
        "merkle_root_signature" = .null := by
      decide +kernel
    rw [absent] at carried
    cases carried

end LedgerProof
