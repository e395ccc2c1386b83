import TraustLedger.Proofs.SignedLayers
import TraustLedger.Verification

namespace LedgerProof

open Hashing Python Runs Sha256 LedgerModel

variable {H : HashFunction} {signers : Signers} {environ : Environ}

def Passes (H : HashFunction) (signers : Signers) (environ : Environ) (layer : Layer) : Prop :=
  ∃ report, verifyLayer H signers environ true layer = .ok report ∧ report.passed = true

/-- The setting `verify_merkle_signature` reads: the text `1` alone, under either prefix. -/
def verifierRequires (environ : Environ) : Prop := signingEnv environ "REQUIRED" (some "0") = some "1"

def stripped (layer : Layer) : Layer := { layer with metadata := dropSignature layer.metadata }

def CarriesValid (H : HashFunction) (valid : String → Bytes → Prop) (layer : Layer) : Prop :=
  ∃ signature payload findings, layer.metadata.get "merkle_root_signature" = .str signature ∧ signature ≠ "" ∧
    declaredPayload H layer.metadata = .ok (some (payload, findings)) ∧ valid signature payload

theorem passes_clean {layer : Layer} (passes : Passes H signers environ layer) :
    verifyMerkleIntegrity H layer = .ok [] ∧ verifyMerkleSignature H signers
      (signingEnv environ "REQUIRED" (some "0") = some "1") layer none none = .ok [] := by
  obtain ⟨report, verified, passed⟩ := passes
  obtain ⟨integrity, checked, verified⟩ := bind_ok_iff.mp verified
  obtain ⟨signature, signing, verified⟩ := bind_ok_iff.mp verified
  cases verified
  rw [List.isEmpty_iff, List.append_eq_nil_iff] at passed
  obtain ⟨rfl, rfl⟩ := passed
  exact ⟨checked, signing⟩

theorem passes_of_clean {layer : Layer} (integrity : verifyMerkleIntegrity H layer = .ok [])
    (signature : verifyMerkleSignature H signers (signingEnv environ "REQUIRED" (some "0") = some "1") layer none
      none = .ok []) : Passes H signers environ layer := by
  refine ⟨⟨true, []⟩, ?_, rfl⟩
  simp only [verifyLayer, integrity, signature, bind, Except.bind, if_true, List.append_nil, List.isEmpty_nil, pure,
    Except.pure]

/-- `verify_layer` hands on no public key, so every signature it meets leaves a warning. -/
theorem signed_fails {layer : Layer} (carried : (layer.metadata.get "merkle_root_signature").truthy = true) :
    ¬ Passes H signers environ layer := by
  intro passes
  have signature := (passes_clean passes).2
  simp only [verifyMerkleSignature, carried, Bool.true_eq_false, if_false] at signature
  cases signature

theorem unsigned_fails {layer : Layer} (required : verifierRequires environ)
    (absent : (layer.metadata.get "merkle_root_signature").truthy = false)
    (rooted : (layer.metadata.get "merkle_root").truthy = true) : ¬ Passes H signers environ layer := by
  intro passes
  have signature := (passes_clean passes).2
  unfold verifierRequires at required
  simp only [verifyMerkleSignature, absent, rooted, required, decide_true, and_self, if_true] at signature
  cases signature

theorem unsigned_passes {layer : Layer} (optional : ¬ verifierRequires environ) (stamped : Stamped H layer)
    (empty : layer.events = []) (absent : (layer.metadata.get "merkle_root_signature").truthy = false) :
    Passes H signers environ layer := by
  have restated : verifyRestatedMetadata layer = .ok [] := by
    rw [verifyRestatedMetadata_nil_iff, empty]
    exact ⟨fun event member => absurd member List.not_mem_nil, fun field _ => trivial⟩
  apply passes_of_clean (stamped.verifies.trans restated)
  unfold verifierRequires at optional
  simp only [verifyMerkleSignature, absent, optional, decide_false, Bool.false_eq_true, and_false, if_true, if_false]
  rfl

theorem stripped_signature (layer : Layer) : (stripped layer).metadata.get "merkle_root_signature" = .null := by
  simp [stripped, get_dropSignature, signatureKeys]

theorem Stamped.stripped {layer : Layer} (stamped : Stamped H layer) : Stamped H (stripped layer) := by
  have kept : ∀ key, key ∉ signatureKeys → (LedgerProof.stripped layer).metadata.get key = layer.metadata.get key := by
    intro key other
    simp only [LedgerProof.stripped, get_dropSignature, other, if_false]
  exact stamped.congr rfl kept

theorem stamp_empty (H : HashFunction) : ∃ bare : Layer, Stamped H bare ∧ bare.events = [] ∧
    bare.metadata.get "merkle_root_signature" = .null := by
  cases stamp : stampMerkleMetadata H ⟨[], [], []⟩ with
  | error failure =>
    simp [stampMerkleMetadata, Dict.setDefault, Dict.has, Dict.get, Dict.set, toInt, Json.pyInt, requireStampableEpoch,
      require, computeMerkleRoot_current, bind, Except.bind] at stamp
    split at stamp <;> cases stamp
  | ok result =>
    obtain ⟨bare, dropped⟩ := result
    refine ⟨bare, stamped_of_stamp stamp, events_stamped stamp, ?_⟩
    rw [signature_stamped stamp]
    cases dropped <;> rfl

def signedWith (signature : String) (layer : Layer) : Layer :=
  { layer with metadata := ((layer.metadata.set "merkle_root_signature" (.str signature)).set "merkle_signing_method"
    (.str "keypair")).set "merkle_signature_format" (.int signatureFormatCurrent) }

theorem Stamped.signedWith {layer : Layer} (stamped : Stamped H layer) (signature : String) :
    Stamped H (signedWith signature layer) := by
  have kept : ∀ key, key ∉ signatureKeys →
      (LedgerProof.signedWith signature layer).metadata.get key = layer.metadata.get key := by
    intro key other
    simp only [signatureKeys, List.mem_cons, List.not_mem_nil, or_false, not_or] at other
    simp [LedgerProof.signedWith, other]
  exact stamped.congr rfl kept

theorem carriesValid_signedWith {valid : String → Bytes → Prop} {layer : Layer} {signature : String}
    (present : signature ≠ "") (attested : valid signature (payloadOf H layer)) :
    CarriesValid H valid (signedWith signature layer) := by
  refine ⟨signature, payloadOf H (signedWith signature layer), [], by simp [signedWith], present, ?_, ?_⟩
  · have format : (signedWith signature layer).metadata.getD "merkle_signature_format" (.int 1) =
        .int signatureFormatCurrent := by
      simp [signedWith, Dict.getD]
    simp [declaredPayload, format, payloadOf, pure, Except.pure]
  · rw [signedWith, payloadOf_signed]
    exact attested

/-- Removing a signature is no way around verification, and required signing is enforced there, exactly where the
    verifier's own setting is the text `1`. -/
theorem signature_downgrade_iff (H : HashFunction) (signers : Signers) (environ : Environ)
    (valid : String → Bytes → Prop) (signable : ∀ payload, ∃ signature, signature ≠ "" ∧ valid signature payload) :
    ((∀ layer, CarriesValid H valid layer → Passes H signers environ (stripped layer) →
        Passes H signers environ layer) ∧
      ((configFromEnv environ).signingRequired = true → ∀ layer : Layer,
        (layer.metadata.get "merkle_root").truthy = true →
        (layer.metadata.get "merkle_root_signature").truthy = false → ¬ Passes H signers environ layer)) ↔
      verifierRequires environ := by
  constructor
  · rintro ⟨noDowngrade, -⟩
    by_contra optional
    obtain ⟨bare, stamped, empty, -⟩ := stamp_empty H
    obtain ⟨signature, present, attested⟩ := signable (payloadOf H bare)
    have carried : ((signedWith signature bare).metadata.get "merkle_root_signature").truthy = true := by
      simpa [signedWith, Json.truthy] using present
    have strippedPasses : Passes H signers environ (stripped (signedWith signature bare)) := by
      apply unsigned_passes optional (stamped.signedWith signature).stripped empty
      rw [stripped_signature]
      rfl
    exact signed_fails carried (noDowngrade _ (carriesValid_signedWith present attested) strippedPasses)
  · intro required
    constructor
    · intro layer _ passes
      have rooted : ((stripped layer).metadata.get "merkle_root").truthy = true := by
        obtain ⟨-, -, root, -⟩ := verifyMerkleIntegrity_clean (passes_clean passes).1
        rw [root]
        exact hex_truthy _
      exact absurd passes (unsigned_fails required (by rw [stripped_signature]; rfl) rooted)
    · intro _ layer rooted absent
      exact unsigned_fails required absent rooted

def requiredAs (text : String) : Environ := fun name => if name = "LAAS_SIGNING_REQUIRED" then some text else none

def marks (signature : String) (payload : Bytes) : Prop := signature = String.ofList ('#' :: hexChars payload)

theorem marks_signable (payload : Bytes) : ∃ signature, signature ≠ "" ∧ marks signature payload := by
  refine ⟨_, ?_, rfl⟩
  intro blank
  have spelled := congrArg String.toList blank
  simp at spelled

theorem signature_downgrade_one : verifierRequires (requiredAs "1") ∧
    ((∀ layer, CarriesValid sha256 marks layer → Passes sha256 spellingTools.signers (requiredAs "1") (stripped layer) →
        Passes sha256 spellingTools.signers (requiredAs "1") layer) ∧
      ((configFromEnv (requiredAs "1")).signingRequired = true → ∀ layer : Layer,
        (layer.metadata.get "merkle_root").truthy = true →
        (layer.metadata.get "merkle_root_signature").truthy = false →
        ¬ Passes sha256 spellingTools.signers (requiredAs "1") layer)) := by
  have required : verifierRequires (requiredAs "1") := by
    unfold verifierRequires
    decide +kernel
  exact ⟨required, (signature_downgrade_iff sha256 spellingTools.signers (requiredAs "1") marks marks_signable).mpr
    required⟩

def signedLayer : Layer :=
  run (stepWith referenceEnv) oneClaim [(spellingTools, submitScanWith requiredSigning)]

/-- Under `LAAS_SIGNING_REQUIRED=true` the service requires signing and the verifier does not: a layer passes once
    its signature is deleted, and only then. -/
theorem deleted_signature_passes : (configFromEnv (requiredAs "true")).signingRequired = true ∧
    CarriesValid sha256 spells signedLayer ∧
    ((stripped signedLayer).metadata.get "merkle_root").truthy = true ∧
    ((stripped signedLayer).metadata.get "merkle_root_signature").truthy = false ∧
    Passes sha256 spellingTools.signers (requiredAs "true") (stripped signedLayer) ∧
    ¬ Passes sha256 spellingTools.signers (requiredAs "true") signedLayer := by
  have carried : signedLayer.metadata.get "merkle_root_signature" = .str (hex (payloadOf sha256 signedLayer)) ∧
      hex (payloadOf sha256 signedLayer) ≠ "" ∧
      declaredPayload sha256 signedLayer.metadata = .ok (some (payloadOf sha256 signedLayer, [])) := by
    decide +kernel
  have clean : ((stripped signedLayer).metadata.get "merkle_root").truthy = true ∧
      verifyMerkleIntegrity sha256 (stripped signedLayer) = .ok [] ∧
      verifyMerkleSignature sha256 spellingTools.signers
        (signingEnv (requiredAs "true") "REQUIRED" (some "0") = some "1") (stripped signedLayer) none none = .ok [] := by
    decide +kernel
  obtain ⟨signature, present, declared⟩ := carried
  obtain ⟨root, integrity, unsigned⟩ := clean
  refine ⟨by decide +kernel, ⟨_, _, [], signature, present, declared, rfl⟩, root, ?_,
    passes_of_clean integrity unsigned, signed_fails ?_⟩
  · rw [stripped_signature]
    rfl
  · rw [signature]
    simpa [Json.truthy] using present

end LedgerProof
