import TraustLedger.Artifacts
import TraustLedger.Verification

namespace LedgerModel

open Hashing Python Runs

/-- A signature of format 3 or later covers the report's digest; `int` raises on a format that is no number. -/
def dropSignatureNowStale (metadata : Dict) : Outcome Dict := do
  let declared := metadata.get "merkle_signature_format"
  let format ← toInt (if declared.truthy then declared else .int 0)
  if format < 3 then return metadata
  else if (metadata.get "merkle_root_signature").truthy = false then return metadata
  else return dropSignature metadata

variable (H : HashFunction)

def stampReportReference (metadata : Dict) (report : Bytes) (ref : Option String) : Outcome (Dict × Bool) := do
  let digest := hexDigest H report
  let otherBytes := !Json.pyEq (metadata.get "audit_report_sha256") (.str digest)
  let recorded := metadata.set "audit_report_sha256" (.str digest)
  let (placed, otherPlace) := match ref with
    | none => (recorded, false)
    | some place =>
      if Json.pyEq (recorded.get "audit_report_ref") (.str place) then (recorded, false)
      else (recorded.set "audit_report_ref" (.str place), true)
  if otherBytes || otherPlace then do
    let unsealed ← dropSignatureNowStale placed
    return (unsealed, true)
  else return (placed, false)

inductive HelperCall where
  | report (bytes : Bytes) (ref : Option String)
  | artifacts (directory : Listing) (layerName : String)

def helperStep (layer : Layer) : HelperCall → Outcome Layer
  | .report bytes ref => do
    let (metadata, _) ← stampReportReference H layer.metadata bytes ref
    return { layer with metadata := metadata }
  | .artifacts directory layerName =>
    return { layer with metadata := (stampArtifactDigests H layer.metadata directory layerName).1 }

def signingConfigFromEnv (environ : Environ) : SigningConfig where
  method := (signingEnv environ "METHOD" (some "keypair")).getD "keypair"
  keyPath := signingEnv environ "KEY_PATH" none
  oidcToken := signingEnv environ "OIDC_TOKEN" none

def stampAndSign (signers : Signers) (environ : Environ) (layer : Layer) : Outcome (Layer × SignAttempt × Bool) := do
  let (stamped, dropped) ← stampMerkleMetadata H layer
  let (signed, attempt) := signIfConfigured H signers (signingConfigFromEnv environ) stamped
  return (signed, attempt, dropped && attempt.status != .signed)

end LedgerModel
