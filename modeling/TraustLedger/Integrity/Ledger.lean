import TraustLedger.Integrity.Merkle
import TraustLedger.Integrity.Signing
import TraustLedger.Layer

namespace LedgerModel

open Hashing Python Runs

inductive Severity where
  | error
  | warning
  deriving DecidableEq

structure IntegrityFinding where
  severity : Severity
  message : String
  deriving DecidableEq

def toInt (value : Json) : Outcome Int :=
  match value.pyInt, value with
  | some n, _ => .ok n
  | none, .str s => .error (.valueError ("invalid literal for int() with base 10: " ++ pyRepr (.str s)))
  | none, _ => .error .typeError

variable (H : HashFunction)

def signatureKeys : List String :=
  ["merkle_root_signature", "merkle_signing_method", "merkle_signature_format"]

def dropSignature (metadata : Dict) : Dict := signatureKeys.foldl Dict.remove metadata

def requireStampableEpoch (epoch : Int) (count : Nat) : Outcome Unit := do
  require (0 ≤ epoch) (.valueError ("metadata.merkle_epoch is negative (" ++ toString epoch ++
    ") — refusing to stamp; fix the layer metadata explicitly"))
  if count = 0 then
    require (epoch = 0) (.valueError ("metadata.merkle_epoch is " ++ toString epoch ++
      " but the events array is empty — refusing to stamp over what looks like a truncated " ++
      "ledger; restore the events or reset merkle_epoch explicitly"))
  else
    require (epoch < count) (.valueError ("metadata.merkle_epoch (" ++ toString epoch ++
      ") is out of range for " ++ toString count ++ " event(s) — refusing to stamp over what looks " ++
      "like a truncated ledger; restore the events or reset merkle_epoch explicitly"))

def withCheckpoint (metadata : Dict) (epoch : Int) (preEpoch : List Dict) : Dict :=
  if 0 < epoch then metadata.set "pre_merkle_checkpoint" (.str (computePreEpochCheckpoint H preEpoch))
  else metadata.remove "pre_merkle_checkpoint"

def withRoot (metadata : Dict) (root : String) (size : Nat) : Dict :=
  (((metadata.set "merkle_root" (.str root)).set "merkle_size" (.int size)).set "merkle_algorithm"
    (.str "sha256")).set "leaf_format" (.int leafFormatCurrent)

def stampMerkleMetadata (layer : Layer) : Outcome (Layer × Bool) := do
  let metadata := layer.metadata.setDefault "merkle_epoch" (.int 0)
  let epoch ← toInt (metadata.get "merkle_epoch")
  requireStampableEpoch epoch layer.events.length
  let preEpoch := layer.events.take epoch.toNat
  let postEpoch := layer.events.drop epoch.toNat
  let pinned := withCheckpoint H metadata epoch preEpoch
  let priorRoot := pinned.get "merkle_root"
  let (root, size) ← computeMerkleRoot H postEpoch leafFormatCurrent
  let stamped := withRoot pinned root size
  if priorRoot ≠ .null ∧ Json.pyEq priorRoot (.str root) = false then
    return ({ layer with metadata := dropSignature stamped }, true)
  else return ({ layer with metadata := stamped }, false)

def signatureFormatCurrent : Int := 4

def digestIfHeld (value : Json) : Json :=
  if value.truthy then .str (hexDigest H (dumps true value)) else .null

def signatureDocument (metadata : Dict) (fmt : Int) : Dict :=
  Dict.ofList ([("merkle_root", metadata.get "merkle_root"),
    ("leaf_format", metadata.getD "leaf_format" (.int 1)),
    ("merkle_epoch", metadata.getD "merkle_epoch" (.int 0)),
    ("merkle_size", metadata.get "merkle_size"),
    ("pre_merkle_checkpoint", metadata.get "pre_merkle_checkpoint"),
    ("claim_hashes_digest", digestIfHeld H (metadata.get "claim_hashes"))] ++
    (if 3 ≤ fmt then [("audit_report_sha256", metadata.get "audit_report_sha256")] else []) ++
    (if 4 ≤ fmt then [("artifact_digests_digest", digestIfHeld H (metadata.get "artifact_digests"))] else []))

def merkleSignaturePayload (metadata : Dict) (fmt : Int) : Bytes :=
  H.digest (dumps true (.obj (signatureDocument H metadata fmt)))

def hexDigitValue (c : Char) : Option UInt8 :=
  if '0' ≤ c ∧ c ≤ '9' then some (UInt8.ofNat (c.toNat - 48))
  else if 'a' ≤ c ∧ c ≤ 'f' then some (UInt8.ofNat (c.toNat - 87))
  else if 'A' ≤ c ∧ c ≤ 'F' then some (UInt8.ofNat (c.toNat - 55))
  else none

/-- `bytes.fromhex`: pairs of digits, ASCII whitespace between the pairs, which is less than what `isSpace` takes. -/
def fromHexChars : List Char → Option Bytes
  | [] => some []
  | [c] => if c ∈ [' ', '\t', '\n', '\x0b', '\x0c', '\r'] then some [] else none
  | c :: d :: rest =>
    if c ∈ [' ', '\t', '\n', '\x0b', '\x0c', '\r'] then fromHexChars (d :: rest)
    else match hexDigitValue c, hexDigitValue d, fromHexChars rest with
      | some high, some low, some bytes => some ((16 * high + low) :: bytes)
      | _, _, _ => none

def merkleRootPayload : Json → Outcome Bytes
  | .str merkleRoot => match fromHexChars (chars merkleRoot) with
    | some bytes => .ok bytes
    | none => .error (.valueError "non-hexadecimal number found in fromhex() arg")
  | _ => .error .typeError

inductive SignStatus where
  | unconfigured
  | signed
  | failed
  deriving DecidableEq

structure SignAttempt where
  status : SignStatus
  method : Option String
  error : Option String

def signIfConfigured (signers : Signers) (config : SigningConfig) (layer : Layer) : Layer × SignAttempt :=
  let method := if config.method = "" then "keypair" else config.method
  let missing (secret : Option String) : Bool := secret.getD "" == ""
  if method = "keypair" ∧ missing config.keyPath = true then (layer, ⟨.unconfigured, none, none⟩)
  else if method ≠ "keypair" ∧ missing config.oidcToken = true then (layer, ⟨.unconfigured, some method, none⟩)
  else if (layer.metadata.get "merkle_root").truthy = false then
    (layer, ⟨.failed, some method,
      some "no metadata.merkle_root to sign — call stamp_merkle_metadata() first"⟩)
  else
    match getBackendFromConfig signers config with
    | .error detail => (layer, ⟨.failed, some method, some detail⟩)
    | .ok backend =>
      match backend.sign (merkleSignaturePayload H layer.metadata signatureFormatCurrent)
          (config.keyPath.getD "") with
      | .error detail => (layer, ⟨.failed, some method, some detail⟩)
      | .ok result =>
        if result.success then
          let metadata := ((layer.metadata.set "merkle_root_signature" (.str result.signature)).set
            "merkle_signing_method" (.str backend.methodName)).set
            "merkle_signature_format" (.int signatureFormatCurrent)
          ({ layer with metadata := metadata }, ⟨.signed, some backend.methodName, none⟩)
        else
          let reason := result.error.getD ""
          (layer, ⟨.failed, some method, some (if reason = "" then "sign failed" else reason)⟩)

def driftedKeys (expected : Dict) (actual : Json) : List String :=
  (expected.items.filter fun entry => match actual with
    | .obj held => !Json.pyEq (Dict.get held entry.1) entry.2
    | _ => true).map Prod.fst

def driftFinding (field detail : String) : IntegrityFinding :=
  ⟨.error, "metadata." ++ field ++ ": " ++ detail ++ " do not match the terminal state of " ++
    "the restatement chain — rewritten out-of-band after the last restatement, or a restatement " ++
    "event was removed while its effect on metadata remained"⟩

def restatedFindings (field : String) (actual : Json) : Option Json → List IntegrityFinding
  | none => []
  | some (.obj expected) =>
    let drifted := driftedKeys expected actual
    if drifted.isEmpty then []
    else [driftFinding field ("entries " ++ String.intercalate ", " drifted)]
  | some expected => if Json.pyEq actual expected then [] else [driftFinding field "the value"]

def verifyRestatedMetadata (layer : Layer) : Outcome (List IntegrityFinding) := do
  let findings ← signedMetadataFields.mapM fun field => do
    let terminal ← terminalValue layer.events field
    return restatedFindings field (layer.metadata.get field) terminal
  return findings.flatten

def rootAbsent : IntegrityFinding :=
  ⟨.error, "metadata.merkle_root absent — the layer has no tamper-evidence at all; run " ++
    "stamp_merkle_metadata (or your layer writer) to stamp Merkle fields"⟩

def legacyLeafFormat : IntegrityFinding :=
  ⟨.error, "LEGACY MERKLE LEAF FORMAT (v1): the Merkle root binds only event_id values — event " ++
    "CONTENT (actor, rationale, timestamps, evidence) is NOT bound and could be edited under a " ++
    "still-verifying root/signature. Re-stamp the layer (any recording tool run upgrades it) to bind " ++
    "full event content (leaf_format 2)."⟩

def rootFindings (declared : Json) (computed : String) (count : Nat) : List IntegrityFinding :=
  if Json.pyEq declared (.str computed) then []
  else [⟨.error, "metadata.merkle_root mismatch — declared " ++ pyStr declared ++ ", recomputed " ++
    computed ++ " from " ++ toString count ++ " post-epoch event(s)"⟩]

def sizeFindings (declared : Json) (computed : Nat) : List IntegrityFinding :=
  if declared = .null ∨ Json.pyEq declared (.int computed) = true then []
  else [⟨.error, "metadata.merkle_size mismatch — declared " ++ pyStr declared ++ ", but " ++
    toString computed ++ " post-epoch event(s) hash into the tree"⟩]

def checkpointFindings (declared : Json) (epoch : Int) (preEpoch : List Dict) : List IntegrityFinding :=
  if 0 < epoch then
    if declared = .null then
      [⟨.error, "metadata.merkle_epoch is " ++ toString epoch ++ " but pre_merkle_checkpoint is absent — " ++
        "pre-epoch history is unpinned, so any number of earlier events could have been removed or " ++
        "rewritten without detection"⟩]
    else if Json.pyEq declared (.str (computePreEpochCheckpoint H preEpoch)) then []
    else [⟨.error, "metadata.pre_merkle_checkpoint mismatch — pre-epoch events were edited or the " ++
      "checkpoint is stale"⟩]
  else if declared = .null ∨ Json.pyEq declared (.str (computePreEpochCheckpoint H [])) = true then []
  else [⟨.error, "metadata.pre_merkle_checkpoint present at merkle_epoch 0 but does not match an empty " ++
    "pre-epoch event set"⟩]

def recomputedFindings (layer : Layer) (epoch leafFormat : Int) : Outcome (List IntegrityFinding) := do
  let postEpoch := layer.events.drop epoch.toNat
  let (computedRoot, computedSize) ← computeMerkleRoot H postEpoch leafFormat
  let restated ← verifyRestatedMetadata layer
  return (if leafFormat = 1 then [legacyLeafFormat] else []) ++
    rootFindings (layer.metadata.get "merkle_root") computedRoot postEpoch.length ++
    sizeFindings (layer.metadata.get "merkle_size") computedSize ++
    checkpointFindings H (layer.metadata.get "pre_merkle_checkpoint") epoch (layer.events.take epoch.toNat) ++
    restated

def verifyMerkleIntegrity (layer : Layer) : Outcome (List IntegrityFinding) := do
  if layer.metadata.get "merkle_root" = .null then return [rootAbsent]
  let epoch ← toInt (layer.metadata.getD "merkle_epoch" (.int 0))
  if epoch < 0 then
    return [⟨.error, "metadata.merkle_epoch is negative (" ++ toString epoch ++ ") — invalid"⟩]
  if 0 < layer.events.length ∧ layer.events.length < epoch then
    return [⟨.error, "merkle_epoch exceeds event count"⟩]
  if 0 < layer.events.length ∧ epoch = layer.events.length then
    return [⟨.error, "merkle_epoch equals event count — Merkle tree covers no events"⟩]
  let leafFormat := (layer.metadata.getD "leaf_format" (.int 1)).pyInt.getD (-1)
  if leafFormat ≠ 1 ∧ leafFormat ≠ leafFormatCurrent then
    return [⟨.error, "metadata.leaf_format " ++ pyRepr (layer.metadata.get "leaf_format") ++
      " is not a known Merkle leaf format"⟩]
  recomputedFindings H layer epoch leafFormat

def legacySignatureFormat : IntegrityFinding :=
  ⟨.warning, "LEGACY SIGNATURE FORMAT (v1): the signature binds only the bare 32-byte root — " ++
    "leaf_format, epoch, and claim pins are unbound, so rollback to a previously-signed state or " ++
    "re-scoping the tree verifies cleanly. Re-sign the layer (sign_merkle_root.py sign) to upgrade."⟩

/-- The payload a stored signature is checked against, with the finding its format alone causes;
    `none` is an unknown format. -/
def declaredPayload (metadata : Dict) : Outcome (Option (Bytes × List IntegrityFinding)) :=
  let format := metadata.getD "merkle_signature_format" (.int 1)
  if Json.pyEq format (.int signatureFormatCurrent) then
    return some (merkleSignaturePayload H metadata signatureFormatCurrent, [])
  else if Json.pyEq format (.int 3) then return some (merkleSignaturePayload H metadata 3, [])
  else if Json.pyEq format (.int 2) then return some (merkleSignaturePayload H metadata 2, [])
  else if Json.pyEq format (.int 1) then do
    let payload ← merkleRootPayload (metadata.get "merkle_root")
    return some (payload, [legacySignatureFormat])
  else return none

def checkSignature (metadata : Dict) (signer : SigningBackend) (pubkeyPath : String) :
    Outcome (List IntegrityFinding) := do
  if signer.available = false then
    return [⟨.warning, signer.methodName ++ " signing backend not available — cannot verify signature"⟩]
  match ← declaredPayload H metadata with
  | none => return [⟨.error, "metadata.merkle_signature_format " ++
      pyRepr (metadata.getD "merkle_signature_format" (.int 1)) ++ " is not a known signature format"⟩]
  | some (payload, formatFindings) =>
    let result ← signer.verify payload (metadata.get "merkle_root_signature") pubkeyPath
    if result.valid then return formatFindings
    let reason := result.error.getD ""
    return [⟨.error, "merkle_root_signature verification failed — " ++
      (if reason = "" then "signature verification failed" else reason)⟩]

/-- `signingRequired` is the setting `SIGNING_REQUIRED=1` of the environment; `backend` the argument. -/
def verifyMerkleSignature (signers : Signers) (signingRequired : Bool) (layer : Layer)
    (pubkeyPath : Option String) (backend : Option SigningBackend) : Outcome (List IntegrityFinding) := do
  let metadata := layer.metadata
  if (metadata.get "merkle_root_signature").truthy = false then
    if (metadata.get "merkle_root").truthy = true ∧ signingRequired = true then
      return [⟨.error, "merkle_root_signature absent but SIGNING_REQUIRED=1 — an unsigned layer must not " ++
        "pass (deleting the signature is not a downgrade path; self-audit -006)"⟩]
    return []
  match pubkeyPath with
  | none =>
    return [⟨.warning, "merkle_root_signature present but no public key configured for verification"⟩]
  | some pubkeyPath =>
    if (metadata.get "merkle_root").truthy = false then
      return [⟨.error, "merkle_root_signature present but metadata.merkle_root is absent"⟩]
    match backend, metadata.get "merkle_signing_method" with
    | some signer, _ => checkSignature H metadata signer pubkeyPath
    | none, .null => checkSignature H metadata signers.cosign pubkeyPath
    | none, .arr _ | none, .obj _ => .error .typeError
    | none, declared =>
      match getBackendForMethod signers declared with
      | some signer => checkSignature H metadata signer pubkeyPath
      | none => return [⟨.error, "merkle_signing_method " ++ pyRepr declared ++
          " is not a recognized signing method"⟩]

end LedgerModel
