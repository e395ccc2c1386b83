import TraustLedger.Writer

namespace LedgerModel

open Hashing Python Runs

structure ServiceConfig where
  signingRequired : Bool
  signingKeyPath : Option String
  signingMethod : String

structure Moment where
  now : Int
  nowText : String
  config : ServiceConfig
  harness : SigningConfig

inductive Backend where
  | file
  | db
  deriving DecidableEq

/-- `publishing` are the same signing tools, asked to publish to the transparency log. -/
structure Env where
  hash : HashFunction
  contracts : Contracts
  signers : Signers
  fromIsoFormat : String → Option Int
  publishing : Signers := signers
  backend : Backend := .file

def requireSigningConfigured (config : ServiceConfig) : Outcome Unit :=
  require (config.signingRequired = false ∨ config.signingKeyPath.getD "" ≠ "" ∨
    config.signingMethod = "sigstore-oidc" ∨ config.signingMethod = "identity") .signingRequired

def methodAlias (method : String) : String :=
  if method = "cosign" then "keypair" else if method = "sigstore-oidc" then "identity" else method

def signingConfig (config : ServiceConfig) (harness : SigningConfig) : SigningConfig where
  method := methodAlias config.signingMethod
  keyPath := if config.signingKeyPath.getD "" ≠ "" then config.signingKeyPath else harness.keyPath
  oidcToken := harness.oidcToken

def finalizeLayer (env : Env) (moment : Moment) (layerId : String) (layer : Layer) : Outcome (Layer × String) := do
  let (stamped, _) ← stampMerkleMetadata env.hash layer
  let (signed, attempt) :=
    signIfConfigured env.hash env.signers (signingConfig moment.config moment.harness) stamped
  require (moment.config.signingRequired = false ∨ attempt.status = .signed) (.signingFailed layerId)
  let root := signed.metadata.get "merkle_root"
  return (signed, if root.truthy then pyStr root else "")

def shellKeys : List String := ["audit_report", "repository", "created", "harness_version"]

def isText : Json → Bool
  | .str text => text != ""
  | _ => false

def shellComplete (layer : Layer) : Bool := shellKeys.all fun key => isText (layer.metadata.get key)

def fileMutate {α : Type} (env : Env) (layerId : String) (mutator : Layer → Outcome (Layer × α)) (layer : Layer) :
    Outcome (Layer × α) := do
  require (shellComplete layer = true)
    (.layerNotInitialized ("layer " ++ pyRepr (.str layerId) ++ " has no complete initialized shell"))
  let (mutated, result) ← mutator layer
  require (env.contracts.validateLayer mutated = true) (.invalidLayerDocument "invalid complete layer")
  return (mutated, result)

def encodeJson (value : Json) : Bytes := dumps true value

def eventPayloads (events : List Dict) : List Bytes := events.map fun event => encodeJson (.obj event)

def appendOffset (layerId : String) (incoming stored : List Bytes) : Outcome Nat := do
  require (stored.length ≤ incoming.length) (.layerConflict ("layer " ++ pyRepr (.str layerId) ++ " cannot remove " ++
    toString (stored.length - incoming.length) ++ " historical event(s)"))
  require (incoming.take stored.length = stored)
    (.layerConflict ("layer " ++ pyRepr (.str layerId) ++ " cannot rewrite historical events"))
  return stored.length

/-- `DbBackend.mutate` on a layer that exists, seen from the documents: the rows are those of `Database`. -/
def dbMutate {α : Type} (env : Env) (layerId : String) (mutator : Layer → Outcome (Layer × α)) (layer : Layer) :
    Outcome (Layer × α) := do
  let (mutated, result) ← mutator layer
  require (env.contracts.validateLayer mutated = true) (.invalidLayerDocument "invalid complete layer")
  require (mutated.events.all (fun event => isText (event.get "event_id")) = true) (.invalidLayerDocument
    ("event at sequence " ++ toString (mutated.events.findIdx fun event => !isText (event.get "event_id")) ++
      " has no event_id"))
  let _ ← appendOffset layerId (eventPayloads mutated.events) (eventPayloads layer.events)
  require ((mutated.events.map fun event => event.get "event_id").Nodup) .integrityError
  return (mutated, result)

def mutate {α : Type} (env : Env) (layerId : String) (mutator : Layer → Outcome (Layer × α)) (layer : Layer) :
    Outcome (Layer × α) :=
  match env.backend with
  | .file => fileMutate env layerId mutator layer
  | .db => dbMutate env layerId mutator layer

def Failure.isStorage : Failure → Bool
  | .layerNotInitialized _ | .invalidLayerDocument _ | .corruptStoredLayer _ | .layerConflict _ | .layerStorage _ => true
  | _ => false

/-- Python's own errors, the storage errors, the client's error and a command's exit are no service errors. -/
def Failure.isService : Failure → Bool
  | .attributeError | .typeError | .keyError _ | .overflowError | .valueError _ | .runtimeError _ | .osError _
  | .integrityError | .ledgerError _ | .commandFailed _ => false
  | failure => !failure.isStorage

def rethrow {α : Type} (caught : Failure → Bool) (raised : String → Failure) : Outcome α → Outcome α
  | .ok value => .ok value
  | .error failure => .error (if caught failure then raised failure.detail else failure)

@[simp] theorem rethrow_ok_iff {α : Type} {caught : Failure → Bool} {raised : String → Failure}
    {outcome : Outcome α} {value : α} : rethrow caught raised outcome = .ok value ↔ outcome = .ok value := by
  cases outcome <;> simp [rethrow]

def initializeLayer (env : Env) (layerId : String) (existing : Option Layer) (shell : Layer) : Outcome Layer :=
  rethrow (fun failure => failure.isStorage) .validation do
    require (env.contracts.validateLayer shell = true) (.invalidLayerDocument "invalid complete layer")
    require (shell.events = [] ∧ shell.needsReview = []) (.validation
      ("initialization requires empty events and needs_review; use administrative migration " ++
        "for historical evidence"))
    require (existing.isNone = true) (.layerConflict ("layer " ++ pyRepr (.str layerId) ++ " already exists"))
    return shell

end LedgerModel
