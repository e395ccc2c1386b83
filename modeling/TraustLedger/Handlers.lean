import TraustLedger.Storage

namespace LedgerModel

open Hashing Python Runs

structure Receipt where
  eventIds : List String
  queueAdded : Nat
  merkleRoot : String

variable (env : Env) (moment : Moment)

def dumpEvent (event : LayerEvent) : Outcome Dict :=
  match env.contracts.eventToDict event with
  | some dump => .ok dump
  | none => .error (.valueError "validation error for LayerEvent")

def restatementTarget (block : Dict) : Outcome String :=
  match block.get "target" with
  | .str target =>
    if target ∈ restatementTargets then .ok target
    else .error (.validation ("unknown restatement target: " ++ pyRepr (.str target)))
  | .arr _ | .obj _ => .error .typeError
  | other => .error (.validation ("unknown restatement target: " ++ pyRepr other))

def restatedFindingRef (block : Dict) : Json :=
  if (block.get "finding_ref").truthy then block.get "finding_ref" else .str layerScopeRef

def restatementEvent (block : Dict) (rationale : String) (actor : LayerActor) (recordedAt : String) :
    Outcome (String × Dict) := do
  requireSigningConfigured moment.config
  requireVerifiedHuman actor
  requireRationaleLength rationale
  requireTimestampBounds env.fromIsoFormat moment.now recordedAt
  requireRestatementAuthority block
  let target ← restatementTarget block
  let built ← buildRestatementEvent env.hash (block.remove "finding_ref") rationale actor recordedAt
    (restatedFindingRef block)
  let event ← dumpEvent env built
  return (target, event)

def restatementGates (block : Dict) (target : String) (layer : Layer) : Outcome Unit := do
  requireValidEpoch layer
  requireSomethingToRestate block (layer.metadata.get target)
  requireFreshRestatement block (layer.metadata.get target)
  requireMonotonicRestatement block layer.events

def applyRestatement (layerId : String) (block : Dict) (rationale : String) (actor : LayerActor)
    (recordedAt : String) (layer : Layer) : Outcome (Layer × Receipt) := do
  let (target, event) ← restatementEvent env moment block rationale actor recordedAt
  let block := block.remove "finding_ref"
  mutate env layerId (fun layer => do
    restatementGates block target layer
    let (appended, id) ← appendRestatement env.hash layer event target (block.get "after")
    let (finalized, root) ← finalizeLayer env moment layerId appended
    return (finalized, ⟨[id], 0, root⟩)) layer

def eventText (event : Dict) (key : String) : String :=
  if event.get key = .null then "" else pyStr (event.get key)

def clientActor (event : Dict) : Dict :=
  match event.get "actor", event.get "source" with
  | .obj actor, _ => actor
  | _, .obj source => match Dict.get source "actor" with
    | .obj actor => actor
    | _ => []
  | _, _ => []

def clientDisposition (event : Dict) : Dict :=
  match event.get "disposition" with
  | .obj disposition => disposition
  | _ => []

def firstText (event : Dict) (key fallback : String) : String :=
  if eventText event key ≠ "" then eventText event key else eventText event fallback

def decisionFromVerdict (verdict : String) : String :=
  if verdict = "false_positive" then "false_positive"
  else if verdict = "true_positive" then "keep_open"
  else verdict

def allowedDecisions : List String := ["keep_open", "false_positive", "override_false_positive"]

def resolveDecision (event : Dict) : Outcome String := do
  let rawDecision := eventText event "decision"
  let rawVerdict := eventText event "verdict"
  require (rawDecision = "" ∨ rawVerdict = "" ∨ rawDecision = decisionFromVerdict rawVerdict)
    .decisionVerdictConflict
  require (rawDecision ≠ "" ∨ rawVerdict ≠ "") .missingDecisionOrVerdict
  let decision := if rawDecision ≠ "" then rawDecision else decisionFromVerdict rawVerdict
  require (decision ∈ allowedDecisions) (.unknownDecision decision)
  return decision

def requireRecordedAt (event : Dict) : Outcome String := do
  require (strip (eventText event "recorded_at") ≠ "") .missingRecordedAt
  return eventText event "recorded_at"

def parseEventKind (raw : String) : Outcome EventKind :=
  match [EventKind.countersign, .severity, .regression, .impact, .vulnScan].find? (·.value == raw) with
  | some kind => .ok kind
  | none => .error (.validation ("unknown event kind: " ++ raw))

def stampActorOnEvent (event : Dict) (actor : LayerActor) : Dict :=
  match event.get "source" with
  | .obj source => event.set "source" (.obj (Dict.set source "actor" (.obj (env.contracts.actorToDict actor))))
  | _ => event

def resolveFingerprintFromLayer (event : Dict) (layer : Layer) : Dict :=
  let index := (layer.events.filter fun held =>
    (held.get "finding_ref").truthy && (held.get "fingerprint").truthy).map fun held =>
      (held.get "finding_ref", held.get "fingerprint")
  (attachIdentity index.reverse event).1

def eventPayload (kind : EventKind) (rawEvent : Dict) (actor : LayerActor)
    (findingRef rationale recordedAt : String) : Outcome (Dict × String) :=
  match kind with
  | .severity => do
    let level := eventText rawEvent "severity"
    require (level ≠ "") .missingSeverity
    let payload ← dumpEvent env (buildSeverityEvent env.hash findingRef level rationale actor recordedAt)
    return (payload, "")
  | .countersign => do
    let decision ← resolveDecision rawEvent
    let built ← buildHumanEvent env.hash findingRef decision rationale actor recordedAt
    require (built.validity.getD "" ≠ "") (.validation "event builder produced no validity")
    let payload ← dumpEvent env built
    return (payload, built.validity.getD "")
  | _ => return ((stampActorOnEvent env rawEvent actor).remove "layer_id", "")

def submittedEvent (kind : EventKind) (rawEvent : Dict) (actor : LayerActor) :
    Outcome (String × Dict × String) := do
  if kind.isBirth = false then rejectMachineDisposition (clientActor rawEvent) (clientDisposition rawEvent)
  requireHumanIdentity actor kind
  rejectMachineHumanLane actor kind
  if kind.isBirth = false then
    rejectMachineDisposition (env.contracts.actorToDict actor) (clientDisposition rawEvent)
  require (eventText rawEvent "layer_id" ≠ "") .missingLayerId
  let findingRef := firstText rawEvent "finding_ref" "finding_fingerprint"
  require (findingRef ≠ "") .missingFindingRef
  let rationale := firstText rawEvent "rationale" "justification"
  let recordedAt ← requireRecordedAt rawEvent
  requireRationaleLength rationale
  requireTimestampBounds env.fromIsoFormat moment.now recordedAt
  let (payload, validity) ← eventPayload env kind rawEvent actor findingRef rationale recordedAt
  if validity ≠ "" then requireVerifiedForFalsePositive actor validity
  return (findingRef, payload, validity)

def submitEvent (rawKind : String) (rawEvent : Dict) (actor : LayerActor) (layer : Layer) :
    Outcome (Layer × Receipt) :=
  rethrow (fun failure => failure.isStorage) .validation do
    requireSigningConfigured moment.config
    let kind ← parseEventKind rawKind
    let (findingRef, payload, validity) ← submittedEvent env moment kind rawEvent actor
    mutate env (eventText rawEvent "layer_id") (fun layer => do
      requireValidEpoch layer
      if kind = .countersign then
        requireTwoPerson env.contracts layer findingRef (actor.identity.getD "") validity
      let (appended, id) ← appendOne env.hash layer (resolveFingerprintFromLayer payload layer)
      let (finalized, root) ← finalizeLayer env moment "unknown" appended
      return (finalized, ⟨[id], 0, root⟩)) layer

def stampSourceOnEvent (actor : LayerActor) (event : Dict) : Dict :=
  let source := match event.get "source" with
    | .obj source => source
    | _ => []
  event.set "source" (.obj (Dict.set source "actor" (.obj (env.contracts.actorToDict actor))))

def appendQueue (layer : Layer) (items : List Json) : Outcome (Layer × Nat) := do
  require (items = [] ∨ (layer.needsReview ++ items).all hashableKey = true) .typeError
  let queue := queueItems layer.needsReview items
  return ({ layer with needsReview := queue }, queue.length - layer.needsReview.length)

def withDefaults (defaults : List (String × Json)) : Json → Json
  | .obj item => .obj (defaults.foldl (fun item entry => Dict.setDefault item entry.1 entry.2) item)
  | other => other

structure BatchSubmitRequest where
  sourceRef : String
  recordedAt : String
  events : List Dict
  needsReview : List Dict

def queueEvents (layer : Layer) (items : List Json) : Outcome (Layer × Receipt) := do
  let (queued, added) ← appendQueue layer items
  return (queued, ⟨[], added, ""⟩)

def appendNeedsReview (layerId : String) (items : List Json) (layer : Layer) : Outcome (Layer × Receipt) :=
  mutate env layerId (fun layer => queueEvents layer items) layer

def submitAtomic (events : List Dict) (items : List Json) (layer : Layer) : Outcome (Layer × Receipt) := do
  let (appended, ids) ← appendMany env.hash layer events
  let (queued, added) ← appendQueue appended items
  let (finalized, root) ← finalizeLayer env moment "unknown" queued
  return (finalized, ⟨ids, added, root⟩)

def submitBatch (layerId : String) (body : BatchSubmitRequest) (actor : LayerActor) (layer : Layer) :
    Outcome (Layer × Receipt) :=
  rethrow (fun failure => failure.isStorage) .validation do
    requireSigningConfigured moment.config
    require (layerId ≠ "") .missingLayerId
    let events := body.events.map fun event => stampFingerprintAlgo (stampSourceOnEvent env actor event)
    let items := body.needsReview.map fun item => withDefaults
      [("submitted_by", .obj (env.contracts.actorToDict actor)), ("source_ref", .str body.sourceRef),
        ("queued_at", .str body.recordedAt)] (.obj item)
    match events, items with
    | [], [] => return (layer, ⟨[], 0, ""⟩)
    | [], _ => mutate env layerId (fun layer => queueEvents layer items) layer
    | _, _ => mutate env layerId (submitAtomic env moment events items) layer

def cmdSubmitEvents (layerId : String) (events : List Json) (actor : LayerActor) (layer : Layer) :
    Outcome (Layer × Receipt) :=
  let stamped := events.filterMap fun
    | .obj event => some (stampSourceOnEvent env actor event)
    | _ => none
  if stamped = [] then return (layer, ⟨[], 0, ""⟩)
  else mutate env layerId (fun layer => do
    let (appended, ids) ← appendMany env.hash layer stamped
    return (appended, ⟨ids, 0, ""⟩)) layer

def cmdSubmitQueue (layerId sourceRef : String) (queue : List Json) (actor : LayerActor) (layer : Layer) :
    Outcome (Layer × Receipt) :=
  let items := queue.map (withDefaults
    [("submitted_by", .obj (env.contracts.actorToDict actor)), ("source_ref", .str sourceRef)])
  if items = [] then return (layer, ⟨[], 0, ""⟩)
  else mutate env layerId (fun layer => queueEvents layer items) layer

def settle {α : Type} (layer : Layer) : Outcome (Layer × α) → Layer × Outcome α
  | .ok (stored, report) => (stored, .ok report)
  | .error failure => (layer, .error failure)

/-- `cmd_submit` once its files are read: two writes, of which the second can fail alone. -/
def cmdSubmit (layerId sourceRef : String) (events queue : List Json) (actor : LayerActor) (layer : Layer) :
    Layer × Outcome Receipt :=
  match settle layer (cmdSubmitEvents env layerId events actor layer) with
  | (held, .error failure) => (held, .error failure)
  | (appended, .ok receipt) => match settle appended (cmdSubmitQueue env layerId sourceRef queue actor appended) with
    | (held, .error failure) => (held, .error failure)
    | (queued, .ok more) => (queued, .ok ⟨receipt.eventIds, more.queueAdded, ""⟩)

def asLedgerError {α : Type} (outcome : Outcome α) : Outcome α :=
  rethrow (fun failure => failure.isService || failure.isStorage) .ledgerError outcome

def sign (layerId : String) (layer : Layer) : Outcome (Layer × Receipt) :=
  asLedgerError (mutate env layerId (fun layer => do
    let (finalized, root) ← finalizeLayer env moment layerId layer
    return (finalized, ⟨[], 0, root⟩)) layer)

def clientSignStatus : SignStatus := .signed

def credentialsFromConfig (config : ServiceConfig) : SigningConfig where
  method := config.signingMethod
  keyPath := config.signingKeyPath
  oidcToken := none

/-- `sign_layer` of the sign handler: unlike `finalizeLayer` it stores a layer no signer is configured for. -/
def signLayer (signers : Signers) (credentials : Option SigningConfig) (layer : Layer) :
    Outcome (Layer × SignAttempt) := do
  let resolved := credentials.getD (credentialsFromConfig moment.config)
  let (stamped, _) ← stampMerkleMetadata env.hash layer
  let (signed, attempt) := signIfConfigured env.hash signers resolved stamped
  require (attempt.status ≠ .failed) (.signingFailed "(via sign_handler)")
  return (signed, attempt)

def Failure.isNotInitialized : Failure → Bool
  | .layerNotInitialized _ => true
  | _ => false

def signLayerEndpoint (layerId : String) (rekor : Bool) (layer : Layer) : Outcome (Layer × SignAttempt) :=
  rethrow (fun failure => failure.isNotInitialized) (fun _ => .notFound ("layer not found: " ++ layerId))
    (mutate env layerId (fun layer => do
      require (env.contracts.validateLayer layer = true) (.invalidLayerDocument "invalid complete layer")
      signLayer env moment (if rekor then env.publishing else env.signers) none layer) layer)

def stampEventIdentities (layerId : String) (fingerprints : List (String × String)) (layer : Layer) :
    Outcome (Layer × Receipt × Nat) :=
  asLedgerError (mutate env layerId (fun layer => do
    let index := fingerprints.map fun entry => (Json.str entry.1, Json.str entry.2)
    let stamped := layer.events.map (attachIdentity index)
    let (finalized, root) ← finalizeLayer env moment layerId { layer with events := stamped.map Prod.fst }
    return (finalized, ⟨[], 0, root⟩, stamped.countP Prod.snd)) layer)

def patchValue : Json → Json → Json
  | .obj held, .obj value => .obj (Dict.update held value)
  | _, value => value

/-- The keys of `updates` are distinct, so each meets the value stored under it. -/
def applyUpdates (metadata updates : Dict) : Dict :=
  metadata.update (updates.map fun entry => (entry.1, patchValue (metadata.get entry.1) entry.2))

def patchMetadata (layerId : String) (updates : Dict) (layer : Layer) : Outcome (Layer × Receipt) :=
  asLedgerError (mutate env layerId (fun layer => do
    let patched := applyUpdates layer.metadata updates
    let overwritten := signedMetadataFields.filter fun field =>
      isDestructiveChange (layer.metadata.get field) (patched.get field)
    require (overwritten = []) (.ledgerError (joined overwritten ++ " already holds a value inside the " ++
      "signature — use restate() to overwrite it; patch_metadata records neither the prior value, " ++
      "the actor, nor a reason"))
    let (finalized, root) ← finalizeLayer env moment layerId
      { layer with metadata := patched.set "updated" (.str moment.nowText) }
    return (finalized, ⟨[], 0, root⟩)) layer)

def Failure.isValueError : Failure → Bool
  | .valueError _ => true
  | failure => failure.isStorage

/-- `key` is the decoded text of the item's key, `none` where it is no JSON. -/
def parseItemKey : Option Json → Outcome (List Json)
  | none => .error (.validation "key must be a JSON-encoded tuple")
  | some (.arr [source, finding, reason, quote]) => .ok [source, finding, reason, quote]
  | some _ => .error (.validation "key must be a JSON array of four elements")

def resolve (layerId : String) (key : Option Json) (decision note : String) (layer : Layer) : Outcome Layer := do
  requireSigningConfigured moment.config
  require (decision = "confirmed" ∨ decision = "rejected") (.validation
    ("decision must be one of ['confirmed', 'rejected'], got " ++ pyRepr (.str decision)))
  let itemKey ← parseItemKey key
  let (resolved, changed) ← rethrow (fun failure => failure.isValueError) .validation
    (mutate env layerId (fun layer => do
      match ← resolveReviewItem layer itemKey decision (if note = "" then none else some note) with
      | some closed => return (closed, true)
      | none => return (layer, false)) layer)
  require (changed = true) (.notFound "review item not found")
  return resolved

end LedgerModel
