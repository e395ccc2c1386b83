import TraustLedger.Events

namespace LedgerModel

open Hashing Python Runs

variable (H : HashFunction)

def isActorVerified (actor : Dict) : Bool :=
  let verified := actor.get "identity_verified"
  if verified ≠ .null then verified.truthy else (actor.get "ldap_verified").truthy

def canonicalId (event : Dict) : Outcome String := do
  let source ← orEmpty (event.get "source")
  let disposition ← orEmpty (event.get "disposition")
  return computeEventId H (source.getD "ref" (.str "")) (event.getD "finding_ref" (.str ""))
    (disposition.get "validity") (disposition.get "resolution")

def stampFingerprintAlgo (event : Dict) : Dict :=
  if (event.get "fingerprint").truthy = true ∧ (event.get "fingerprint_algo").truthy = false then
    event.set "fingerprint_algo" (.str algoVersion)
  else event

def enforceIdentityRule (event : Dict) : Outcome Unit := do
  let disposition ← orEmpty (event.get "disposition")
  let source ← orEmpty (event.get "source")
  let actor ← orEmpty (source.get "actor")
  require (disposition.get "validity" ≠ .str "false_positive" ∨ actor.get "kind" ≠ .str "human" ∨
    ((actor.get "identity").truthy = true ∧ isActorVerified actor = true)) .identityUnverified

def prepareEvent (event : Dict) : Outcome (Dict × String) := do
  let restates ← isRestatement event
  require (restates = false ∨ (event.get "disposition").truthy = false)
    (.valueError "a restatement event must carry an empty disposition")
  let id ← canonicalId H event
  let supplied := event.get "event_id"
  require (supplied.truthy = false ∨ supplied = .str id) (.eventIdMismatch supplied id)
  let prepared := stampFingerprintAlgo (event.set "event_id" (.str id))
  enforceIdentityRule prepared
  return (prepared, id)

def holdsId (events : List Dict) (id : String) : Bool :=
  events.any fun event => Json.pyEq (event.get "event_id") (.str id)

def appendOne (layer : Layer) (event : Dict) : Outcome (Layer × String) := do
  let (prepared, id) ← prepareEvent H event
  if holdsId layer.events id then return (layer, id)
  else return ({ layer with events := layer.events ++ [prepared] }, id)

def appendMany (layer : Layer) : List Dict → Outcome (Layer × List String)
  | [] => return (layer, [])
  | event :: events => do
    let (prepared, id) ← prepareEvent H event
    if holdsId layer.events id then appendMany layer events
    else do
      let (appended, ids) ← appendMany { layer with events := layer.events ++ [prepared] } events
      return (appended, id :: ids)

def assign (metadata : Dict) (key : String) (value : Json) : Dict :=
  if value = .null then metadata.remove key else metadata.set key value

def requireRestatementsCoverMetadata (layer : Layer) (snapshot : Dict) (event : Dict) : Outcome Unit := do
  let restates ← isRestatement event
  let block ← orEmpty (event.get "restatement")
  for field in signedMetadataFields do
    if isDestructiveChange (snapshot.get field) (layer.metadata.get field) then
      require (restates = true ∧ Json.pyEq (block.get "target") (.str field) = true)
        (.unexplainedMetadataChange field)
      require (Json.pyEq (layer.metadata.get field)
        (mergeDelta (snapshot.get field) (block.get "after")) = true) (.unexplainedMetadataChange field)

/-- `append_restatement`, with the effect on the target field already reduced to one update. -/
def appendRestatement (layer : Layer) (event : Dict) (target : String) (after : Json) :
    Outcome (Layer × String) := do
  let snapshot := layer.metadata
  let (appended, id) ← appendOne H layer event
  let merged := mergeDelta (appended.metadata.get target) after
  let changed := { appended with metadata := assign appended.metadata target merged }
  requireRestatementsCoverMetadata changed snapshot event
  return (changed, id)

def reviewItemKey (item : Dict) : List Json :=
  [item.get "source_ref", item.get "suggested_finding_ref", item.get "queue_reason", item.get "quote"]

def sameKey (left right : List Json) : Bool := Json.pyEq (.arr left) (.arr right)

def hashable : Json → Bool
  | .arr _ | .obj _ => false
  | _ => true

def hashableKey : Json → Bool
  | .obj item => (reviewItemKey item).all hashable
  | _ => true

def queueItems (queue : List Json) : List Json → List Json
  | [] => queue
  | .obj item :: items =>
    let item := Dict.setDefault item "status" (.str "pending")
    let known := queue.any fun
      | .obj held => sameKey (reviewItemKey held) (reviewItemKey item)
      | _ => false
    queueItems (if known then queue else queue ++ [.obj item]) items
  | _ :: items => queueItems queue items

def isPendingMatch (itemKey : List Json) : Json → Bool
  | .obj item => decide (Dict.get item "status" = .str "pending") && sameKey (reviewItemKey item) itemKey
  | _ => false

def closedItem (status : String) (note : Option String) (item : Dict) : Dict :=
  let closed := item.set "status" (.str status)
  match note with
  | some text => if text = "" then closed else closed.set "resolution_note" (.str text)
  | none => closed

def closeFirst (itemKey : List Json) (status : String) (note : Option String) : List Json → List Json
  | [] => []
  | entry :: entries =>
    if isPendingMatch itemKey entry then
      (match entry with
        | .obj item => .obj (closedItem status note item)
        | other => other) :: entries
    else entry :: closeFirst itemKey status note entries

def resolveReviewItem (layer : Layer) (itemKey : List Json) (status : String) (note : Option String) :
    Outcome (Option Layer) := do
  require (status = "confirmed" ∨ status = "rejected") (.valueError
    ("status must be one of ['confirmed', 'rejected'], got " ++ pyRepr (.str status)))
  require (status ≠ "rejected" ∨ named note = true)
    (.valueError "a rejected review item must record a resolution_note")
  match layer.needsReview.find? (isPendingMatch itemKey) with
  | some (.obj target) =>
    let ref := Dict.get target "suggested_finding_ref"
    require (status ≠ "confirmed" ∨ (ref.truthy = true ∧
      layer.events.any (fun event => Json.pyEq (event.get "finding_ref") ref) = true))
      (.valueError ("cannot confirm review item for " ++ pyRepr ref ++ ": the layer holds no event " ++
        "with that finding_ref. Append the event first — a confirmed item asserts a determination the " ++
        "ledger does not have."))
    return some { layer with needsReview := closeFirst itemKey status note layer.needsReview }
  | _ => return none

end LedgerModel
