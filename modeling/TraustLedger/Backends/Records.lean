import TraustLedger.Library.OrderedDicts
import TraustLedger.Storage

namespace LedgerModel

open Hashing Python Runs

structure Document where
  fields : Dict
  ordered : fields.Ordered
  deriving DecidableEq

namespace Document

def lookup (document : Document) (key : String) : Option Json := document.fields.lookup key

def get (document : Document) (key : String) : Json := document.fields.get key

def set (document : Document) (key : String) (value : Json) : Document :=
  ⟨document.fields.set key value, document.ordered.set⟩

def same (left right : Document) : Bool := Json.pyEq (.obj left.fields) (.obj right.fields)

def empty : Document := ⟨[("events", .arr [])], List.pairwise_singleton _ _⟩

end Document

def knownRootKeys : List String := ["events", "metadata", "needs_review"]

def objectOf (label : String) (failure : String → Failure) : Json → Outcome Dict
  | .obj fields => .ok fields
  | _ => .error (failure (label ++ " must be an object"))

def arrayOf (label : String) (failure : String → Failure) : Json → Outcome (List Json)
  | .arr items => .ok items
  | _ => .error (failure (label ++ " must be an array"))

def orDefault (value default : Json) : Json := if value.truthy then value else default

structure EventRecord where
  sequence : Nat
  document : Dict
  eventId : String

namespace EventRecord

def fromDocument (sequence : Nat) (value : Json) : Outcome EventRecord := do
  let document ← objectOf ("event at sequence " ++ toString sequence) .invalidLayerDocument value
  match document.get "event_id" with
  | .str eventId =>
    require (eventId ≠ "") (.invalidLayerDocument ("event at sequence " ++ toString sequence ++ " has no event_id"))
    return ⟨sequence, document, eventId⟩
  | _ => .error (.invalidLayerDocument ("event at sequence " ++ toString sequence ++ " has no event_id"))

def payload (record : EventRecord) : Bytes := encodeJson (.obj record.document)

end EventRecord

def eventRecords (sequence : Nat) : List Json → Outcome (List EventRecord)
  | [] => return []
  | value :: values => do
    let record ← EventRecord.fromDocument sequence value
    let records ← eventRecords (sequence + 1) values
    return record :: records

/-- The payload columns of a layer's row; the columns derived from them for queries are left out. -/
structure LayerValues where
  metadataPayload : Bytes
  needsReviewPayload : Bytes
  extensionsPayload : Bytes
  rootKeysPayload : Bytes
  deriving DecidableEq

structure EventRow where
  layerId : String
  seq : Nat
  eventId : String
  eventPayload : Bytes
  deriving DecidableEq

def EventRecord.databaseValues (layerId : String) (record : EventRecord) : EventRow where
  layerId := layerId
  seq := record.sequence
  eventId := record.eventId
  eventPayload := record.payload

structure LayerRecord where
  metadata : Dict
  events : List EventRecord
  needsReview : List Json
  extensions : Dict
  rootKeys : List String

namespace LayerRecord

def fromDocument (layer : Document) : Outcome LayerRecord := do
  let metadata ← objectOf "layer metadata" .invalidLayerDocument (orDefault (layer.get "metadata") (.obj []))
  let rawEvents ← arrayOf "layer events" .invalidLayerDocument (orDefault (layer.get "events") (.arr []))
  let needsReview ← arrayOf "layer needs_review" .invalidLayerDocument
    (orDefault (layer.get "needs_review") (.arr []))
  let events ← eventRecords 0 rawEvents
  return {
    metadata := metadata
    events := events
    needsReview := needsReview
    extensions := layer.fields.filter fun entry => !knownRootKeys.contains entry.1
    rootKeys := knownRootKeys.filter layer.fields.has }

def eventPayloads (record : LayerRecord) : List Bytes := record.events.map fun event => event.payload

def layerValues (record : LayerRecord) : LayerValues where
  metadataPayload := encodeJson (.obj record.metadata)
  needsReviewPayload := encodeJson (.arr record.needsReview)
  extensionsPayload := encodeJson (.obj record.extensions)
  rootKeysPayload := encodeJson (.arr (record.rootKeys.map .str))

def newEventValues (record : LayerRecord) (layerId : String) (offset : Nat) : List EventRow :=
  (record.events.drop offset).map (EventRecord.databaseValues layerId)

end LayerRecord

structure StoredLayerRecord where
  metadata : Dict
  needsReview : List Json
  extensions : Dict
  rootKeys : List String

namespace StoredLayerRecord

variable (decode : Bytes → Option Json)

def decodeJson (payload : Bytes) : Outcome Json :=
  match decode payload with
  | some value => .ok value
  | none => .error (.valueError "Expecting value")

def rootKey : Json → Outcome String
  | .str key => .ok key
  | _ => .error (.corruptStoredLayer "stored root keys must contain only strings")

def fromPayloads (values : LayerValues) : Outcome StoredLayerRecord := do
  let decodedKeys ← arrayOf "stored root keys" .corruptStoredLayer (← decodeJson decode values.rootKeysPayload)
  let rootKeys ← decodedKeys.mapM rootKey
  let metadata ← objectOf "stored layer metadata" .corruptStoredLayer (← decodeJson decode values.metadataPayload)
  let needsReview ← arrayOf "stored needs_review" .corruptStoredLayer (← decodeJson decode values.needsReviewPayload)
  let extensions ←
    objectOf "stored layer extensions" .corruptStoredLayer (← decodeJson decode values.extensionsPayload)
  return ⟨metadata, needsReview, extensions, rootKeys⟩

def storedEvent (payload : Bytes) : Outcome Json := do
  let fields ← objectOf "stored event" .corruptStoredLayer (← decodeJson decode payload)
  return .obj fields

def value (stored : StoredLayerRecord) (events : List Json) (key : String) : Option Json :=
  if key = "metadata" then some (.obj stored.metadata)
  else if key = "events" then some (.arr events)
  else if key = "needs_review" then some (.arr stored.needsReview)
  else none

def putBack (stored : StoredLayerRecord) (events : List Json) (layer : Document) (key : String) : Document :=
  match stored.value events key with
  | some value => layer.set key value
  | none => layer

def reconstruct (stored : StoredLayerRecord) (eventPayloads : List Bytes) : Outcome Document := do
  let events ← eventPayloads.mapM (storedEvent decode)
  let start : Document := ⟨Dict.ofList stored.extensions, Dict.ordered_ofList stored.extensions⟩
  return stored.rootKeys.foldl (stored.putBack events) start

end StoredLayerRecord

end LedgerModel
