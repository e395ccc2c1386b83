import TraustLedger.Disposition
import TraustLedger.Events
import TraustLedger.Restatements
import TraustLedger.Writer

namespace LedgerModel

open Hashing Python Runs

def applyRestatements : List Dict → Outcome (List Dict)
  | [] => return []
  | event :: events => do
    let restates ← isRestatement event
    let later ← applyRestatements events
    return if restates then later else event :: later

def claimFields : List String := ["id", "title", "severity", "cwes", "locations", "description", "remediation"]

def computeClaimHash (H : HashFunction) (finding : Dict) : String :=
  hexDigest H (dumps false (.obj (Dict.ofList (claimFields.map fun field => (field, finding.get field)))))

abbrev Carried := List (Json × Dict)

def addFinding (out : Carried) (event : Dict) : Outcome Carried := do
  match event.get "finding" with
  | .obj finding =>
    let id := Dict.get finding "id"
    if id.truthy = false then return out
    require (hashable id = true) .typeError
    return (id, finding) :: out
  | _ => return out

def findingsFromEvents (events : List Dict) : Outcome Carried := do
  let claims ← applyRestatements events
  claims.foldlM addFinding []

abbrev Aliases := List (Json × Json)

def Aliases.get (aliases : Aliases) (ref : Json) : Json :=
  ((aliases.find? fun entry => Json.pyEq entry.1 ref).map Prod.snd).getD .null

def item (d : Dict) (key : String) : Outcome Json :=
  match d.lookup key with
  | some value => return value
  | none => .error (.keyError key)

structure AliasDetails where
  confirmed : Option Bool
  rejected : Option Bool
  similarity : Option FloatText
  pathOverlap : Option FloatText
  fromReport : Option String
  note : Option String

def AliasDetails.fields (details : AliasDetails) : List (String × Option Json) :=
  [("confirmed", details.confirmed.map .bool), ("rejected", details.rejected.map .bool),
    ("similarity", details.similarity.map .float), ("path_overlap", details.pathOverlap.map .float),
    ("from_report", details.fromReport.map .str), ("note", details.note.map .str)]

def makeAliasEvent (H : HashFunction) (oldRef newRef matchedBy recordedAt sourceRef : String) (actor : Dict)
    (rationale : String) (details : AliasDetails) : Dict :=
  let mapping := details.fields.foldl (fun mapping field =>
    match field.2 with
    | some value => Dict.set mapping field.1 value
    | none => mapping) (Dict.ofList [("new_finding_ref", .str newRef), ("matched_by", .str matchedBy)])
  Dict.ofList [("event_id", .str (computeEventId H (.str sourceRef) (.str oldRef) .null .null)),
    ("finding_ref", .str oldRef), ("recorded_at", .str recordedAt),
    ("source", .obj (Dict.ofList [("type", .str "rebaseline"), ("ref", .str sourceRef), ("actor", .obj actor)])),
    ("disposition", .obj []), ("rationale", .str rationale), ("alias", .obj mapping)]

def aliasFields : List String := ["confirmed", "rejected", "similarity", "path_overlap", "from_report", "note"]

def aliasEntry (event mapping : Dict) : Outcome Dict := do
  let newId ← item mapping "new_finding_ref"
  let matchedBy ← item mapping "matched_by"
  let mapped := Dict.ofList
    [("new_id", newId), ("matched_by", matchedBy), ("mapped_at", event.get "recorded_at")]
  let entry := aliasFields.foldl (fun entry field =>
    if mapping.has field then Dict.set entry field (mapping.get field) else entry) mapped
  let source ← orEmpty (event.get "source")
  if (entry.get "confirmed").truthy then
    let actor ← orEmpty (source.get "actor")
    if (actor.get "identity").truthy then
      return Dict.set (Dict.set entry "confirmed_by" (actor.get "identity")) "confirmed_at" (event.get "recorded_at")
  return entry

def addAlias (out : Aliases) (event : Dict) : Outcome Aliases := do
  let ref := event.get "finding_ref"
  match event.get "alias" with
  | .obj mapping =>
    if mapping = [] ∨ ref.truthy = false then return out
    let entry ← aliasEntry event mapping
    require (hashable ref = true) .typeError
    return (ref, .obj entry) :: out
  | value =>
    require (value.truthy = false ∨ ref.truthy = false) .typeError
    return out

def aliasesFromEvents (events : List Dict) : Outcome Aliases := events.foldlM addAlias []

def tableOf : Json → Outcome Dict
  | .obj fields => return fields
  | value => do
    require (value.truthy = false) .typeError
    return []

def layerAliases (metadata : Dict) (events : List Dict) : Outcome Aliases := do
  let table ← tableOf (metadata.get "finding_aliases")
  let added ← aliasesFromEvents events
  return added ++ table.map fun entry => (.str entry.1, entry.2)

/-- One step along the confirmed aliases. -/
def resolveRef (aliases : Aliases) (ref : Json) : Outcome Json := do
  require (hashable ref = true) .typeError
  match aliases.get ref with
  | .obj mapping => return if (Dict.get mapping "confirmed").truthy then Dict.getD mapping "new_id" ref else ref
  | value =>
    require (value.truthy = false) .attributeError
    return ref

def groupUnder (ref : Json) (event : Dict) : List (Json × List Dict) → List (Json × List Dict)
  | [] => [(ref, [event])]
  | group :: groups =>
    if Json.pyEq group.1 ref then (group.1, group.2 ++ [event]) :: groups else group :: groupUnder ref event groups

def addToFinding (aliases : Aliases) (groups : List (Json × List Dict)) (event : Dict) :
    Outcome (List (Json × List Dict)) := do
  let ref ← resolveRef aliases (event.getD "finding_ref" (.str ""))
  if ref.truthy = false then return groups
  require (hashable ref = true) .typeError
  return groupUnder ref event groups

def byFinding (aliases : Aliases) (events : List Dict) : Outcome (List (Json × List Dict)) :=
  events.foldlM (addToFinding aliases) []

def isStr : Json → Bool
  | .str _ => true
  | _ => false

def textKey : Json × List Dict → Outcome (String × List Dict)
  | (.str ref, events) => return (ref, events)
  | _ => .error (.valueError "finding_ref: Input should be a valid string")

/-- `sorted(by_finding.items())`: the keys differ, so only they are compared. Text does not compare with anything
    else, and no finding is named by anything else. -/
def sortedFindings (groups : List (Json × List Dict)) : Outcome (List (String × List Dict)) := do
  require (groups.all (fun group => isStr group.1) = true ∨ groups.all (fun group => !isStr group.1) = true) .typeError
  let named ← groups.mapM textKey
  return named.insertionSort fun left right => Dict.precedes (chars right.1) (chars left.1) = false

structure FindingDisposition where
  findingRef : String
  disposition : Disposition
  eventCount : Nat
  fingerprint : Option String
  orphan : Option Bool

structure FindingsSummary where
  byValidity : List (Json × Nat)
  byResolution : List (String × Nat)

def latestFingerprint (events : List Dict) : Option String :=
  (events.reverse.find? fun event => (event.get "fingerprint").truthy).map fun event => pyStr (event.get "fingerprint")

/-- Whether the pinned baseline does not hold the finding; unknown in a layer that pins no claims. -/
def orphaned (metadata : Dict) (findingRef : String) : Option Bool :=
  match metadata.get "claim_hashes" with
  | .obj hashes => some (!Dict.has hashes findingRef)
  | _ => none

def counter {α : Type} [DecidableEq α] (values : List α) : List (α × Nat) :=
  values.dedup.map fun value => (value, values.count value)

variable (contracts : Contracts) (fromIsoFormat : String → Option Int) (nowText : String)

def resolveFinding (metadata : Dict) (group : String × List Dict) : Outcome FindingDisposition := do
  let disposition ← deriveDisposition contracts fromIsoFormat [("id", .str group.1)] group.2 nowText
  return ⟨group.1, disposition, group.2.length, latestFingerprint group.2, orphaned metadata group.1⟩

def resolveLayerFindings (layer : Layer) : Outcome (List FindingDisposition × FindingsSummary) := do
  let events ← applyRestatements layer.events
  let aliases ← layerAliases layer.metadata events
  let groups ← byFinding aliases events
  let named ← sortedFindings groups
  let findings ← named.mapM (resolveFinding contracts fromIsoFormat nowText layer.metadata)
  return (findings, ⟨counter (findings.map fun finding => finding.disposition.validity),
    counter (findings.map fun finding => finding.disposition.resolution)⟩)

end LedgerModel
