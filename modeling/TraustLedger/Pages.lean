import TraustLedger.Batches
import TraustLedger.Findings
import TraustLedger.System

namespace LedgerModel

open Hashing Python Runs

/-- The layers a backend lists at one moment, each under an id of its own. -/
structure Snapshot where
  entries : List (String × Layer)
  distinct : (entries.map Prod.fst).Nodup

def Snapshot.listLayerIds (stored : Snapshot) : List String :=
  (stored.entries.map Prod.fst).insertionSort fun left right => Dict.precedes (chars right) (chars left) = false

def Snapshot.load (backend : Backend) (stored : Snapshot) (layerId : String) : Outcome Layer := do
  let key ← layerKey backend layerId
  match stored.entries.lookup key with
  | some layer => return layer
  | none => .error (.notFound ("layer not found: " ++ layerId))

def callLayerId : Call → String
  | .restate _ layerId .. | .patch _ layerId _ | .submitBatch _ layerId .. | .cmdSubmitEvents layerId ..
  | .cmdSubmitQueue layerId .. | .stampIdentities _ layerId _ | .sign _ layerId | .signEndpoint _ layerId _
  | .resolve _ layerId .. => layerId
  | .submitEvent _ _ event _ => eventText event "layer_id"

def Snapshot.store (stored : Snapshot) (layerId : String) (layer : Layer) : Snapshot where
  entries := stored.entries.map fun entry => if entry.1 = layerId then (layerId, layer) else entry
  distinct := by
    have same : (stored.entries.map fun entry => if entry.1 = layerId then (layerId, layer) else entry).map Prod.fst =
        stored.entries.map Prod.fst := by
      rw [List.map_map]
      refine List.map_congr_left fun entry _ => ?_
      by_cases named : entry.1 = layerId
      · simp [named]
      · simp [named]
    rw [same]
    exact stored.distinct

def callStep (env : Env) (stored : Snapshot) (call : Call) : Outcome Snapshot := do
  let layer ← stored.load env.backend (callLayerId call)
  let next ← step env layer call
  return stored.store (callLayerId call) next

def layerHasEventsSince (layer : Layer) (sinceEpoch : Int) : Outcome Bool := do
  if layer.metadata.get "merkle_epoch" = .null then return true
  let epoch ← toInt (layer.metadata.get "merkle_epoch")
  return decide (sinceEpoch ≤ epoch)

def isIncluded (sinceEpoch : Option Int) (layer : Layer) : Outcome Bool :=
  match sinceEpoch with
  | none => return true
  | some epoch => layerHasEventsSince layer epoch

structure LayerFindings where
  layerId : String
  merkleRoot : Option String
  merkleEpoch : Option Int
  findings : List FindingDisposition
  summary : FindingsSummary

def rootField : Json → Outcome (Option String)
  | .null => return none
  | .str root => return some root
  | _ => .error (.valueError "merkle_root: Input should be a valid string")

/-- The response model's `int | None`: whatever equals an integer is taken for it. -/
def epochField (value : Json) : Outcome (Option Int) :=
  match value.norm with
  | .null => return none
  | .int epoch => return some epoch
  | _ => .error (.valueError "merkle_epoch: Input should be a valid integer")

structure BulkFindings where
  layers : List LayerFindings
  totalFindings : Nat
  nextCursor : Option String
  hasMore : Bool

variable (env : Env) (nowText : String)

def layerFindings (layerId : String) (layer : Layer) : Outcome LayerFindings := do
  let (findings, summary) ← resolveLayerFindings env.contracts env.fromIsoFormat nowText layer
  let root ← rootField (layer.metadata.get "merkle_root")
  let epoch ← epochField (layer.metadata.get "merkle_epoch")
  return ⟨layerId, root, epoch, findings, summary⟩

/-- The loop of `resolve_all_findings`. A layer that is filtered out does not count towards the limit. -/
def scanLayers (stored : Snapshot) (limit : Nat) (sinceEpoch : Option Int) :
    Nat → List String → Outcome (List LayerFindings)
  | _, [] => return []
  | scanned, layerId :: layerIds =>
    if limit ≤ scanned then return []
    else do
      let layer ← stored.load env.backend layerId
      if (← isIncluded sinceEpoch layer) = false then scanLayers stored limit sinceEpoch scanned layerIds
      else do
        let entry ← layerFindings env nowText layerId layer
        let entries ← scanLayers stored limit sinceEpoch (scanned + 1) layerIds
        return entry :: entries

/-- The ids after the cursor's place; an id that is not listed has none, and the listing starts again. -/
def idsAfter (layerIds : List String) : Option String → List String
  | none => layerIds
  | some cursor =>
    if cursor = "" then layerIds
    else if layerIds.contains cursor then layerIds.drop (layerIds.idxOf cursor + 1)
    else layerIds

def resolveAllFindings (stored : Snapshot) (cursor : Option String) (limit : Nat) (sinceEpoch : Option Int) :
    Outcome BulkFindings := do
  let layerIds := idsAfter stored.listLayerIds cursor
  let layers ← scanLayers env nowText stored limit sinceEpoch 0 layerIds
  let scanned := layers.length
  let hasMore := scanned == limit && layerIds.drop scanned != []
  return {
    layers := layers
    totalFindings := layers.foldl (fun total layer => total + layer.findings.length) 0
    nextCursor := if hasMore then layers.getLast?.map fun layer => layer.layerId else none
    hasMore := hasMore }

def followCursor (limit : Nat) (sinceEpoch : Option Int) (cursor : Option String) :
    List Snapshot → Outcome (List BulkFindings × Bool)
  | [] => return ([], false)
  | stored :: later => do
    let page ← resolveAllFindings env nowText stored cursor limit sinceEpoch
    match page.nextCursor with
    | none => return ([page], true)
    | some next => do
      let (pages, finished) ← followCursor limit sinceEpoch (some next) later
      return (page :: pages, finished)

end LedgerModel
