import TraustLedger.Backends.Records
import Mathlib.Data.List.Sort

namespace LedgerModel

open Hashing Python Runs

structure LayerRow where
  layerId : String
  productRepoId : Option String
  values : LayerValues

structure Tables where
  layers : List LayerRow
  events : List EventRow
  layerKeys : (layers.map fun row => row.layerId).Nodup
  owners : (layers.filterMap fun row => row.productRepoId).Nodup
  eventSeqs : (events.map fun row => (row.layerId, row.seq)).Nodup
  eventIds : (events.map fun row => (row.layerId, row.eventId)).Nodup

namespace Tables

variable (tables : Tables)

def empty : Tables := ⟨[], [], List.nodup_nil, List.nodup_nil, List.nodup_nil, List.nodup_nil⟩

def layerRow (layerId : String) : Option LayerRow := tables.layers.find? fun row => row.layerId = layerId

def hasLayer (layerId : String) : Bool := (tables.layerRow layerId).isSome

def productRepo (layerId : String) : Option String := (tables.layerRow layerId).bind fun row => row.productRepoId

def ownedLayer (productRepoId : String) : Option String :=
  (tables.layers.find? fun row => row.productRepoId = some productRepoId).map fun row => row.layerId

def eventRows (layerId : String) : List EventRow :=
  (tables.events.filter fun row => row.layerId = layerId).insertionSort fun left right => left.seq ≤ right.seq

def eventPayloads (layerId : String) : List Bytes := (tables.eventRows layerId).map fun row => row.eventPayload

/-- `registered` are the product repositories the owner's foreign key finds. -/
def insertLayer (registered : String → Bool) (row : LayerRow) : Outcome Tables :=
  if free : row.layerId ∉ tables.layers.map (fun row => row.layerId) ∧
      ∀ owner, row.productRepoId = some owner → owner ∉ tables.layers.filterMap (fun row => row.productRepoId) then do
    require (row.productRepoId.all registered = true) .integrityError
    return { tables with
      layers := tables.layers ++ [row]
      layerKeys := by
        rw [List.map_append]
        exact List.nodup_append'.mpr ⟨tables.layerKeys, List.nodup_singleton _, by simpa using free.1⟩
      owners := by
        rw [List.filterMap_append]
        refine List.nodup_append'.mpr ⟨tables.owners, ?_, ?_⟩
        · rw [List.filterMap_cons, List.filterMap_nil]
          split <;> simp
        · intro owner held new
          simp only [List.filterMap_cons, List.filterMap_nil] at new
          cases owned : row.productRepoId with
          | none => simp [owned] at new
          | some name =>
            rw [owned] at new
            exact free.2 name owned (List.mem_singleton.mp new ▸ held) }
  else .error .integrityError

def updateLayer (layerId : String) (values : LayerValues) : Tables :=
  { tables with
    layers := tables.layers.map fun row => if row.layerId = layerId then { row with values := values } else row
    layerKeys := by
      rw [List.map_map]
      refine (List.map_congr_left fun row _ => ?_) ▸ tables.layerKeys
      rw [Function.comp_apply]
      split_ifs <;> rfl
    owners := by
      rw [List.filterMap_map]
      refine (List.filterMap_congr fun row _ => ?_) ▸ tables.owners
      rw [Function.comp_apply]
      split_ifs <;> rfl }

def nextSeq (layerId : String) : Nat :=
  (tables.events.filter fun row => row.layerId = layerId).foldl (fun next row => max next (row.seq + 1)) 0

def insertEvent (row : EventRow) : Outcome Tables :=
  if free : (row.layerId, row.seq) ∉ tables.events.map (fun row => (row.layerId, row.seq)) ∧
      (row.layerId, row.eventId) ∉ tables.events.map (fun row => (row.layerId, row.eventId)) then do
    require (tables.hasLayer row.layerId = true) .integrityError
    require (row.eventId ≠ "" ∧ row.seq = tables.nextSeq row.layerId) .integrityError
    return { tables with
      events := tables.events ++ [row]
      eventSeqs := by
        rw [List.map_append]
        exact List.nodup_append'.mpr ⟨tables.eventSeqs, List.nodup_singleton _, by simpa using free.1⟩
      eventIds := by
        rw [List.map_append]
        exact List.nodup_append'.mpr ⟨tables.eventIds, List.nodup_singleton _, by simpa using free.2⟩ }
  else .error .integrityError

end Tables

/-- A time as it was given: what the clock showed, in microseconds, and its offset from UTC. -/
structure Datetime where
  clock : Int
  offset : Int
  deriving DecidableEq

/-- What the backend finds around it: the JSON decoder, the layer schema, the registered repositories and the driver.
    SQLite takes integers of 64 bits, and orders times by the text of the clock, without the offset. -/
structure DbEnv where
  decode : Bytes → Option Json
  validate : Document → Bool
  registered : String → Bool
  bindsInteger : Int → Bool
  placeOf : Datetime → Int

def requireProductRepo (productRepoId : Option String) : Outcome Unit :=
  require (strip (productRepoId.getD "") ≠ "") (.layerStorage ("product_repo_id is required for database-backed " ++
    "layers (the storage product_repo the layer belongs to)"))

def requireUnowned (tables : Tables) (productRepoId : Option String) : Outcome Unit :=
  match productRepoId.bind tables.ownedLayer with
  | some existing => .error (.layerConflict ("product_repo " ++ pyRepr (optionalText productRepoId) ++
      " already has layer " ++ pyRepr (.str existing)))
  | none => .ok ()

def ownershipConflict (layerId : String) : Failure :=
  .layerConflict ("layer " ++ pyRepr (.str layerId) ++ " was not created: its product_repo already has a layer " ++
    "or is not registered in storage")

def Failure.isIntegrityError : Failure → Bool
  | .integrityError => true
  | _ => false

/-- `engine.begin()`: what the block leaves is committed, and a block that raises is rolled back. -/
def transaction {α : Type} (tables : Tables) (block : Tables → Outcome (Tables × α)) : Tables × Outcome α :=
  match block tables with
  | .ok (committed, result) => (committed, .ok result)
  | .error failure => (tables, .error failure)

def checked {α : Type} (tables : Tables) (check : Outcome Unit) (rest : Tables × Outcome α) : Tables × Outcome α :=
  match check with
  | .ok () => rest
  | .error failure => (tables, .error failure)

inductive Imported where
  | skipped
  | wouldInsert
  | inserted
  deriving DecidableEq

inductive DbCall where
  | create (layerId : String) (data : Document) (productRepoId : Option String)
  | store (layerId : String) (data : Document)
  | mutate (layerId : String) (mutator : Document → Outcome Document)
  | importLayer (layerId : String) (data : Document) (productRepoId : Option String) (dryRun : Bool)

namespace DbEnv

variable (env : DbEnv)

def validateLayer (document : Document) : Outcome Unit :=
  require (env.validate document = true) (.invalidLayerDocument "invalid complete layer")

def load (tables : Tables) (layerId : String) : Outcome (Option Document) :=
  match tables.layerRow layerId with
  | none => return none
  | some row => do
    let stored ← StoredLayerRecord.fromPayloads env.decode row.values
    let document ← stored.reconstruct env.decode (tables.eventPayloads layerId)
    return some document

def loadLayerId (tables : Tables) (layerId : String) : Outcome Document := do
  match ← env.load tables layerId with
  | some document =>
    env.validateLayer document
    return document
  | none => return .empty

def persist (layerId : String) (record : LayerRecord) (productRepoId : Option String) (tables : Tables) :
    Outcome Tables := do
  let offset ← appendOffset layerId record.eventPayloads (tables.eventPayloads layerId)
  let tables ← if tables.hasLayer layerId then Except.ok (tables.updateLayer layerId record.layerValues)
    else tables.insertLayer env.registered ⟨layerId, productRepoId, record.layerValues⟩
  (record.newEventValues layerId offset).foldlM (fun tables row => tables.insertEvent row) tables

def store (layerId : String) (data : Document) (tables : Tables) : Tables × Outcome Unit :=
  checked tables (env.validateLayer data) <| transaction tables fun tables => do
    require (tables.hasLayer layerId = true) (.layerNotInitialized ("layer " ++ pyRepr (.str layerId) ++
      " is not initialized; create it with initialize (and its product_repo_id) first"))
    let record ← LayerRecord.fromDocument data
    let tables ← env.persist layerId record none tables
    return (tables, ())

/-- `DbBackend.mutate`; the lock its first statement takes is that of the serialised transaction. -/
def mutate {α : Type} (layerId : String) (mutator : Document → Outcome (Document × α)) (tables : Tables) :
    Tables × Outcome α :=
  transaction tables fun tables => do
    match ← env.load tables layerId with
    | none => .error (.layerNotInitialized ("layer " ++ pyRepr (.str layerId) ++
        " is not initialized; provide a complete layer shell"))
    | some data =>
      let (data, result) ← mutator data
      env.validateLayer data
      let record ← LayerRecord.fromDocument data
      let tables ← env.persist layerId record none tables
      return (tables, result)

def importLayer (layerId : String) (data : Document) (productRepoId : Option String) (dryRun : Bool)
    (tables : Tables) : Tables × Outcome Imported :=
  checked tables (requireProductRepo productRepoId) <|
  checked tables (env.validateLayer data) <| transaction tables fun tables => do
    let record ← LayerRecord.fromDocument data
    match ← env.load tables layerId with
    | some existing =>
      require (existing.same data = true) (.layerConflict ("layer " ++ pyRepr (.str layerId) ++
        " already contains different data"))
      require (tables.productRepo layerId = productRepoId) (.layerConflict ("layer " ++ pyRepr (.str layerId) ++
        " belongs to a different product_repo"))
      return (tables, .skipped)
    | none =>
      requireUnowned tables productRepoId
      if dryRun then return (tables, .wouldInsert)
      else
        let next ← rethrow (fun failure => failure.isIntegrityError) (fun _ => ownershipConflict layerId)
          (env.persist layerId record productRepoId tables)
        match ← env.load next layerId with
        | some reconstructed =>
          require (reconstructed.same data = true) (.runtimeError ("layer " ++ pyRepr (.str layerId) ++
            " failed reconstruction verification"))
          env.validateLayer reconstructed
          return (next, .inserted)
        | none => .error (.runtimeError ("layer " ++ pyRepr (.str layerId) ++ " failed reconstruction verification"))

def initializeLayer (layerId : String) (data : Document) (productRepoId : Option String) (tables : Tables) :
    Tables × Outcome Unit :=
  checked tables (requireProductRepo productRepoId) <|
  checked tables (env.validateLayer data) <|
  Prod.map id (rethrow (fun failure => failure.isIntegrityError) fun _ => ownershipConflict layerId) <|
  transaction tables fun tables => do
    require (tables.hasLayer layerId = false)
      (.layerConflict ("layer " ++ pyRepr (.str layerId) ++ " already exists"))
    requireUnowned tables productRepoId
    let record ← LayerRecord.fromDocument data
    let tables ← env.persist layerId record productRepoId tables
    return (tables, ())

def perform (tables : Tables) : DbCall → Tables × Outcome Unit
  | .create layerId data productRepoId => env.initializeLayer layerId data productRepoId tables
  | .store layerId data => env.store layerId data tables
  | .mutate layerId mutator => env.mutate layerId (fun data => (·, ()) <$> mutator data) tables
  | .importLayer layerId data productRepoId dryRun =>
    Prod.map id (Functor.mapConst ()) (env.importLayer layerId data productRepoId dryRun tables)

def performAll (tables : Tables) (calls : List DbCall) : Tables :=
  calls.foldl (fun tables call => (env.perform tables call).1) tables

end DbEnv

end LedgerModel
