import TraustLedger.Backends.Database

namespace LedgerModel

open Runs

inductive Dialect where
  | sqlite
  | postgresql
  deriving DecidableEq

structure KeyedEvent extends EventRow where
  id : Int
  deriving DecidableEq

structure GuardedTables where
  layers : List LayerRow
  events : List KeyedEvent
  layerKeys : (layers.map fun row => row.layerId).Nodup
  owners : (layers.filterMap fun row => row.productRepoId).Nodup
  eventKeys : (events.map fun row => row.id).Nodup
  eventSeqs : (events.map fun row => (row.layerId, row.seq)).Nodup
  eventIds : (events.map fun row => (row.layerId, row.eventId)).Nodup

theorem GuardedTables.rowSeqs (held : GuardedTables) :
    ((held.events.map KeyedEvent.toEventRow).map fun row => (row.layerId, row.seq)).Nodup := by
  rw [List.map_map]
  exact held.eventSeqs

theorem GuardedTables.rowIds (held : GuardedTables) :
    ((held.events.map KeyedEvent.toEventRow).map fun row => (row.layerId, row.eventId)).Nodup := by
  rw [List.map_map]
  exact held.eventIds

def GuardedTables.tables (held : GuardedTables) : Tables :=
  ⟨held.layers, held.events.map KeyedEvent.toEventRow, held.layerKeys, held.owners, held.rowSeqs, held.rowIds⟩

/-- What any client of the database can ask of the two tables, through the ledger or not. `INSERT OR REPLACE` is of
    SQLite and `TRUNCATE` of PostgreSQL; a statement that inserts several rows is several of these, or none. The `id`
    of an event is the one the statement gives or the one the database picks. -/
inductive Statement where
  | insertEvent (orReplace : Bool) (row : KeyedEvent)
  | updateEvents (selects : KeyedEvent → Bool) (change : KeyedEvent → KeyedEvent)
  | deleteEvents (selects : KeyedEvent → Bool)
  | truncateEvents
  | insertLayer (orReplace : Bool) (row : LayerRow)
  | updateLayers (selects : LayerRow → Bool) (change : LayerRow → LayerRow)
  | deleteLayers (selects : LayerRow → Bool)
  | truncateLayers

/-- A statement and its connection; SQLite checks foreign keys only where the connection asked for it. -/
structure Execution where
  foreignKeys : Bool
  statement : Statement

inductive Refusal where
  | historyMutation
  | badAppend (row : EventRow) (expected : Nat)
  | layerDeletion
  | uniqueConstraint
  | foreignKey
  | notInDialect

def Refusal.detail : Dialect → Refusal → String
  | .sqlite, .historyMutation => "ledger events are append-only"
  | .sqlite, .badAppend _ _ => "ledger event must have an ID and append at the next sequence"
  | .sqlite, .layerDeletion => "ledger layers cannot be deleted"
  | .postgresql, .historyMutation | .postgresql, .layerDeletion =>
    "ledger authoritative history cannot be updated or deleted"
  | .postgresql, .badAppend row expected =>
    if row.eventId = "" then "ledger event_id is required"
    else "ledger event sequence " ++ toString row.seq ++ ", expected " ++ toString expected ++ " for layer " ++
      row.layerId
  | _, _ => ""

variable (dialect : Dialect) (registered : String → Bool)

def withEvents (held : GuardedTables) (events : List KeyedEvent) : Except Refusal GuardedTables :=
  if unique : (events.map fun row => row.id).Nodup ∧ (events.map fun row => (row.layerId, row.seq)).Nodup ∧
      (events.map fun row => (row.layerId, row.eventId)).Nodup then
    .ok { held with events := events, eventKeys := unique.1, eventSeqs := unique.2.1, eventIds := unique.2.2 }
  else .error .uniqueConstraint

def withLayers (held : GuardedTables) (layers : List LayerRow) : Except Refusal GuardedTables :=
  if unique : (layers.map fun row => row.layerId).Nodup ∧ (layers.filterMap fun row => row.productRepoId).Nodup then
    .ok { held with layers := layers, layerKeys := unique.1, owners := unique.2 }
  else .error .uniqueConstraint

def enforces (foreignKeys : Bool) : Bool := dialect == .postgresql || foreignKeys

def collides (row stored : KeyedEvent) : Bool :=
  stored.id == row.id || stored.layerId == row.layerId && (stored.seq == row.seq || stored.eventId == row.eventId)

def collidesLayer (row stored : LayerRow) : Bool :=
  stored.layerId == row.layerId || row.productRepoId.isSome && stored.productRepoId == row.productRepoId

/-- The events a row that comes in leaves standing. A row that `OR REPLACE` takes the place of goes without its delete
    trigger, since recursive triggers are off. -/
def standing (held : GuardedTables) (orReplace : Bool) (row : KeyedEvent) : List KeyedEvent :=
  if orReplace then held.events.filter fun stored => !collides row stored else held.events

def standingLayers (held : GuardedTables) (orReplace : Bool) (row : LayerRow) : List LayerRow :=
  if orReplace then held.layers.filter fun stored => !collidesLayer row stored else held.layers

/-- `BEFORE INSERT` fires first, on the table as it stands before anything is replaced. -/
def insertGuarded (held : GuardedTables) (foreignKeys orReplace : Bool) (row : KeyedEvent) :
    Except Refusal GuardedTables := do
  require (row.eventId ≠ "" ∧ row.seq = held.tables.nextSeq row.layerId)
    (.badAppend row.toEventRow (held.tables.nextSeq row.layerId))
  require (orReplace = false ∨ dialect = .sqlite) .notInDialect
  require (enforces dialect foreignKeys = false ∨ held.tables.hasLayer row.layerId = true) .foreignKey
  withEvents held (standing held orReplace row ++ [row])

/-- No event that has its layer would lose it: `ON DELETE RESTRICT`, which `OR REPLACE` does not pass. -/
def leavesNoOrphan (held : GuardedTables) (layers : List LayerRow) : Bool :=
  held.events.all fun event =>
    !held.tables.hasLayer event.layerId || (layers.map fun row => row.layerId).contains event.layerId

def insertLayerGuarded (held : GuardedTables) (foreignKeys orReplace : Bool) (row : LayerRow) :
    Except Refusal GuardedTables := do
  require (orReplace = false ∨ dialect = .sqlite) .notInDialect
  require (enforces dialect foreignKeys = false ∨ (row.productRepoId.all registered = true ∧
    leavesNoOrphan held (standingLayers held orReplace row) = true)) .foreignKey
  withLayers held (standingLayers held orReplace row ++ [row])

def updateGuarded (held : GuardedTables) (foreignKeys : Bool) (selects : LayerRow → Bool)
    (change : LayerRow → LayerRow) : Except Refusal GuardedTables := do
  let layers := held.layers.map fun row => if selects row then change row else row
  require (enforces dialect foreignKeys = false ∨ (leavesNoOrphan held layers = true ∧
    ∀ row ∈ layers, row.productRepoId.all registered = true)) .foreignKey
  withLayers held layers

/-- The triggers are per row, so a statement that selects none of them passes. -/
def execute (held : GuardedTables) (execution : Execution) : Except Refusal GuardedTables :=
  match execution.statement with
  | .insertEvent orReplace row => insertGuarded dialect held execution.foreignKeys orReplace row
  | .updateEvents selects _ | .deleteEvents selects =>
    if held.events.any selects then .error .historyMutation else .ok held
  | .truncateEvents => .error (if dialect = .postgresql then .historyMutation else .notInDialect)
  | .insertLayer orReplace row =>
    insertLayerGuarded dialect registered held execution.foreignKeys orReplace row
  | .updateLayers selects change => updateGuarded dialect registered held execution.foreignKeys selects change
  | .deleteLayers selects => if held.layers.any selects then .error .layerDeletion else .ok held
  | .truncateLayers => .error (if dialect = .postgresql then .layerDeletion else .notInDialect)

end LedgerModel
