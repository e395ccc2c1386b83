import TraustLedger.Backends.Database
import TraustLedger.Pages

namespace LedgerModel

open Hashing Python Runs

inductive Column where
  | productRepoId
  | layerId
  | merkleEpoch
  | updatedAt
  deriving DecidableEq

inductive FilterTarget where
  | column (column : Column)
  | item (field : String)
  deriving DecidableEq

inductive FilterOp where
  | eq
  | isIn
  | gte
  | lte
  deriving DecidableEq

def FilterOp.name : FilterOp → String
  | .eq => "eq"
  | .isIn => "in"
  | .gte => "gte"
  | .lte => "lte"

inductive ValueKind where
  | text
  | integer
  | datetime
  deriving DecidableEq

structure FilterDef where
  target : FilterTarget
  ops : List FilterOp
  parse : ValueKind
  deriving DecidableEq

def filterRegistry : List (String × FilterDef) :=
  [("product_repo_id", ⟨.column .productRepoId, [.eq, .isIn], .text⟩),
    ("layer_id", ⟨.column .layerId, [.eq, .isIn], .text⟩),
    ("merkle_epoch", ⟨.column .merkleEpoch, [.gte, .lte], .integer⟩),
    ("updated_at", ⟨.column .updatedAt, [.gte, .lte], .datetime⟩),
    ("review_status", ⟨.item "status", [.eq, .isIn], .text⟩),
    ("review_queue_reason", ⟨.item "queue_reason", [.eq, .isIn], .text⟩)]

def fileSupportedColumnFilters : List String := ["layer_id", "product_repo_id"]

inductive Scalar where
  | text (value : String)
  | integer (value : Int)
  | instant (value : Datetime)
  deriving DecidableEq

inductive FilterValue where
  | one (value : Scalar)
  | many (values : List Scalar)
  deriving DecidableEq

/-- A filter that was parsed or built by the route; its target is that of its key's entry. -/
structure Filter where
  key : String
  target : FilterTarget
  op : FilterOp
  value : FilterValue
  deriving DecidableEq

def partition (sep : Char) : List Char → Option (List Char × List Char)
  | [] => none
  | c :: text => if c = sep then some ([], text) else (partition sep text).map fun parts => (c :: parts.1, parts.2)

section Parsing

-- `_parse_datetime`: a time, or the text of the `ValueError`, a timestamp without a timezone included.
variable (parseDatetime : String → Except String Datetime)

def parseScalar (text : String) : ValueKind → Outcome Scalar
  | .text => return .text text
  | .integer => Scalar.integer <$> toInt (.str text)
  | .datetime =>
    match parseDatetime text with
    | .ok instant => return .instant instant
    | .error detail => .error (.valueError detail)

def parseValue (definition : FilterDef) (op : FilterOp) (value : List Char) : Outcome FilterValue :=
  if op = .isIn then do
    let members := (value.splitOn ',').filter (· ≠ [])
    require (members ≠ []) (.valueError "in-filter requires at least one value")
    let parsed ← members.mapM fun part => parseScalar parseDatetime (String.ofList part) definition.parse
    return .many parsed
  else FilterValue.one <$> parseScalar parseDatetime (String.ofList value) definition.parse

def invalidValue (key : String) : Failure → Failure
  | .valueError detail => .valueError ("invalid value for filter " ++ pyRepr (.str key) ++ ": " ++ detail)
  | failure => failure

def notFilter (raw : String) : Failure := .valueError ("filter must be key:op:value, got " ++ pyRepr (.str raw))

def parseFilter (raw : String) : Outcome Filter :=
  match partition ':' (chars raw) with
  | none => .error (notFilter raw)
  | some (key, rest) =>
    match partition ':' rest with
    | none => .error (notFilter raw)
    | some (op, value) =>
      let key := String.ofList key
      match filterRegistry.lookup key with
      | none => .error (.valueError ("unknown filter key " ++ pyRepr (.str key)))
      | some definition =>
        match definition.ops.find? fun known => known.name = String.ofList op with
        | none => .error (.valueError ("filter " ++ pyRepr (.str key) ++ " does not support op " ++
            pyRepr (.str (String.ofList op))))
        | some op => do
          let parsed ← (parseValue parseDatetime definition op value).mapError (invalidValue key)
          return ⟨key, definition.target, op, parsed⟩

def parseFilters (raw : List String) : Outcome (List Filter) := raw.mapM (parseFilter parseDatetime)

end Parsing

structure LayerEntry where
  layerId : String
  productRepoId : Option String
  needsReview : Option (List Json)
  deriving DecidableEq

def itemFilters (filters : List Filter) : List (String × Filter) :=
  filters.filterMap fun f =>
    match f.target with
    | .item field => some (field, f)
    | .column _ => none

def sameText (value : Json) : Scalar → Bool
  | .text text => Json.pyEq value (.str text)
  | .integer number => Json.pyEq value (.int number)
  | .instant _ => false

/-- One round of the loop of `item_matches`; the registry has no other operator for a field of an item. -/
def itemMatch (item : Dict) (entry : String × Filter) : Bool :=
  match entry.2.op, entry.2.value with
  | .eq, .one value => sameText (item.get entry.1) value
  | .isIn, .many values => values.any (sameText (item.get entry.1))
  | _, _ => false

def itemMatches (filters : List (String × Filter)) : Json → Bool
  | .obj item => filters.all (itemMatch item)
  | _ => false

def matchingItems (filters : List (String × Filter)) (queue : List Json) : List Json :=
  (queue.filter Json.isObj).filter (itemMatches filters)

def wantsReviews (filters : List Filter) (includeReviews : Bool) : Bool :=
  includeReviews || !(itemFilters filters).isEmpty

namespace Snapshot

variable (stored : Snapshot)

def columnFiltersMatch (filters : List Filter) (layerId : String) : Bool :=
  filters.all fun f =>
    match f.target, f.op, f.value with
    | .column .layerId, .eq, .one value => .text layerId = value
    | .column .layerId, .isIn, .many values => values.contains (.text layerId)
    | .column .productRepoId, _, _ => false
    | _, _, _ => true

def queueOf (layerId : String) : List Json :=
  ((stored.entries.lookup layerId).map fun layer => layer.needsReview).getD []

def requireSupported (f : Filter) : Outcome Unit :=
  match f.target with
  | .column _ => require (fileSupportedColumnFilters.contains f.key = true)
      (.layerStorage ("filter " ++ pyRepr (.str f.key) ++ " is not supported by the file backend"))
  | .item _ => return ()

def queryLayers (filters : List Filter) (includeReviews : Bool) : Outcome (List LayerEntry) := do
  filters.forM requireSupported
  let listed := stored.listLayerIds.filter (columnFiltersMatch filters)
  if wantsReviews filters includeReviews = false then return listed.map fun layerId => ⟨layerId, none, none⟩
  else return listed.filterMap fun layerId =>
    let items := matchingItems (itemFilters filters) (stored.queueOf layerId)
    if items = [] then none else some ⟨layerId, none, some items⟩

end Snapshot

def optionalInteger : Json → Option Int
  | .int number => some number
  | _ => none

/-- What a column holds; a time is the place it has in the order of the column. -/
inductive Cell where
  | text (value : String)
  | integer (value : Int)
  | time (place : Int)
  deriving DecidableEq

namespace DbEnv

variable (env : DbEnv)

def cellOf : Scalar → Cell
  | .text value => .text value
  | .integer value => .integer value
  | .instant value => .time (env.placeOf value)

/-- The comparison of a column with a bound value; a column that is null compares with nothing. -/
def columnCompare (op : FilterOp) (column : Option Cell) (value : FilterValue) : Bool :=
  match op, column, value with
  | .eq, some held, .one value => held = env.cellOf value
  | .isIn, some held, .many values => (values.map env.cellOf).contains held
  | .gte, some (.integer held), .one (.integer value) => decide (value ≤ held)
  | .gte, some (.time held), .one (.instant value) => decide (env.placeOf value ≤ held)
  | .lte, some (.integer held), .one (.integer value) => decide (held ≤ value)
  | .lte, some (.time held), .one (.instant value) => decide (held ≤ env.placeOf value)
  | _, _, _ => false

def columnOf (updatedAt : String → Int) (row : LayerRow) : Column → Option Cell
  | .productRepoId => row.productRepoId.map .text
  | .layerId => some (.text row.layerId)
  | .merkleEpoch =>
    match env.decode row.values.metadataPayload with
    | some (.obj metadata) => (optionalInteger (Dict.get metadata "merkle_epoch")).map .integer
    | _ => none
  | .updatedAt => some (.time (updatedAt row.layerId))

def rowMatches (updatedAt : String → Int) (filters : List Filter) (row : LayerRow) : Bool :=
  filters.all fun f =>
    match f.target with
    | .column column => env.columnCompare f.op (env.columnOf updatedAt row column) f.value
    | .item _ => true

def binds : Scalar → Bool
  | .integer value => env.bindsInteger value
  | .text _ | .instant _ => true

def bindsFilter (f : Filter) : Bool :=
  match f.target, f.value with
  | .column _, .one value => env.binds value
  | .column _, .many values => values.all env.binds
  | .item _, _ => true

/-- `[i for i in json.loads(payload) if isinstance(i, dict)]`: iterating over an object or text gives no object. -/
def queueItems (payload : Bytes) : Outcome (List Json) :=
  match env.decode payload with
  | none => .error (.valueError "Expecting value")
  | some (.arr items) => return items.filter Json.isObj
  | some (.obj _) | some (.str _) => return []
  | some _ => .error .typeError

def entryOf (filters : List Filter) (wanted : Bool) (row : LayerRow) : Outcome (Option LayerEntry) := do
  if wanted = false then return some ⟨row.layerId, row.productRepoId, none⟩
  else
    let items ← env.queueItems row.values.needsReviewPayload
    let shown := items.filter (itemMatches (itemFilters filters))
    return if shown = [] then none else some ⟨row.layerId, row.productRepoId, some shown⟩

/-- `DbBackend.query_layers`; the empty queue `[]` is two bytes long. -/
def queryLayers (updatedAt : String → Int) (filters : List Filter) (includeReviews : Bool) (tables : Tables) :
    Outcome (List LayerEntry) := do
  require (∀ f ∈ filters, env.bindsFilter f = true) .overflowError
  let wanted := wantsReviews filters includeReviews
  let selected := tables.layers.filter fun row =>
    env.rowMatches updatedAt filters row && (!wanted || decide (2 < row.values.needsReviewPayload.length))
  let ordered := selected.insertionSort fun left right =>
    Dict.precedes (chars right.layerId) (chars left.layerId) = false
  let entries ← ordered.mapM (env.entryOf filters wanted)
  return entries.filterMap id

end DbEnv

def listLayers (parseDatetime : String → Except String Datetime)
    (queryLayers : List Filter → Bool → Outcome (List LayerEntry)) (productRepoId : Option String)
    (filter : List String) (includeReviews : Bool) : Outcome (List LayerEntry) := do
  let parsed ← (parseFilters parseDatetime filter).mapError fun failure => .validation failure.detail
  let owner := productRepoId.toList.map fun owner =>
    (⟨"product_repo_id", .column .productRepoId, .eq, .one (.text owner)⟩ : Filter)
  let entries ← queryLayers (parsed ++ owner) includeReviews
  require (¬ (productRepoId.isSome = true ∧ entries = [] ∧ filter = [] ∧ includeReviews = false))
    (.notFound ("no layer for product_repo: " ++ productRepoId.getD ""))
  return entries

section Events

structure EventsResponse where
  events : List Dict
  total : Nat
  layerId : String

def eventSourceType (event : Dict) : Option String :=
  match event.get "source" with
  | .obj source => match Dict.get source "type" with
    | .str text => some text
    | _ => none
  | _ => none

def filterEvents (findingRef sourceType : Option String) (events : List Dict) : List Dict :=
  events.filter fun event =>
    (findingRef.all fun ref => Json.pyEq (event.get "finding_ref") (.str ref)) &&
      sourceType.all fun type => eventSourceType event == some type

/-- `items[start:stop]`: a negative bound counts from the end. -/
def slice {α : Type} (items : List α) (start stop : Int) : List α :=
  let bound (index : Int) : Nat := (if index < 0 then index + items.length else index).toNat
  (items.take (bound stop)).drop (bound start)

def queryLayerEvents (load : String → Outcome Layer) (layerId : String) (findingRef sourceType : Option String)
    (limit offset : Int) : Outcome EventsResponse := do
  let layer ← load layerId
  let filtered := filterEvents findingRef sourceType layer.events
  return ⟨slice filtered offset (offset + limit), filtered.length, layerId⟩

end Events

end LedgerModel
