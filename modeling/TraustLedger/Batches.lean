import TraustLedger.Handlers

namespace LedgerModel

open Python Runs

/-- What `$` leaves of a text in a pattern: a newline that ends the text is not part of the match. -/
def dropFinalNewline (text : List Char) : List Char := if text.getLast? = some '\n' then text.dropLast else text

def isLayerIdChar (c : Char) : Bool := c.isAlphanum || c == '.' || c == '_' || c == '-'

def hasDoubleDot : List Char → Bool
  | '.' :: '.' :: _ => true
  | _ :: rest => hasDoubleDot rest
  | [] => false

/-- `re.match(r"^(?!\.\.)(?!.*\.\.)\.?[a-zA-Z0-9]([a-zA-Z0-9._-]*[a-zA-Z0-9])?$", layer_id)`. -/
def matchesLayerId (layerId : List Char) : Bool :=
  let text := dropFinalNewline layerId
  let name := if text.head? = some '.' then text.tail else text
  !hasDoubleDot text && name.head?.any Char.isAlphanum && name.getLast?.any Char.isAlphanum &&
    name.all isLayerIdChar

def dbLayerIdMaxLength : Nat := 512

def isControl (c : Char) : Bool := c.toNat < 32 || c.toNat == 127

/-- `re.match(r"^[^\x00-\x20\x7f](?:[^\x00-\x1f\x7f]*[^\x00-\x20\x7f])?$", layer_id)`. -/
def matchesDbLayerId (layerId : List Char) : Bool :=
  let text := dropFinalNewline layerId
  text.head?.any (fun c => !isControl c && c != ' ') && text.getLast?.any (fun c => !isControl c && c != ' ') &&
    text.all fun c => !isControl c

def namesLayer (backend : Backend) (layerId : List Char) : Bool :=
  match backend with
  | .db => layerId.length ≤ dbLayerIdMaxLength && matchesDbLayerId layerId
  | .file => matchesLayerId layerId

def layerKey (backend : Backend) (layerId : String) : Outcome String := do
  require (layerId ≠ "") .missingLayerId
  require (namesLayer backend (chars layerId) = true) .invalidLayerId
  return layerId

abbrev LayerStore := String → Option Layer

def LayerStore.put (stored : LayerStore) (layerId : String) (layer : Layer) : LayerStore :=
  fun name => if name = layerId then some layer else stored name

structure RestatementResponse where
  eventId : String
  layerId : String
  target : String
  merkleRoot : Option String

variable (env : Env) (moment : Moment)

def restateLayer (layerId : String) (block : Dict) (rationale : String) (actor : LayerActor) (recordedAt : String)
    (stored : LayerStore) : Outcome (LayerStore × RestatementResponse) := do
  let (target, _) ← restatementEvent env moment block rationale actor recordedAt
  let key ← layerKey env.backend layerId
  match stored key with
  | none => .error (.layerNotInitialized ("layer " ++ pyRepr (.str layerId) ++
      " is not initialized; provide a complete layer shell"))
  | some layer => do
    let (next, receipt) ← applyRestatement env moment layerId block rationale actor recordedAt layer
    return (stored.put key next, ⟨receipt.eventIds.headD "", layerId, target,
      if receipt.merkleRoot = "" then none else some receipt.merkleRoot⟩)

def itemKeys : List String := ["layer", "layer_id", "rationale", "recorded_at"]

def layerOfItem (item : Dict) : Json :=
  if (item.get "layer").truthy then item.get "layer" else item.get "layer_id"

def splitItem : Json → Outcome (String × String × Dict × Json)
  | .obj item => do
    let layerId := layerOfItem item
    require (layerId.truthy = true) (.validation "each batch item needs a 'layer'")
    let rationale := Dict.get item "rationale"
    require (rationale.truthy = true)
      (.validation (pyStr layerId ++ ": each batch item needs a 'rationale'"))
    return (pyStr layerId, pyStr rationale, item.filter fun entry => entry.1 ∉ itemKeys, Dict.get item "recorded_at")
  | _ => .error .attributeError

def recordedOrNow (recordedAt : Json) : Json := if recordedAt.truthy then recordedAt else .str moment.nowText

/-- One turn of the loop. `fromisoformat` takes a text, after the gates that do not look at the time. -/
def restateItem (actor : LayerActor) (item : Json) (stored : LayerStore) :
    Outcome (LayerStore × RestatementResponse) := do
  let (layerId, rationale, block, recordedAt) ← splitItem item
  match recordedOrNow moment recordedAt with
  | .str text => restateLayer env moment layerId block rationale actor text stored
  | _ => do
    requireSigningConfigured moment.config
    requireVerifiedHuman actor
    requireRationaleLength rationale
    .error .typeError

structure BatchFailure where
  index : Nat
  layer : Json
  error : String

structure BatchReport where
  applied : List RestatementResponse
  failed : List BatchFailure

/-- The two `except` clauses of the loop: service errors, and value errors, which the storage errors are. -/
def Failure.isReported (failure : Failure) : Bool := failure.isService || failure.isValueError

def failedLayer : Json → Json
  | .obj item => layerOfItem item
  | _ => .null

/-- What storage holds when the loop ends, and what the loop comes to: a failure it does not catch ends it. Each
    item finds a moment of its own. -/
def restateItems (clock : Nat → Moment) (actor : LayerActor) (index : Nat) (stored : LayerStore)
    (report : BatchReport) : List Json → LayerStore × Outcome BatchReport
  | [] => (stored, .ok report)
  | item :: items =>
    match restateItem env (clock index) actor item stored with
    | .ok (next, response) =>
      restateItems clock actor (index + 1) next { report with applied := report.applied ++ [response] } items
    | .error failure =>
      if failure.isReported then
        restateItems clock actor (index + 1) stored
          { report with failed := report.failed ++ [⟨index, failedLayer item, failure.detail⟩] } items
      else (stored, .error failure)

def applyRestatementBatch (clock : Nat → Moment) (items : List Json) (actor : LayerActor) (stored : LayerStore) :
    LayerStore × Outcome BatchReport :=
  if items = [] then (stored, .error (.validation "a restatement batch needs at least one item"))
  else restateItems env clock actor 0 stored ⟨[], []⟩ items

end LedgerModel
