import TraustLedger.Library.KeyedTables
import TraustLedger.VerifyCommands
import Mathlib.Algebra.Group.Int.Defs

namespace LedgerModel

open Hashing Python Runs KeyedTables

structure ProjectionRow where
  layerId : String
  findingRef : String
  fingerprint : Option String
  orphan : Option Bool
  validity : String
  resolution : String
  assurance : Assurance
  eventCount : Nat
  conflict : Bool
  fpOverridden : Bool
  fpReassertionBlocked : Bool
  severityOverride : Option SeverityOverride
  lastUpdated : String
  merkleRoot : Json
  merkleEpoch : Json
  materializedAt : Int

def ProjectionRow.key (row : ProjectionRow) : String × String := (row.layerId, row.findingRef)

abbrev Projection := Table ProjectionRow.key

def buildRow (layerId : String) (finding : FindingDisposition) (merkleRoot merkleEpoch : Json) (now : Int) :
    ProjectionRow where
  layerId := layerId
  findingRef := finding.findingRef
  fingerprint := finding.fingerprint
  orphan := finding.orphan
  validity := pyStr finding.disposition.validity
  resolution := finding.disposition.resolution
  assurance := finding.disposition.assurance
  eventCount := finding.eventCount
  conflict := finding.disposition.conflict
  fpOverridden := finding.disposition.fpOverridden
  fpReassertionBlocked := finding.disposition.fpReassertionBlocked
  severityOverride := finding.disposition.severityOverride
  lastUpdated := finding.disposition.lastUpdated
  merkleRoot := merkleRoot
  merkleEpoch := merkleEpoch
  materializedAt := now

/-- The driver has no parameter for an array or an object, nor for an integer of more than 64 bits. -/
def bindable : Json → Bool
  | .arr _ | .obj _ => false
  | .int number => decide (-2 ^ 63 ≤ number ∧ number < 2 ^ 63)
  | _ => true

def upsertRow (table : Projection) (row : ProjectionRow) : Outcome Projection := do
  let existing := table.select row.key
  require (bindable row.merkleRoot = true ∧ bindable row.merkleEpoch = true)
    (.runtimeError "Error binding parameter")
  match existing with
  | some _ => return table.update row
  | none =>
    match table.insert row with
    | some next => return next
    | none => .error .integrityError

def upsertLayer (table : Projection) (layerId : String) (rows : List ProjectionRow) (pruneEmpty : Bool) :
    Outcome Projection := do
  let currentRefs := rows.map fun row => row.findingRef
  if currentRefs = [] ∧ pruneEmpty = false then return table
  let kept := table.delete fun row => row.layerId == layerId && !currentRefs.contains row.findingRef
  rows.foldlM upsertRow kept

structure MaterializeArgs where
  toUrl : Option String
  pruneEmpty : Bool
  ddl : Bool
  layers : List String

structure Sweep where
  totalLayers : Nat
  totalFindings : Nat
  seenLayers : List String

structure MaterializeReport where
  status : Nat
  swept : Sweep
  notFound : List String
  target : String

section Materializing

variable (env : Env) (nowText : String) (now : Int) (args : MaterializeArgs)

def layerRows (layerId : String) (layer : Layer) : Outcome (List ProjectionRow) := do
  let (findings, _) ← resolveLayerFindings env.contracts env.fromIsoFormat nowText layer
  return findings.map fun finding =>
    buildRow layerId finding (layer.metadata.get "merkle_root") (layer.metadata.get "merkle_epoch") now

def isSwept (layerId : String) : Bool := args.layers.isEmpty || args.layers.contains layerId

/-- The loop of `cmd_materialize` over the layers as it reads them. Each layer is committed before the next one is
    read, so what a failure leaves is what stood before the layer that failed. -/
def materializeEach (table : Projection) (swept : Sweep) :
    List (String × Outcome Layer) → Projection × Outcome Sweep
  | [] => (table, .ok swept)
  | (_, .error failure) :: _ => (table, .error failure)
  | (layerId, .ok layer) :: source =>
    if isSwept args layerId = false then materializeEach table swept source
    else
      match layerRows env nowText now layerId layer with
      | .error failure => (table, .error failure)
      | .ok rows =>
        match upsertLayer table layerId rows args.pruneEmpty with
        | .error failure => (table, .error failure)
        | .ok next => materializeEach next
            ⟨swept.totalLayers + 1, swept.totalFindings + rows.length, layerId :: swept.seenLayers⟩ source

end Materializing

def inAuthority (c : Char) : Bool := c != '/' && c != '@'

/-- What follows `://[^/@]*:[^/@]*@`. The run after the slashes ends at its first `/` or `@`, so the pattern matches
    where it ends at an `@` and has a colon in it. -/
def afterCredentials : List Char → Option (List Char)
  | ':' :: '/' :: '/' :: rest =>
    match rest.dropWhile inAuthority with
    | '@' :: after => if ':' ∈ rest.takeWhile inAuthority then some after else none
    | _ => none
  | _ => none

def redactChars : Nat → List Char → List Char
  | fuel + 1, c :: text =>
    match afterCredentials (c :: text) with
    | some after => chars "://***:***@" ++ redactChars fuel after
    | none => c :: redactChars fuel text
  | _, text => text

def redact (url : String) : String := String.ofList (redactChars (chars url).length (chars url))

namespace Shell

variable (shell : Shell)

def iterLayers : List (String × Outcome Layer) :=
  shell.listLayerIds.map fun layerId => (layerId, (fun layer => layer.getD emptyLayer) <$> shell.load layerId)

def materializeTarget (args : MaterializeArgs) : String :=
  let named := (shell.environ "LAAS_MATERIALIZE_URL").getD ""
  if named = "" then args.toUrl.getD "" else named

/-- `databases` are the projections behind the URLs, and `ensureSchema` says which of them have the schema or can be
    given it. -/
def cmdMaterialize (nowText : String) (now : Int) (ensureSchema : String → Outcome Unit) (args : MaterializeArgs)
    (databases : String → Projection) : (String → Projection) × Outcome MaterializeReport :=
  let url := shell.materializeTarget args
  if args.ddl then (databases, .ok ⟨0, ⟨0, 0, []⟩, [], ""⟩)
  else if url = "" then
    (databases, .error (.commandFailed ("a target is required unless --ddl is specified: pass --to for a local " ++
      "sqlite path, or set LAAS_MATERIALIZE_URL for anything with credentials")))
  else match ensureSchema url with
    | .error failure => (databases, .error failure)
    | .ok () =>
      let (table, outcome) := materializeEach shell.toEnv nowText now args (databases url) ⟨0, 0, []⟩ shell.iterLayers
      (fun other => if other = url then table else databases other, do
        let swept ← outcome
        let missing := args.layers.dedup.filter fun layerId => !swept.seenLayers.contains layerId
        let notFound := missing.insertionSort fun left right => Dict.precedes (chars right) (chars left) = false
        return ⟨if swept.totalLayers = 0 then 1 else 0, swept, notFound, redact url⟩)

end Shell

end LedgerModel
