import TraustLedger.Backends.Database
import TraustLedger.Handlers

namespace LedgerModel

open Hashing Python Runs

structure SourceLayer where
  layerId : String
  document : Document
  source : String
  error : Option String
  productRepoId : Option String

inductive MigrationStatus where
  | inserted
  | skipped
  | wouldInsert
  | conflict
  | quarantined
  deriving DecidableEq

structure MigrationResult where
  layerId : String
  status : MigrationStatus
  source : String
  events : Nat
  reviewItems : Nat
  validationWarnings : Nat
  detail : Option String
  deriving DecidableEq

/-- What a migration finds around it. `schemaError` is the first error of the schema in the order of the paths: the
    rule that failed and the path, its tokens joined by slashes; `signingRequired` the setting of the environment. -/
structure MigrationEnv where
  db : DbEnv
  schemaError : Document → Option (String × String)
  hash : HashFunction
  signers : Signers
  signingRequired : Bool
  signatureKey : Option String

def Document.layer (document : Document) : Layer where
  metadata := match document.get "metadata" with
    | .obj fields => fields
    | _ => []
  events := match document.get "events" with
    | .arr items => items.map fun item => match item with
      | .obj fields => fields
      | _ => []
    | _ => []
  needsReview := match document.get "needs_review" with
    | .arr items => items
    | _ => []

def MigrationStatus.ofImported : Imported → MigrationStatus
  | .skipped => .skipped
  | .wouldInsert => .wouldInsert
  | .inserted => .inserted

def MigrationStatus.ofFailure : Failure → MigrationStatus
  | .layerConflict _ => .conflict
  | _ => .quarantined

def Failure.isMigrationError : Failure → Bool
  | .typeError => true
  | failure => failure.isValueError

def lengthOf (value : Json) : Outcome Nat :=
  if value.truthy = false then .ok 0
  else match value with
    | .arr items => .ok items.length
    | .obj fields => .ok (Dict.items fields).length
    | .str text => .ok (chars text).length
    | _ => .error .typeError

namespace MigrationEnv

variable (env : MigrationEnv) (dryRun : Bool)

def integrityWarnings (layer : SourceLayer) : Outcome Nat := do
  let integrity ← verifyMerkleIntegrity env.hash layer.document.layer
  let signature ← verifyMerkleSignature env.hash env.signers env.signingRequired layer.document.layer
    env.signatureKey none
  let findings := integrity ++ signature
  match findings.find? fun finding => finding.severity = .error with
  | some failure => .error (.valueError (layer.source ++ ": integrity verification failed: " ++ failure.message))
  | none => return (findings.filter fun finding => finding.severity = .warning).length

/-- `_validate`: the schema, the pinned claims and the integrity of a stamped layer; it returns the warnings. -/
def validate (layer : SourceLayer) : Outcome Nat := do
  match env.schemaError layer.document with
  | some (rule, path) => .error (.valueError (layer.source ++ ": schema rule " ++ rule ++ " failed at /" ++ path))
  | none =>
    let baselineClaims := layer.document.get "baseline_claims"
    match orDefault (layer.document.get "metadata") (.obj []) with
    | .obj metadata =>
      let metadataClaims := Dict.get metadata "claim_hashes"
      let pinned := if baselineClaims ≠ .null ∧ Json.pyEq baselineClaims metadataClaims = false then 1 else 0
      let found ← if (Dict.get metadata "merkle_root").truthy = true then env.integrityWarnings layer else pure 0
      return pinned + found
    | _ => return if baselineClaims ≠ .null then 1 else 0

def report (layer : SourceLayer) (status : MigrationStatus) (warnings : Nat) (detail : Option String) :
    Outcome MigrationResult := do
  let events ← lengthOf (layer.document.get "events")
  let reviewItems ← lengthOf (layer.document.get "needs_review")
  return ⟨layer.layerId, status, layer.source, events, reviewItems, warnings, detail⟩

def refuse (layer : SourceLayer) (failure : Failure) : Outcome MigrationResult :=
  if failure.isMigrationError then
    report layer (.ofFailure failure) 0 (some failure.detail)
  else .error failure

def migrateLayer (layer : SourceLayer) (tables : Tables) : Tables × Outcome MigrationResult :=
  if layer.error.getD "" ≠ "" then
    (tables, .ok ⟨layer.layerId, .quarantined, layer.source, 0, 0, 0, layer.error⟩)
  else match env.validate layer with
    | .error failure => (tables, refuse layer failure)
    | .ok warnings =>
      match env.db.importLayer layer.layerId layer.document layer.productRepoId dryRun tables with
      | (next, .error failure) => (next, refuse layer failure)
      | (next, .ok imported) => (next, report layer (.ofImported imported) warnings none)

end MigrationEnv

structure MigrationRun where
  results : List MigrationResult
  tables : Tables
  raised : Option Failure

def isSelected (selected : Option (List String)) (layer : SourceLayer) : Bool :=
  selected.all fun layerIds => layerIds.contains layer.layerId

def migrate (env : MigrationEnv) (dryRun : Bool) (selected : Option (List String)) :
    List SourceLayer → Tables → MigrationRun
  | [], tables => ⟨[], tables, none⟩
  | layer :: layers, tables =>
    if isSelected selected layer then
      match env.migrateLayer dryRun layer tables with
      | (next, .error failure) => ⟨[], next, some failure⟩
      | (next, .ok result) =>
        let later := migrate env dryRun selected layers next
        ⟨result :: later.results, later.tables, later.raised⟩
    else migrate env dryRun selected layers tables

end LedgerModel
