import TraustLedger.Pages
import TraustLedger.Verification

namespace LedgerModel

open Hashing Python Runs

inductive LayerFile where
  | absent
  | unreadable
  | document (layer : Layer)

structure VerifyArgs where
  layerId : Option String
  all : Bool
  path : Option String
  checkSignatures : Bool

/-- What a command finds around it: the answer of the authentication gate, the environment, the documents the backend
    holds, whether the schema accepts them or not, and the files. -/
structure Shell extends Env where
  environ : Environ
  authorised : Bool
  stored : Snapshot
  files : String → LayerFile

def emptyLayer : Layer := ⟨[], [], []⟩

namespace Shell

variable (shell : Shell)

def lists (layer : Layer) : Bool :=
  match shell.backend with
  | .file => shell.contracts.validateLayer layer
  | .db => true

def listLayerIds : List String :=
  ((shell.stored.entries.filter fun entry => shell.lists entry.2).map Prod.fst).insertionSort fun left right =>
    Dict.precedes (chars right) (chars left) = false

/-- `backend.load`: nothing stands for the empty layer of an id that is not stored. The database checks the schema
    on the way out. -/
def load (layerId : String) : Outcome (Option Layer) := do
  let key ← layerKey shell.backend layerId
  match shell.stored.entries.lookup key with
  | none => return none
  | some layer =>
    require (shell.backend = .file ∨ shell.contracts.validateLayer layer = true)
      (.invalidLayerDocument "invalid complete layer")
    return some layer

def loadLayer (layerId : String) : Outcome Layer := do
  match ← shell.load layerId with
  | none => .error (.notFound ("layer not found: " ++ layerId))
  | some layer =>
    require (shell.contracts.validateLayer layer = true) (.validation "invalid complete layer")
    return layer

def verify (checkSignatures : Bool) (layer : Layer) : Outcome VerifyReport :=
  verifyLayer shell.hash shell.signers shell.environ checkSignatures layer

def verifyEach (checkSignatures : Bool) : List String → Outcome Bool
  | [] => return false
  | layerId :: layerIds => do
    let layer ← shell.load layerId
    let result ← shell.verify checkSignatures (layer.getD emptyLayer)
    let anyFailed ← verifyEach checkSignatures layerIds
    return !result.passed || anyFailed

def verifyAll (checkSignatures : Bool) : Outcome Nat := do
  let anyFailed ← shell.verifyEach checkSignatures shell.listLayerIds
  return if shell.listLayerIds.isEmpty || anyFailed then 1 else 0

def verifyPath (path : String) (checkSignatures : Bool) : Outcome Nat := do
  match shell.files path with
  | .absent | .unreadable => return 1
  | .document layer =>
    let result ← shell.verify checkSignatures layer
    return if result.passed then 0 else 1

def cmdVerify (args : VerifyArgs) : Outcome Nat := do
  if shell.authorised = false then return 1
  let path := args.path.getD ""
  let layerId := args.layerId.getD ""
  if path ≠ "" then shell.verifyPath path args.checkSignatures
  else if args.all then shell.verifyAll args.checkSignatures
  else if layerId = "" then return 1
  else do
    let layer ← shell.loadLayer layerId
    let _ ← shell.verify args.checkSignatures layer
    return 0

def cmdVerifySignature (layerPath : String) (key : Option String) : Outcome Nat := do
  if shell.authorised = false then return 1
  match shell.files layerPath with
  | .absent | .unreadable => return 1
  | .document layer =>
    if (layer.metadata.get "merkle_root").truthy = false then return 1
    if (layer.metadata.get "merkle_root_signature").truthy = false then return 1
    let required : Bool := signingEnv shell.environ "REQUIRED" (some "0") = some "1"
    let findings ← verifyMerkleSignature shell.hash shell.signers required layer key none
    return if findings.any fun finding => finding.severity = .error then 1 else 0

end Shell

/-- The status of the process: every error ends it with 1, whether the command, `main` or the interpreter reports
    it. -/
def exitCode : Outcome Nat → Nat
  | .ok status => status
  | .error _ => 1

end LedgerModel
