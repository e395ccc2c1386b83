import Mathlib.Data.List.Sort
import TraustLedger.Integrity.Ledger

namespace LedgerModel

open Hashing Python Runs

structure DirEntry where
  name : String
  isFile : Bool
  content : Bytes
  deriving DecidableEq

structure Listing where
  entries : List DirEntry
  distinct : (entries.map fun entry => entry.name).Nodup

def layerNameSuffix : List Char := chars "-findings-layer.json"

def isLayerName (name : String) : Bool := layerNameSuffix.isSuffixOf (chars name)

def baseOf (layerName : String) : List Char := (chars layerName).take ((chars layerName).length - layerNameSuffix.length)

def isArtifactOf (layerName : String) (entry : DirEntry) : Bool :=
  entry.isFile && (baseOf layerName ++ ['-']).isPrefixOf (chars entry.name) && !isLayerName entry.name

def siblingArtifacts (directory : Listing) (layerName : String) : List DirEntry :=
  if isLayerName layerName then
    (directory.entries.filter (isArtifactOf layerName)).insertionSort fun left right =>
      Dict.precedes (chars right.name) (chars left.name) = false
  else []

variable (H : HashFunction)

def reportSha256 (entry : DirEntry) : String := hexDigest H entry.content

def freshDigests (directory : Listing) (layerName : String) : Dict :=
  Dict.ofList ((siblingArtifacts directory layerName).map fun entry => (entry.name, .str (reportSha256 H entry)))

def stampArtifactDigests (metadata : Dict) (directory : Listing) (layerName : String) : Dict × Bool :=
  let fresh := freshDigests H directory layerName
  if Json.pyEq (metadata.get "artifact_digests") (.obj fresh) then (metadata, false)
  else if fresh ≠ [] then (metadata.set "artifact_digests" (.obj fresh), true)
  else (metadata.remove "artifact_digests", true)

def shortened : Json → Outcome String
  | .str text => .ok (String.ofList ((chars text).take 12))
  | .arr items => .ok (pyRepr (.arr (items.take 12)))
  | _ => .error .typeError

def checkSibling (recorded : Dict) (entry : DirEntry) : Outcome (List String) := do
  match recorded.get entry.name with
  | .null => return [entry.name ++ ": present on disk, absent from artifact_digests"]
  | want =>
    let got := reportSha256 H entry
    if Json.pyEq (.str got) want then return []
    else do
      let held ← shortened want
      return [entry.name ++ ": recorded " ++ held ++ "…, bytes hash " ++ String.ofList ((chars got).take 12) ++ "…"]

def missingNames (recorded : Dict) (siblings : List DirEntry) : List String :=
  ((recorded.map fun entry => entry.1).filter fun name => !(siblings.map fun entry => entry.name).contains name)
    |>.dedup.insertionSort fun left right => Dict.precedes (chars right) (chars left) = false

/-- The schema makes `artifact_digests` an object; on any other value that is not empty `.get` raises. -/
def checkArtifactDigests (metadata : Dict) (directory : Listing) (layerName : String) : Outcome (List String) := do
  match metadata.get "artifact_digests" with
  | .obj recorded =>
    if recorded.isEmpty then return []
    let siblings := siblingArtifacts directory layerName
    let findings ← siblings.mapM (checkSibling H recorded)
    return findings.flatten ++ (missingNames recorded siblings).map fun name =>
      name ++ ": recorded in artifact_digests, missing on disk"
  | recorded => if recorded.truthy then .error .attributeError else return []

end LedgerModel
