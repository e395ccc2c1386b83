import Mathlib.Data.List.DropRight
import TraustLedger.Batches

namespace LedgerModel

open Python Runs

/-- A `PurePosixPath`: its root, which is empty, one slash or two, and the parts under it. -/
structure PurePath where
  root : List Char
  parts : List (List Char)
  deriving DecidableEq

/-- `posixpath.splitroot`: two leading slashes are a root of their own, three or more are one. -/
def pathRoot : List Char → List Char
  | '/' :: '/' :: '/' :: _ => ['/']
  | '/' :: '/' :: _ => ['/', '/']
  | '/' :: _ => ['/']
  | _ => []

def isPathPart (part : List Char) : Bool := part != [] && part != ['.']

def parsePath (text : List Char) : PurePath := ⟨pathRoot text, (text.splitOn '/').filter isPathPart⟩

namespace PurePath

variable (path : PurePath)

def isAbsolute : Bool := path.root != []

def join (segment : List Char) : PurePath :=
  let right := parsePath segment
  if right.isAbsolute then right else ⟨path.root, path.parts ++ right.parts⟩

def parent : PurePath := ⟨path.root, path.parts.dropLast⟩

def name : List Char := path.parts.getLast?.getD []

def text : List Char :=
  if path.root = [] ∧ path.parts = [] then ['.'] else path.root ++ ['/'].intercalate path.parts

/-- `path.suffix`: from the last dot of the name on, where the dot is neither its first nor its last character. -/
def suffix : List Char :=
  let stem := path.name.rdropWhile (· != '.')
  if 1 < stem.length ∧ stem.length < path.name.length then '.' :: path.name.drop stem.length else []

def withSuffix (suffix : List Char) : Outcome PurePath := do
  require ('/' ∉ suffix ∧ (suffix = [] ∨ suffix.head? = some '.') ∧ suffix ≠ ['.'])
    (.valueError ("Invalid suffix " ++ pyRepr (.str (String.ofList suffix))))
  require (path.name ≠ [])
    (.valueError ("PosixPath(" ++ pyRepr (.str (String.ofList path.text)) ++ ") has an empty name"))
  return ⟨path.root, path.parts.dropLast ++ [path.name.take (path.name.length - path.suffix.length) ++ suffix]⟩

end PurePath

def layerFileSuffix : List Char := ['.', 'j', 's', 'o', 'n']

def lockFileSuffix : List Char := ['.', 'l', 'o', 'c', 'k']

def layerFilePath (dataDir layerId : String) : Outcome PurePath := do
  require (matchesLayerId (chars layerId) = true) (.valueError Failure.invalidLayerId.detail)
  return (parsePath (chars dataDir)).join (chars layerId ++ layerFileSuffix)

inductive LayerKey where
  | row (layerId : String)
  | file (path : PurePath)
  deriving DecidableEq

def storageKey (backend : Backend) (dataDir layerId : String) : Outcome LayerKey := do
  require (layerId ≠ "") .missingLayerId
  match backend with
  | .db => do
    require ((chars layerId).length ≤ dbLayerIdMaxLength ∧ matchesDbLayerId (chars layerId) = true) .invalidLayerId
    return .row layerId
  | .file => do
    require (matchesLayerId (chars layerId) = true) .invalidLayerId
    let path ← layerFilePath dataDir layerId
    return .file path

def lockPath (path : PurePath) : Outcome PurePath := path.withSuffix (path.suffix ++ lockFileSuffix)

end LedgerModel
