import TraustLedger.Migration
import TraustLedger.Paths

namespace LedgerModel

open Hashing Python Runs

inductive TreeEntry where
  | file (content : Bytes)
  | special (content : Option Bytes)
  | dir
  | symlink
  deriving DecidableEq

/-- A source directory that stays as it is: its resolved path, what stands at each place under it, and what the
    operating system answers about a path. Both questions can fail (a name that is too long or holds a NUL, a directory
    that may not be searched); a path none of whose parts is a link resolves to itself. -/
structure SourceTree where
  root : PurePath
  entry : List (List Char) → Option TreeEntry
  isSymlink : List (List Char) → Outcome Bool
  resolve : PurePath → Outcome PurePath
  osError : List (List Char) → String
  isSymlinkEntry : ∀ place linked, isSymlink place = .ok linked → (linked = true ↔ entry place = some .symlink)
  resolvePlain : ∀ parts path, ['.', '.'] ∉ parts →
    (∀ start, start <+: parts → start ≠ [] → entry start ≠ some .symlink) →
    resolve ⟨root.root, root.parts ++ parts⟩ = .ok path → path = ⟨root.root, root.parts ++ parts⟩

/-- `loads` reads a line of the manifest, `decode` the UTF-8 text of a file; both give the text of their error. -/
structure ManifestEnv where
  hash : HashFunction
  loads : String → Except String Json
  decode : Bytes → Except String Json

structure Selection where
  layerId : String
  sourceFile : String
  digest : String
  productRepoId : Option String
  deriving DecidableEq

def isLowerHex (c : Char) : Bool := (chars "0123456789abcdef").contains c

def isDigest (digest : List Char) : Bool := digest.length == 64 && digest.all isLowerHex

def isSourceFile (relative : List Char) : Bool :=
  relative != [] && !(parsePath relative).isAbsolute && !(parsePath relative).parts.contains ['.', '.'] &&
    !relative.contains '\\' && layerFileSuffix.isSuffixOf relative

def ownerOf : Json → Option (Option String)
  | .null => some none
  | .str owner => if strip owner = "" then none else some (some owner)
  | _ => none

def selectionOf (record : Dict) : Option Selection :=
  match record.get "source_file", record.get "layer_id", record.get "source_digest",
      ownerOf (record.get "product_repo_id") with
  | .str relative, .str layerId, .str digest, some productRepoId =>
    if Json.pyEq (record.get "format_version") (.int 1) = true ∧ record.get "artifact" = .str "layer" ∧
        isSourceFile (chars relative) = true ∧ layerId ≠ "" ∧ isDigest (chars digest) = true then
      some ⟨layerId, relative, digest, productRepoId⟩
    else none
  | _, _, _, _ => none

def selectRecord (lineNumber : Nat) (record : Json) (selected : List Selection) : Outcome (List Selection) :=
  match record with
  | .obj fields =>
    if Dict.get fields "namespace" ≠ .str "traust_ledger" then return selected
    else match Dict.get fields "decision" with
      | .arr _ | .obj _ => .error .typeError
      | decision =>
        if decision ∈ [.str "selected", .str "delegated"] then
          match selectionOf fields with
          | none => .error (.valueError ("Invalid Ledger selection at manifest line " ++ toString lineNumber))
          | some selection => do
            require (selection.layerId ∉ selected.map (fun past => past.layerId) ∧
                selection.sourceFile ∉ selected.map fun past => past.sourceFile)
              (.valueError ("Duplicate Ledger selection at manifest line " ++ toString lineNumber))
            return selected ++ [selection]
        else return selected
  | _ => .error (.valueError ("Invalid selection at manifest line " ++ toString lineNumber))

namespace ManifestEnv

variable (env : ManifestEnv) (tree : SourceTree)

def loadLine (line : String) : Outcome Json :=
  match env.loads line with
  | .ok record => .ok record
  | .error detail => .error (.valueError detail)

def readManifest (lineNumber : Nat) (selected : List Selection) : List String → Outcome (List Selection)
  | [] => return selected
  | line :: lines => do
    let record ← env.loadLine line
    let selected ← selectRecord lineNumber record selected
    readManifest (lineNumber + 1) selected lines

end ManifestEnv

namespace SourceTree

variable (tree : SourceTree)

def meetsSymlink (current : List (List Char)) : List (List Char) → Outcome Bool
  | [] => return false
  | part :: parts => do
    if ← tree.isSymlink (current ++ [part]) then return true
    else meetsSymlink (current ++ [part]) parts

def read (place : List (List Char)) : Except String Bytes :=
  match tree.entry place with
  | some (.file content) => .ok content
  | some (.special (some content)) => .ok content
  | _ => .error (tree.osError place)

end SourceTree

def PurePath.isRelativeTo (path other : PurePath) : Bool :=
  path.root == other.root && other.parts.isPrefixOf path.parts

def Selection.place (selection : Selection) : List (List Char) := (parsePath (chars selection.sourceFile)).parts

namespace ManifestEnv

variable (env : ManifestEnv) (tree : SourceTree)

def sourcePath (selection : Selection) : PurePath := tree.root.join (chars selection.sourceFile)

def document (payload : Bytes) (source : String) : Except String Document :=
  match env.decode payload with
  | .error detail => .error detail
  | .ok (.obj fields) => .ok ⟨Dict.ofList fields, Dict.ordered_ofList fields⟩
  | .ok _ => .error (source ++ ": layer document must be an object")

/-- The checks on the path, which nothing guards: the error that is reported, if any. -/
def lookAt (selection : Selection) : Outcome (Option String) := do
  let path := sourcePath tree selection
  if ← tree.meetsSymlink [] (path.parts.drop tree.root.parts.length) then
    return some "symlink alias is not a source file"
  else
    let resolved ← tree.resolve path
    return if resolved.isRelativeTo tree.root then none else some "path escapes source directory"

def readSource (selection : Selection) : Except String Document :=
  let path := sourcePath tree selection
  match tree.read (path.parts.drop tree.root.parts.length) with
  | .error detail => .error ("invalid layer document: " ++ detail)
  | .ok payload =>
    if hexDigest env.hash payload ≠ selection.digest then .error "source digest changed since selection"
    else match env.document payload (String.ofList path.text) with
      | .error detail => .error ("invalid layer document: " ++ detail)
      | .ok document => .ok document

def loadSource (selection : Selection) : Outcome (Except String Document) := do
  match ← lookAt tree selection with
  | some detail => return .error detail
  | none => return env.readSource tree selection

def sourceLayer (selection : Selection) : Outcome SourceLayer := do
  let source := String.ofList (sourcePath tree selection).text
  match ← env.loadSource tree selection with
  | .ok document => return ⟨selection.layerId, document, source, none, selection.productRepoId⟩
  | .error detail => return ⟨selection.layerId, ⟨[], List.Pairwise.nil⟩, source, some detail, none⟩

/-- The results in the order they are yielded, and the error that ends the generator before its last selection. -/
def yieldLayers : List Selection → List SourceLayer × Option Failure
  | [] => ([], none)
  | selection :: later =>
    match env.sourceLayer tree selection with
    | .error failure => ([], some failure)
    | .ok layer => (layer :: (yieldLayers later).1, (yieldLayers later).2)

def iterManifestLayers (lines : List String) : List SourceLayer × Option Failure :=
  match env.readManifest 1 [] lines with
  | .error failure => ([], some failure)
  | .ok [] => ([], some (.valueError "No selected Ledger layers in manifest"))
  | .ok selected => env.yieldLayers tree selected

end ManifestEnv

end LedgerModel
