import TraustLedger.Errors

namespace LedgerModel

open Python Runs

/-- `(value or {}).get(...)`: an absent or empty value reads as no fields, any other non-object raises. -/
def orEmpty : Json → Outcome Dict
  | .obj fields => .ok fields
  | value => if value.truthy then .error .attributeError else .ok []

def layerScopeRef : String := "__layer__"

def signedMetadataFields : List String := ["claim_hashes", "audit_report_sha256", "artifact_digests"]

def restatementTargets : List String := signedMetadataFields

def mapTargets : List String := ["claim_hashes", "artifact_digests"]

def applyDelta (current after : Dict) : Dict :=
  after.foldr (fun entry merged =>
    if entry.2 = .null then Dict.remove merged entry.1 else Dict.set merged entry.1 entry.2) current

def mergeDelta : Json → Json → Json
  | .obj current, .obj after => .obj (applyDelta current after)
  | _, after => after

def isBlank (value : Json) : Bool := Json.pyIn value [.null, .obj [], .str ""]

def isDestructiveChange (prior new : Json) : Bool :=
  if isBlank prior then false
  else match prior, new with
    | .obj held, .obj now => (Dict.items held).any fun entry => !Json.pyEq (Dict.get now entry.1) entry.2
    | _, _ => !Json.pyEq new prior

def isRestatement (event : Dict) : Outcome Bool :=
  match event.get "restatement" with
  | .obj _ => do
    let source ← orEmpty (event.get "source")
    return Json.pyEq (source.get "type") (.str "restatement")
  | _ => return false

def restatementBlock (event : Dict) : Dict :=
  match event.get "restatement" with
  | .obj block => block
  | _ => []

def restatements : List Dict → Outcome (List Dict)
  | [] => return []
  | event :: events => do
    let restates ← isRestatement event
    let later ← restatements events
    return if restates then restatementBlock event :: later else later

def restatementsFor (events : List Dict) (target : String) : Outcome (List Dict) := do
  let blocks ← restatements events
  return blocks.filter fun block => Json.pyEq (block.get "target") (.str target)

def retiredBy (key : Option String) (block : Dict) : List Json :=
  match key with
  | none => [block.get "before", block.get "after"]
  | some key =>
    let side (value : Json) : List Json := match value with
      | .obj entries => if Dict.has entries key then [Dict.get entries key] else []
      | _ => []
    side (block.get "before") ++ side (block.get "after")

def retiredValues (events : List Dict) (target : String) (key : Option String) : Outcome (List Json) := do
  let blocks ← restatementsFor events target
  return blocks.flatMap (retiredBy key)

/-- The fold of `terminal_value`: a value that is no object is dropped before the next delta. -/
def replay (blocks : List Dict) : Json :=
  blocks.foldl (fun expected block =>
    mergeDelta (if expected.isObj then expected else .null) (block.get "after")) .null

def terminalValue (events : List Dict) (target : String) : Outcome (Option Json) := do
  let chain ← restatementsFor events target
  return if chain.isEmpty then none else some (replay chain)

end LedgerModel
