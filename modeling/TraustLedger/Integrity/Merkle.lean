import TraustLedger.Library.MerkleConsistency
import TraustLedger.Errors

namespace LedgerModel

open Hashing MerkleTree Python

variable (H : HashFunction)

def leafPrefix : Bytes := [0x00]
def nodePrefix : Bytes := [0x01]

def leafHash (data : Bytes) : Bytes := H.digest (leafPrefix ++ data)

def nodeHash (left right : Bytes) : Bytes := H.digest (nodePrefix ++ left ++ right)

def mthFromLeafHashes (leafHashes : List Bytes) : Bytes := root (nodeHash H) (H.digest []) leafHashes

def computeRoot (entries : List Bytes) : Bytes := mthFromLeafHashes H (entries.map (leafHash H))

inductive ProofError where
  | indexError (index : Int) (entries : Nat)
  | valueError (oldSize : Int) (newSize : Nat)
  deriving DecidableEq

def ProofError.message : ProofError → String
  | .indexError index entries => s!"index {index} out of range for {entries} entries"
  | .valueError oldSize newSize =>
    s!"require 0 <= old_size <= len(entries); got {oldSize}/{newSize}"

def inclusionProof (entries : List Bytes) (index : Int) : Except ProofError (List Bytes) :=
  if 0 ≤ index ∧ index < entries.length then
    .ok (path (nodeHash H) (H.digest []) (entries.map (leafHash H)) index.toNat)
  else .error (.indexError index entries.length)

def verifyInclusion (root entry : Bytes) (index treeSize : Int) (proof : List Bytes) : Bool :=
  if 0 ≤ index ∧ index < treeSize then
    if treeSize = 1 then proof.isEmpty && leafHash H entry == root
    else
      let isLeft := turns index.toNat treeSize.toNat
      if isLeft.length ≠ proof.length then false
      else climb (nodeHash H) (leafHash H entry) (isLeft.reverse.zip proof) == root
  else false

def consistencyProof (entries : List Bytes) (oldSize : Int) : Except ProofError (List Bytes) :=
  if 0 ≤ oldSize ∧ oldSize ≤ entries.length then
    if oldSize = 0 ∨ oldSize = entries.length then .ok []
    else .ok (subproof (nodeHash H) (H.digest []) oldSize.toNat (entries.map (leafHash H)) true)
  else .error (.valueError oldSize entries.length)

/-- The `for node in nodes[1:]` loop; `none` is its `return False`. -/
def consistencyLoop : List Bytes → Nat → Nat → Bytes → Bytes → Option (Nat × Bytes × Bytes)
  | [], _, sn, firstRoot, secondRoot => some (sn, firstRoot, secondRoot)
  | node :: nodes, fn, sn, firstRoot, secondRoot =>
    if sn = 0 then none
    else if fn % 2 = 1 ∨ fn = sn then
      let shifted := shiftWhileEven fn sn
      consistencyLoop nodes (shifted.1 / 2) (shifted.2 / 2) (nodeHash H node firstRoot)
        (nodeHash H node secondRoot)
    else consistencyLoop nodes (fn / 2) (sn / 2) firstRoot (nodeHash H secondRoot node)

def verifyConsistency (oldRoot newRoot : Bytes) (oldSize newSize : Int) (proof : List Bytes) : Bool :=
  if oldSize < 0 ∨ newSize < 0 ∨ oldSize > newSize then false
  else if oldSize = 0 then proof.isEmpty
  else if oldSize = newSize then proof.isEmpty && oldRoot == newRoot
  else
    let m := oldSize.toNat
    let nodes := if m &&& (m - 1) = 0 then oldRoot :: proof else proof
    match nodes with
    | [] => false
    | seed :: siblings =>
      let start := shiftWhileOdd (m - 1) (newSize.toNat - 1)
      match consistencyLoop H siblings start.1 start.2 seed seed with
      | none => false
      | some (sn, firstRoot, secondRoot) => sn == 0 && firstRoot == oldRoot && secondRoot == newRoot

def leafFormatCurrent : Int := 2

def hexDigest (data : Bytes) : String := hex (H.digest data)

def computePreEpochCheckpoint (events : List Dict) : String :=
  hexDigest H (dumps true (.arr (events.map .obj)))

def isMerkleKey (key : String) : Bool := (chars "merkle_").isPrefixOf (chars key)

def scrubbed (event : Dict) : Dict := event.filter fun entry => !isMerkleKey entry.1

def canonicalEventBytes (event : Dict) : Bytes := dumps false (.obj (scrubbed event))

def eventIdBytes (event : Dict) : Outcome Bytes :=
  match event.lookup "event_id" with
  | some (.str id) => .ok (utf8 (chars id))
  | some _ => .error .attributeError
  | none => .error (.keyError "event_id")

def computeMerkleRoot (events : List Dict) (leafFormat : Int) : Outcome (String × Nat) := do
  let entries ←
    if leafFormat = 1 then events.mapM eventIdBytes
    else if leafFormat = 2 then .ok (events.map canonicalEventBytes)
    else .error (.valueError ("unknown merkle leaf_format: " ++ toString leafFormat))
  return (hex (computeRoot H entries), entries.length)

end LedgerModel
