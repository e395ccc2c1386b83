import TraustLedger.Proofs.FinalizedLayers
import TraustLedger.Proofs.PinnedEntries

namespace LedgerProof

open Hashing Python Runs Sha256 LedgerModel

variable {H : HashFunction}

def Stampable (layer : Layer) : Prop :=
  (rawEpoch layer).pyInt = some (epochOf layer : Int) ∧
    (layer.events = [] → epochOf layer = 0) ∧ (layer.events ≠ [] → epochOf layer < layer.events.length)

theorem toInt_of_pyInt {value : Json} {n : Int} (converted : value.pyInt = some n) : toInt value = .ok n := by
  simp [toInt, converted]

theorem requireStampableEpoch_of {epoch count : Nat} (emptyLog : count = 0 → epoch = 0)
    (insideLog : count ≠ 0 → epoch < count) : requireStampableEpoch epoch count = .ok () := by
  unfold requireStampableEpoch
  refine bind_ok_iff.mpr ⟨(), require_ok_iff.mpr (by omega), ?_⟩
  split
  · next empty => exact require_ok_iff.mpr (by simp [emptyLog empty])
  · next held =>
    have inside := insideLog held
    exact require_ok_iff.mpr (by omega)

theorem stamp_ok_iff {layer : Layer} :
    (∃ stamped dropped, stampMerkleMetadata H layer = .ok (stamped, dropped)) ↔ Stampable layer := by
  constructor
  · intro given
    rcases given with ⟨stamped, dropped, accepted⟩
    rcases stampMerkleMetadata_ok accepted with ⟨converted, empty, inside, -⟩
    exact ⟨converted, fun none => empty (by simp [none]), fun some => inside (by simpa using some)⟩
  · intro given
    rcases given with ⟨converted, empty, inside⟩
    have raw : (layer.metadata.setDefault "merkle_epoch" (.int 0)).get "merkle_epoch" = rawEpoch layer := by
      simp [get_setDefault, rawEpoch]
    have range : requireStampableEpoch (epochOf layer) layer.events.length = .ok () :=
      requireStampableEpoch_of (fun none => empty (List.length_eq_zero_iff.mp none))
        (fun some => inside (fun none => some (by simp [none])))
    unfold stampMerkleMetadata
    simp only [raw, toInt_of_pyInt converted, bind, Except.bind, range, computeMerkleRoot_current]
    split
    · exact ⟨_, true, rfl⟩
    · exact ⟨_, false, rfl⟩

def VerifiesCleanly (H : HashFunction) (layer : Layer) : Prop :=
  ∃ findings, verifyMerkleIntegrity H layer = .ok findings ∧ ∀ finding ∈ findings, finding.severity ≠ .error

theorem severity_verifyRestatedMetadata {layer : Layer} {findings : List IntegrityFinding}
    (verified : verifyRestatedMetadata layer = .ok findings) :
    ∀ finding ∈ findings, finding.severity = .error := by
  rcases bind_ok_iff.mp verified with ⟨parts, walked, joined⟩
  cases joined
  intro finding member
  rcases List.mem_flatten.mp member with ⟨part, held, inside⟩
  rcases mem_of_mapM walked held with ⟨field, -, computed⟩
  rcases bind_ok_iff.mp computed with ⟨terminal, -, reported⟩
  cases reported
  exact severity_restatedFindings inside

theorem severity_recomputedFindings {layer : Layer} {epoch leafFormat : Int} {findings : List IntegrityFinding}
    (verified : recomputedFindings H layer epoch leafFormat = .ok findings) :
    ∀ finding ∈ findings, finding.severity = .error := by
  unfold recomputedFindings at verified
  rcases bind_ok_iff.mp verified with ⟨⟨root, size⟩, -, verified⟩
  rcases bind_ok_iff.mp verified with ⟨restated, chains, verified⟩
  cases verified
  intro finding member
  simp only [List.mem_append] at member
  rcases member with (((legacy | roots) | sizes) | checkpoints) | drifted
  · split at legacy
    · rw [List.mem_singleton.mp legacy]
      rfl
    · cases legacy
  · unfold rootFindings at roots
    split at roots
    · cases roots
    · rw [List.mem_singleton.mp roots]
  · unfold sizeFindings at sizes
    split at sizes
    · cases sizes
    · rw [List.mem_singleton.mp sizes]
  · unfold checkpointFindings at checkpoints
    split_ifs at checkpoints
    all_goals simp only [List.mem_singleton, List.not_mem_nil] at checkpoints
    all_goals rw [checkpoints]
  · exact severity_verifyRestatedMetadata chains finding drifted

theorem severity_verifyMerkleIntegrity {layer : Layer} {findings : List IntegrityFinding}
    (verified : verifyMerkleIntegrity H layer = .ok findings) : ∀ finding ∈ findings, finding.severity = .error := by
  unfold verifyMerkleIntegrity at verified
  split at verified
  · cases verified
    simp [rootAbsent]
  rcases bind_ok_iff.mp verified with ⟨epoch, -, verified⟩
  split at verified
  · cases verified
    simp
  split at verified
  · cases verified
    simp
  split at verified
  · cases verified
    simp
  simp only at verified
  split at verified
  · cases verified
    simp
  exact severity_recomputedFindings verified

theorem verifiesCleanly_iff {layer : Layer} :
    VerifiesCleanly H layer ↔ verifyMerkleIntegrity H layer = .ok [] := by
  constructor
  · intro given
    rcases given with ⟨findings, verified, none⟩
    cases findings with
    | nil => exact verified
    | cons first rest =>
      exact absurd (severity_verifyMerkleIntegrity verified first List.mem_cons_self) (none first List.mem_cons_self)
  · intro clean
    exact ⟨[], clean, by simp⟩

/-- What verifier, stamper and epoch gate owe each other on one layer. -/
structure ChecksAgree (H : HashFunction) (layer : Layer) : Prop where
  verified : VerifiesCleanly H layer → ∃ stamped, stampMerkleMetadata H layer = .ok (stamped, false) ∧
    stamped.metadata.get "merkle_root" = layer.metadata.get "merkle_root" ∧
    ∀ key ∈ signatureKeys, stamped.metadata.get key = layer.metadata.get key
  stamped : ∀ stamped dropped, stampMerkleMetadata H layer = .ok (stamped, dropped) →
    verifyMerkleIntegrity H stamped = verifyRestatedMetadata stamped
  gated : requireValidEpoch layer = .ok () → ∀ event, ∃ stamped dropped,
    stampMerkleMetadata H { layer with events := layer.events ++ [event] } = .ok (stamped, dropped)

theorem get_stamped_kept {layer stamped : Layer} (accepted : stampMerkleMetadata H layer = .ok (stamped, false))
    {key : String} (signature : key ∈ signatureKeys) : stamped.metadata.get key = layer.metadata.get key := by
  rcases stampMerkleMetadata_ok accepted with ⟨-, -, -, rfl, -⟩
  have away : key ≠ "merkle_root" ∧ key ≠ "merkle_size" ∧ key ≠ "merkle_algorithm" ∧ key ≠ "leaf_format" ∧
      key ≠ "pre_merkle_checkpoint" ∧ key ≠ "merkle_epoch" := by
    simp only [signatureKeys, List.mem_cons, List.not_mem_nil, or_false] at signature
    rcases signature with rfl | rfl | rfl <;> decide
  rcases away with ⟨notRoot, notSize, notAlgorithm, notFormat, notCheckpoint, notEpoch⟩
  simp only [Bool.false_eq_true, if_false, stampedMetadata, withRoot, Dict.get_set, notRoot, notSize, notAlgorithm,
    notFormat]
  rw [get_withCheckpoint _ _ _ notCheckpoint, get_setDefault, if_neg notEpoch]

theorem stamp_of_clean {layer : Layer} (clean : verifyMerkleIntegrity H layer = .ok [])
    (emptyLog : layer.events = [] → epochOf layer = 0) :
    ∃ stamped, stampMerkleMetadata H layer = .ok (stamped, false) ∧
      stamped.metadata.get "merkle_root" = layer.metadata.get "merkle_root" ∧
      ∀ key ∈ signatureKeys, stamped.metadata.get key = layer.metadata.get key := by
  rcases verifyMerkleIntegrity_clean clean with ⟨converted, inside, declared, -⟩
  have range : Stampable layer := ⟨converted, emptyLog, fun held => inside (List.length_pos_iff.mpr held)⟩
  rcases (stamp_ok_iff (H := H)).mpr range with ⟨stamped, dropped, accepted⟩
  have kept : dropped = false := by
    by_contra moved
    rcases (stampMerkleMetadata_ok accepted).2.2.2.2.mp (by simpa using moved) with ⟨-, differs⟩
    rw [declared, Json.pyEq_self] at differs
    cases differs
  subst kept
  exact ⟨stamped, accepted, by rw [root_stamped accepted, declared], fun key => get_stamped_kept accepted⟩

theorem rawEpoch_snoc (layer : Layer) (event : Dict) :
    rawEpoch { layer with events := layer.events ++ [event] } = rawEpoch layer := rfl

theorem epochOf_snoc (layer : Layer) (event : Dict) :
    epochOf { layer with events := layer.events ++ [event] } = epochOf layer := rfl

theorem stampable_snoc_iff {layer : Layer} {event : Dict} :
    Stampable { layer with events := layer.events ++ [event] } ↔
      (rawEpoch layer).pyInt = some (epochOf layer : Int) ∧ epochOf layer ≤ layer.events.length := by
  have last : epochOf layer < layer.events.length + 1 ↔ epochOf layer ≤ layer.events.length := Nat.lt_succ_iff
  simp only [Stampable, rawEpoch_snoc, epochOf_snoc, List.append_eq_nil_iff, List.cons_ne_nil, and_false,
    false_implies, true_and, ne_eq, not_false_eq_true, true_implies, List.length_append, List.length_singleton, last]

theorem requireValidEpoch_ok {layer : Layer} (held : layer.events ≠ [])
    (accepted : requireValidEpoch layer = .ok ()) :
    (rawEpoch layer).pyInt = some (epochOf layer : Int) ∧ epochOf layer ≤ layer.events.length := by
  unfold requireValidEpoch at accepted
  rw [if_neg (by simpa using held)] at accepted
  rcases bind_ok_iff.mp accepted with ⟨_, present, accepted⟩
  rcases bind_ok_iff.mp accepted with ⟨epoch, converted, accepted⟩
  rw [require_ok_iff] at present accepted
  have raw : rawEpoch layer = layer.metadata.get "merkle_epoch" := getD_eq_get present
  have known := toInt_ok converted
  have natural : (epochOf layer : Int) = epoch := by
    simp only [epochOf, raw, known, Option.getD_some]
    exact Int.toNat_of_nonneg accepted.1
  rw [raw, natural]
  exact ⟨known, by omega⟩

/-- The three checks agree on every log that holds an event; on an empty one they agree exactly when the
    epoch is zero, because the verifier and the gate skip the range check there and the stamper does not. -/
theorem epoch_checks_agree_iff (H : HashFunction) (layer : Layer) :
    ChecksAgree H layer ↔ layer.events ≠ [] ∨ toInt (rawEpoch layer) = .ok 0 := by
  have zero_iff : toInt (rawEpoch layer) = .ok 0 ↔
      (rawEpoch layer).pyInt = some (epochOf layer : Int) ∧ epochOf layer = 0 := by
    constructor
    · intro converted
      have known := toInt_ok converted
      simp [epochOf, known]
    · intro given
      rcases given with ⟨known, zero⟩
      rw [zero] at known
      exact toInt_of_pyInt known
  constructor
  · intro agree
    by_contra broken
    rw [not_or, not_not] at broken
    rcases broken with ⟨empty, moved⟩
    have accepted : requireValidEpoch layer = .ok () := by simp [requireValidEpoch, empty, pure, Except.pure]
    have range := stampable_snoc_iff.mp (stamp_ok_iff.mp (agree.gated accepted []))
    rw [empty, List.length_nil, Nat.le_zero] at range
    exact moved (zero_iff.mpr range)
  · intro condition
    have emptyLog : layer.events = [] → (rawEpoch layer).pyInt = some (epochOf layer : Int) ∧ epochOf layer = 0 :=
      fun empty => zero_iff.mp (condition.resolve_left (fun held => held empty))
    refine ⟨fun clean => ?_, fun stamped dropped accepted => ?_, fun accepted event => ?_⟩
    · exact stamp_of_clean (verifiesCleanly_iff.mp clean) fun empty => (emptyLog empty).2
    · exact (stamped_of_stamp accepted).verifies
    · apply stamp_ok_iff.mpr
      rw [stampable_snoc_iff]
      by_cases empty : layer.events = []
      · rcases emptyLog empty with ⟨known, zero⟩
        exact ⟨known, by omega⟩
      · exact requireValidEpoch_ok empty accepted

def truncatedLayer : Layer :=
  ⟨Dict.ofList [("merkle_epoch", .int 3), ("merkle_root", .str (hex (computeRoot sha256 []))),
    ("merkle_size", .int 0), ("leaf_format", .int leafFormatCurrent),
    ("pre_merkle_checkpoint", .str (computePreEpochCheckpoint sha256 []))], [], []⟩

theorem truncated_verifies_unstampable :
    verifyMerkleIntegrity sha256 truncatedLayer = .ok [] ∧
      requireValidEpoch truncatedLayer = .ok () ∧
      (stampMerkleMetadata sha256 truncatedLayer).isOk = false ∧
      (stampMerkleMetadata sha256 { truncatedLayer with events := [[("event_id", .str "e4")]] }).isOk = false ∧
      ¬ ChecksAgree sha256 truncatedLayer := by
  have clean : verifyMerkleIntegrity sha256 truncatedLayer = .ok [] := by decide +kernel
  have refused : (stampMerkleMetadata sha256 truncatedLayer).isOk = false := by decide +kernel
  refine ⟨clean, rfl, refused, by decide +kernel, fun agree => ?_⟩
  rcases agree.verified ⟨[], clean, by simp⟩ with ⟨stamped, accepted, -⟩
  rw [accepted] at refused
  cases refused

end LedgerProof
