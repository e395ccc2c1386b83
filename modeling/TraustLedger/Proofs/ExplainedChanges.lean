import TraustLedger.Proofs.EntryProofs
import TraustLedger.Proofs.ReferenceEnv

namespace LedgerProof

open Hashing Python Runs Sha256 LedgerModel

variable {env : Env}

def RecordsEntry (before value : Json) : Option String → Prop
  | some key => ∃ recorded, entriesOf before key = some recorded ∧ Json.pyEq recorded value = true
  | none => Json.pyEq before value = true

/-- A restatement event that says which value an entry was moved from, by whom and on what authority. -/
structure Explains (entry : Entry) (value : Json) (event : Dict) : Prop where
  restates : isRestatement event = .ok true
  target : (restatementBlock event).get "target" = .str entry.field
  before : RecordsEntry ((restatementBlock event).get "before") value entry.key
  human : isVerifiedHuman (actorOf event) = true
  ticket : ticketed (ticketOf (restatementBlock event)) = true

/-- Every entry that lost its value between two layers is explained by an event appended between them. -/
def Explained (layer next : Layer) : Prop :=
  ∀ entry value, heldAt layer entry = some value → Lost value (heldAt next entry) →
    ∃ event, next.events = layer.events ++ [event] ∧ Explains entry value event

def NamesEntry (before : Json) : Option String → Prop
  | some key => ∃ recorded, entriesOf before key = some recorded
  | none => True

/-- A restatement names in `before` every stored entry that its `after` takes away or overwrites, and
    the log holds no event under the id it is given. -/
def RecordsWhatItMoves (env : Env) (layer : Layer) : Call → Prop
  | .restate _ _ block _ actor recordedAt => ∀ entry value, block.get "target" = .str entry.field →
      heldAt layer entry = some value →
      Lost value (entryIn (mergeDelta (layer.metadata.get entry.field) (block.get "after")) entry.key) →
      NamesEntry (block.get "before") entry.key ∧
        holdsId layer.events (restatementId env.hash block actor recordedAt) = false
  | _ => True

theorem Explained.of_kept {layer next : Layer}
    (kept : ∀ entry value, heldAt layer entry = some value →
      ∃ now, heldAt next entry = some now ∧ Json.pyEq now value = true) : Explained layer next := by
  intro entry value held lost
  obtain ⟨now, stored, same⟩ := kept entry value held
  rw [lost now stored] at same
  cases same

section Restated

variable {block : Dict} {actor : LayerActor} {recordedAt target : String} {event : Dict} {layer next : Layer}
  (effect : RestateEffect env block actor recordedAt target event layer next)

include effect

theorem RestateEffect.records_iff (valid : env.contracts.validateLayer layer = true) {entry : Entry} {value : Json}
    (same : entry.field = target) (held : heldAt layer entry = some value) :
    RecordsEntry (block.get "before") value entry.key ↔ NamesEntry (block.get "before") entry.key := by
  unfold heldAt at held
  cases whole : entry.key with
  | none =>
    refine ⟨fun _ => trivial, fun _ => ?_⟩
    rw [whole] at held
    obtain ⟨-, rfl⟩ := entryIn_none_some held
    rw [same]
    exact effect.freshWhole (same ▸ Entry.whole_flat whole valid)
  | some key =>
    constructor
    · rintro ⟨recorded, named, -⟩
      exact ⟨recorded, named⟩
    · rintro ⟨recorded, named⟩
      rw [whole] at held
      obtain ⟨fields, isMap, found⟩ := entriesOf_some held
      obtain ⟨before, isBefore, lookup⟩ := entriesOf_some named
      have fresh := effect.freshEntry before fields isBefore (same ▸ isMap) key recorded lookup
      rw [Dict.get_eq_of_lookup found] at fresh
      exact ⟨recorded, named, Json.pyEq_symm fresh⟩

theorem RestateEffect.explains_iff (valid : env.contracts.validateLayer layer = true) {entry : Entry} {value : Json}
    (same : entry.field = target) (held : heldAt layer entry = some value) :
    (∃ appended, next.events = layer.events ++ [appended] ∧ Explains entry value appended) ↔
      NamesEntry (block.get "before") entry.key ∧
        holdsId layer.events (restatementId env.hash block actor recordedAt) = false := by
  rw [← effect.records_iff valid same held]
  constructor
  · rintro ⟨appended, grown, explains⟩
    obtain ⟨fresh, rfl⟩ := effect.appended_iff.mp grown
    exact ⟨effect.recorded.before ▸ explains.before, fresh⟩
  · rintro ⟨recorded, fresh⟩
    refine ⟨event, effect.appended_iff.mpr ⟨fresh, rfl⟩, effect.recorded.restates, ?_, ?_, ?_, ?_⟩
    · rw [effect.recorded.target, effect.blockTarget, same]
    · rw [effect.recorded.before]
      exact recorded
    · rw [effect.recorded.actor]
      exact isVerifiedHuman_actorToDict effect.human
    · rw [effect.recorded.ticket]
      exact effect.ticket

end Restated

/-- Signed metadata changes are explained in the log exactly when every restatement records what it
    moves: in any layer the system can hold, and for any next call through any door. -/
theorem explained_iff_records {layer next : Layer} {call : Call} (reachable : Reachable env layer)
    (accepted : step env layer call = .ok next) : Explained layer next ↔ RecordsWhatItMoves env layer call := by
  have valid := reachable_valid reachable
  rcases step_cases accepted with ⟨moment, layerId, block, rationale, actor, recordedAt, target, event, rfl, effect⟩ |
    ⟨moment, layerId, updates, rfl, effect⟩ | ⟨other, effect⟩
  · constructor
    · intro explained entry value targeted held lost
      have same : entry.field = target := by
        rw [effect.blockTarget, Json.str.injEq] at targeted
        exact targeted.symm
      refine (effect.explains_iff valid same held).mp (explained entry value held ?_)
      rw [effect.held_next, if_pos same]
      exact lost
    · intro records entry value held lost
      rw [effect.held_next] at lost
      split at lost
      · next same =>
        exact (effect.explains_iff valid same held).mpr
          (records entry value (by rw [effect.blockTarget, same]) held lost)
      · rw [held] at lost
        exact absurd lost (not_lost_self value)
  · exact ⟨fun _ => trivial, fun _ => Explained.of_kept fun entry value held => effect.keeps valid held⟩
  · have kept : Explained layer next := by
      refine Explained.of_kept fun entry value held => ⟨value, ?_, Json.pyEq_self value⟩
      rw [heldAt, effect.metadata _ entry.field_signed]
      exact held
    refine ⟨fun _ => ?_, fun _ => kept⟩
    cases call with
    | restate => cases other
    | _ => trivial

theorem moveOne_records : RecordsWhatItMoves referenceEnv oneClaim (restateCall moveOne) := by
  intro entry value targeted held lost
  refine ⟨?_, rfl⟩
  cases entry with
  | claimHash key =>
    by_cases same : key = "FIND-1"
    · subst same
      exact ⟨.str "a", rfl⟩
    · have absent : heldAt oneClaim (.claimHash key) = none := by
        show List.lookup key [("FIND-1", Json.str "a")] = none
        rw [Dict.lookup_cons_ite, if_neg same]
        rfl
      rw [absent] at held
      cases held
  | artifactDigest key =>
    have fields : "claim_hashes" = "artifact_digests" := Json.str.inj targeted
    exact absurd fields (by decide)
  | auditReport => trivial

theorem explained_moveOne : ∃ next, step referenceEnv oneClaim (restateCall moveOne) = .ok next ∧
    Reachable referenceEnv oneClaim ∧ Explained oneClaim next := by
  obtain ⟨next, accepted⟩ := exists_of_isOk moveOne_accepted
  exact ⟨next, accepted, oneClaim_reachable, (explained_iff_records oneClaim_reachable accepted).mpr moveOne_records⟩

def twoClaims : Layer := claimShell [("FIND-1", .str "a"), ("FIND-2", .str "b")]

def moveBoth : Dict := claimBlock [("FIND-1", .str "a")] [("FIND-1", .str "c"), ("FIND-2", .str "d")]

theorem moveBoth_unexplained : ∃ next, step referenceEnv twoClaims (restateCall moveBoth) = .ok next ∧
    Reachable referenceEnv twoClaims ∧ ¬ Explained twoClaims next := by
  have reachable : Reachable referenceEnv twoClaims := reachable_shell rfl
  have isOk : (step referenceEnv twoClaims (restateCall moveBoth)).isOk = true := by decide +kernel
  obtain ⟨next, accepted⟩ := exists_of_isOk isOk
  refine ⟨next, accepted, reachable, fun explained => ?_⟩
  obtain ⟨receipt, applied⟩ := map_fst_ok accepted
  obtain ⟨target, event, effect⟩ := applyRestatement_ok applied
  have same : Entry.field (.claimHash "FIND-2") = target := Json.str.inj effect.blockTarget
  have held : heldAt twoClaims (.claimHash "FIND-2") = some (.str "b") := rfl
  have lost : Lost (.str "b") (heldAt next (.claimHash "FIND-2")) := by
    rw [effect.held_next, if_pos same]
    intro now stored
    cases stored
    rfl
  obtain ⟨⟨recorded, named⟩, -⟩ :=
    (effect.explains_iff (reachable_valid reachable) same held).mp (explained _ _ held lost)
  cases named

/-- A restatement that moved a signed field moved the one it names, and is the one event the log grew
    by exactly when its id is new there. -/
theorem recorded_iff_new_id {layer next : Layer} {moment : Moment} {layerId rationale recordedAt : String}
    {block : Dict} {actor : LayerActor} {field : String}
    (accepted : step env layer (.restate moment layerId block rationale actor recordedAt) = .ok next)
    (signed : field ∈ signedMetadataFields) (changed : next.metadata.get field ≠ layer.metadata.get field) :
    block.get "target" = .str field ∧
      ((∃ event, next.events = layer.events ++ [event] ∧ RecordedAs env block actor event) ↔
        holdsId layer.events (restatementId env.hash block actor recordedAt) = false) := by
  obtain ⟨receipt, applied⟩ := map_fst_ok accepted
  obtain ⟨target, event, effect⟩ := applyRestatement_ok applied
  have same : field = target := by
    by_contra other
    rw [effect.metadata field signed, if_neg other] at changed
    exact changed rfl
  refine ⟨same ▸ effect.blockTarget, ?_, fun fresh => ?_⟩
  · rintro ⟨appended, grown, -⟩
    exact (effect.appended_iff.mp grown).1
  · exact ⟨event, effect.appended_iff.mpr ⟨fresh, rfl⟩, effect.recorded⟩

theorem recorded_moveOne : ∃ next, step referenceEnv oneClaim (restateCall moveOne) = .ok next ∧
    next.metadata.get "claim_hashes" ≠ oneClaim.metadata.get "claim_hashes" ∧
    ∃ event, next.events = oneClaim.events ++ [event] ∧ RecordedAs referenceEnv moveOne verifiedAdmin event := by
  obtain ⟨next, accepted⟩ := exists_of_isOk moveOne_accepted
  have changed : next.metadata.get "claim_hashes" ≠ oneClaim.metadata.get "claim_hashes" := by
    obtain ⟨receipt, applied⟩ := map_fst_ok accepted
    obtain ⟨target, event, effect⟩ := applyRestatement_ok applied
    have same : "claim_hashes" = target := Json.str.inj effect.blockTarget
    rw [effect.metadata _ (by decide), if_pos same, ← same]
    decide
  exact ⟨next, accepted, changed, (recorded_iff_new_id accepted (by decide) changed).2.mpr rfl⟩

def plantedEvent (block : Dict) : Dict :=
  [("finding_ref", .str layerScopeRef), ("source", .obj [("ref", .str (restatementSourceRef sha256 block
    "admin@example.com" sampleInstant)), ("type", .str "scan_report")])]

def plantCall (block : Dict) : Call :=
  .submitBatch unsigned "acme" ⟨"scan", sampleInstant, [plantedEvent block], []⟩ scannerAccount

/-- A batch event that took the restatement's id first: the field moves and the log stays as it was. -/
theorem moveOne_unrecorded : ∃ planted next, step referenceEnv oneClaim (plantCall moveOne) = .ok planted ∧
    Reachable referenceEnv planted ∧ step referenceEnv planted (restateCall moveOne) = .ok next ∧
    planted.metadata.get "claim_hashes" = .obj [("FIND-1", .str "a")] ∧
    next.metadata.get "claim_hashes" = .obj [("FIND-1", .str "c")] ∧ next.events = planted.events := by
  have both : okAnd (step referenceEnv oneClaim (plantCall moveOne)) (fun planted =>
      (step referenceEnv planted (restateCall moveOne)).isOk &&
        holdsId planted.events (restatementId sha256 moveOne verifiedAdmin sampleInstant)) = true := by decide +kernel
  obtain ⟨planted, plant, both⟩ := okAnd_iff.mp both
  rw [Bool.and_eq_true] at both
  obtain ⟨next, accepted⟩ := exists_of_isOk both.1
  have kept : planted.metadata.get "claim_hashes" = .obj [("FIND-1", .str "a")] := by
    obtain ⟨receipt, submitted⟩ := map_fst_ok plant
    exact (submitBatch_ok submitted).metadata _ (by decide)
  obtain ⟨receipt, applied⟩ := map_fst_ok accepted
  obtain ⟨target, event, effect⟩ := applyRestatement_ok applied
  have same : "claim_hashes" = target := Json.str.inj effect.blockTarget
  have standard : referenceEnv.hash = sha256 := rfl
  refine ⟨planted, next, plant, ⟨"acme", oneClaim, oneClaim, [plantCall moveOne], rfl, attempt_ok plant⟩,
    accepted, kept, ?_, ?_⟩
  · rw [effect.metadata _ (by decide), if_pos same, ← same, kept]
    rfl
  · rw [effect.events, standard, if_pos both.2]

end LedgerProof
