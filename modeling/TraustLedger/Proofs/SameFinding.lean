import TraustLedger.Proofs.AliasChains
import TraustLedger.Proofs.TwoPersons

namespace LedgerProof

open Python Runs LedgerModel

def KeepsRefs (contracts : Contracts) : Prop :=
  ∀ event parsed, contracts.parseEvent event = some parsed → event.get "finding_ref" = .str parsed.findingRef

/-- The stored events that the gate looks at for a reference are those of the finding that a new event under it is
    counted in. -/
def SameFinding (contracts : Contracts) (layer : Layer) (aliases : Aliases) (groups : List (Json × List Dict))
    (findingRef : String) : Prop :=
  (attributed aliases (.str findingRef)).truthy = true →
    ∀ event, event ∈ gatedEvents contracts findingRef layer.events ↔
      event ∈ heldUnder groups (attributed aliases (.str findingRef))

def Linked (aliases : Aliases) (findingRef other : String) : Prop :=
  match successor aliases (.str findingRef), successor aliases (.str other) with
  | none, none => False
  | none, some next => next = .str findingRef
  | some last, none => last = .str other
  | some last, some next => next = last

/-- No restatement is about the reference, and an event under another one carries it as its fingerprint exactly
    where aliases link the two. -/
def OneHistory (contracts : Contracts) (layer : Layer) (evidence : List Dict) (aliases : Aliases)
    (findingRef : String) : Prop :=
  (∀ event ∈ layer.events, ∀ parsed, contracts.parseEvent event = some parsed → isRestatement event = .ok true →
    matchesFinding findingRef parsed = false) ∧
  ∀ event ∈ evidence, ∀ parsed, contracts.parseEvent event = some parsed → parsed.findingRef ≠ findingRef →
    (parsed.fingerprint = some findingRef ↔ Linked aliases findingRef parsed.findingRef)

theorem linked_iff {aliases : Aliases} {findingRef other : String} (apart : other ≠ findingRef) :
    Linked aliases findingRef other ↔ attributed aliases (.str other) = attributed aliases (.str findingRef) := by
  unfold Linked attributed
  cases successor aliases (.str findingRef) with
  | none =>
    cases successor aliases (.str other) with
    | none => simp [apart]
    | some next => simp
  | some last =>
    cases successor aliases (.str other) with
    | none => simp [eq_comm]
    | some next => simp

theorem matchesFinding_iff {findingRef : String} (named : findingRef ≠ "") {parsed : ParsedEvent} :
    matchesFinding findingRef parsed = true ↔
      parsed.findingRef = findingRef ∨ parsed.fingerprint = some findingRef := by
  unfold matchesFinding
  cases parsed.fingerprint with
  | none => simp
  | some fingerprint =>
    simp only [Option.getD_some, Bool.or_eq_true, beq_iff_eq, Bool.and_eq_true, bne_iff_ne, Option.some.injEq]
    constructor
    · intro given
      rcases given with same | ⟨-, same⟩
      · exact .inl same
      · exact .inr same
    · intro given
      rcases given with same | rfl
      · exact .inl same
      · exact .inr ⟨named, rfl⟩

theorem KeepsRefs.refOf_eq {contracts : Contracts} (keeps : KeepsRefs contracts) {event : Dict} {parsed : ParsedEvent}
    (read : contracts.parseEvent event = some parsed) : refOf event = .str parsed.findingRef := by
  have kept := keeps event parsed read
  unfold refOf Dict.getD
  unfold Dict.get at kept
  cases found : List.lookup "finding_ref" event with
  | none => simp [found] at kept
  | some value => simpa [found] using kept

theorem mem_gatedEvents {contracts : Contracts} {findingRef : String} {events : List Dict} {event : Dict} :
    event ∈ gatedEvents contracts findingRef events ↔
      event ∈ events ∧ ∃ parsed, contracts.parseEvent event = some parsed ∧ matchesFinding findingRef parsed = true := by
  simp only [gatedEvents, List.mem_filter, Option.any_eq_true]

theorem isRestatement_of_applied {events evidence : List Dict} (applied : applyRestatements events = .ok evidence)
    {event : Dict} (stored : event ∈ events) : ∃ restates, isRestatement event = .ok restates := by
  induction events generalizing evidence with
  | nil => cases stored
  | cons head rest ih =>
    rcases bind_ok_iff.mp applied with ⟨restates, tested, applied⟩
    rcases bind_ok_iff.mp applied with ⟨later, walked, -⟩
    rcases List.mem_cons.mp stored with rfl | member
    · exact ⟨restates, tested⟩
    · exact ih walked member

section History

variable {contracts : Contracts} {layer : Layer} {evidence : List Dict} {aliases : Aliases}
  {groups : List (Json × List Dict)} {findings : List FindingDisposition} {findingRef : String}
  (origin : Resolved contracts layer evidence aliases groups findings) (keeps : KeepsRefs contracts)
  (named : findingRef ≠ "") (live : (attributed aliases (.str findingRef)).truthy = true)

include origin keeps named live

theorem oneHistory_of_same (same : ∀ event, event ∈ gatedEvents contracts findingRef layer.events ↔
      event ∈ heldUnder groups (attributed aliases (.str findingRef))) :
    OneHistory contracts layer evidence aliases findingRef := by
  simp only [origin.mem_held_iff live, mem_gatedEvents, matchesFinding_iff named] at same
  refine ⟨?_, ?_⟩
  · intro event stored parsed read restates
    by_contra matched
    have about := (matchesFinding_iff named).mp (by simpa using matched)
    have member := ((same event).mp ⟨stored, parsed, read, about⟩).1
    have plain := ((applyRestatements_mem origin.applied).mp member).2
    rw [restates] at plain
    cases plain
  · intro event member parsed read apart
    have stored := ((applyRestatements_mem origin.applied).mp member).1
    rw [linked_iff apart, ← keeps.refOf_eq read]
    constructor
    · intro fingerprint
      exact ((same event).mp ⟨stored, parsed, read, .inr fingerprint⟩).2
    · intro target
      rcases (same event).mpr ⟨member, target⟩ with ⟨-, again, reread, about⟩
      cases read.symm.trans reread
      exact about.resolve_left apart

theorem held_of_gated (history : OneHistory contracts layer evidence aliases findingRef) {event : Dict}
    (gated : event ∈ gatedEvents contracts findingRef layer.events) :
    event ∈ heldUnder groups (attributed aliases (.str findingRef)) := by
  rcases mem_gatedEvents.mp gated with ⟨stored, parsed, read, about⟩
  rcases isRestatement_of_applied origin.applied stored with ⟨restates, tested⟩
  have evidential : isRestatement event = .ok false := by
    cases restates with
    | false => exact tested
    | true =>
      have unmatched := history.1 event stored parsed read tested
      rw [about] at unmatched
      cases unmatched
  have member := (applyRestatements_mem origin.applied).mpr ⟨stored, evidential⟩
  refine (origin.mem_held_iff live).mpr ⟨member, ?_⟩
  rw [keeps.refOf_eq read]
  by_cases apart : parsed.findingRef = findingRef
  · rw [apart]
  · have fingerprint := ((matchesFinding_iff named).mp about).resolve_left apart
    exact (linked_iff apart).mp ((history.2 event member parsed read apart).mp fingerprint)

theorem gated_of_held (history : OneHistory contracts layer evidence aliases findingRef) {event : Dict}
    (held : event ∈ heldUnder groups (attributed aliases (.str findingRef))) :
    event ∈ gatedEvents contracts findingRef layer.events := by
  rcases (origin.mem_held_iff live).mp held with ⟨member, target⟩
  have stored := ((applyRestatements_mem origin.applied).mp member).1
  rcases origin.group_of member (target ▸ live) with ⟨group, known, inside⟩
  rcases Option.isSome_iff_exists.mp (origin.parses _ known event inside) with ⟨parsed, read⟩
  refine mem_gatedEvents.mpr ⟨stored, parsed, read, (matchesFinding_iff named).mpr ?_⟩
  by_cases apart : parsed.findingRef = findingRef
  · exact .inl apart
  · rw [keeps.refOf_eq read] at target
    exact .inr ((history.2 event member parsed read apart).mpr ((linked_iff apart).mpr target))

end History

/-- Gate and read model have one notion of the finding exactly where its history is one. -/
theorem same_finding_iff (contracts : Contracts) (fromIsoFormat : String → Option Int) (nowText : String)
    (layer : Layer) (findings : List FindingDisposition) (summary : FindingsSummary)
    (resolved : resolveLayerFindings contracts fromIsoFormat nowText layer = .ok (findings, summary))
    (evidence : List Dict) (aliases : Aliases) (groups : List (Json × List Dict))
    (applied : applyRestatements layer.events = .ok evidence)
    (merged : layerAliases layer.metadata evidence = .ok aliases) (walked : byFinding aliases evidence = .ok groups)
    (keeps : KeepsRefs contracts) (findingRef : String) (named : findingRef ≠ "") :
    SameFinding contracts layer aliases groups findingRef ↔
      ((attributed aliases (.str findingRef)).truthy = true →
        OneHistory contracts layer evidence aliases findingRef) := by
  have origin := Resolved.of_run resolved applied merged walked
  refine imp_congr_right fun live => ?_
  constructor
  · intro same
    exact oneHistory_of_same origin keeps named live same
  · intro history event
    exact ⟨held_of_gated origin keeps named live history, gated_of_held origin keeps named live history⟩

theorem referenceContracts_keepsRefs : KeepsRefs referenceContracts := by
  intro event parsed read
  rcases readEvent_some read with ⟨-, -, ref, -⟩
  exact ref

theorem same_finding_iff_same_person : ∃ findings summary evidence aliases groups,
    resolveLayerFindings referenceContracts clockEnv.fromIsoFormat evening samePersonLayer = .ok (findings, summary) ∧
    Resolved referenceContracts samePersonLayer evidence aliases groups findings ∧
    SameFinding referenceContracts samePersonLayer aliases groups "FIND-1" := by
  have facts : (resolveLayerFindings referenceContracts clockEnv.fromIsoFormat evening samePersonLayer).isOk = true ∧
      (samePersonLayer.events.all fun event => okAnd (isRestatement event) fun restates => !restates) = true ∧
      testAliases samePersonLayer (fun evidence _ => evidence.all fun event =>
        (referenceContracts.parseEvent event).all fun parsed => parsed.findingRef == "FIND-1") = true := by
    decide +kernel
  rcases facts with ⟨run, plain, refs⟩
  rcases exists_of_isOk run with ⟨⟨findings, summary⟩, ran⟩
  rcases resolveLayerFindings_ok ran with ⟨evidence, aliases, groups, resolved⟩
  refine ⟨findings, summary, evidence, aliases, groups, ran, resolved, ?_⟩
  refine (same_finding_iff referenceContracts clockEnv.fromIsoFormat evening samePersonLayer findings summary ran
    evidence aliases groups resolved.applied resolved.merged resolved.walked referenceContracts_keepsRefs "FIND-1"
    (by decide)).mpr fun _ => ⟨?_, ?_⟩
  · intro event stored parsed read restates
    have test := List.all_eq_true.mp plain event stored
    rw [restates] at test
    cases test
  · intro event member parsed read apart
    have test := List.all_eq_true.mp (testAliases_sound refs resolved) event member
    rw [read, Option.all_some, beq_iff_eq] at test
    exact absurd test apart

def movedLayer : Layer :=
  ⟨[], [proofRun sampleInstant, refutation morning [("identity", .str "alice")],
    confirmedRename "FIND-1" "FIND-2" noon], []⟩

/-- Under the new reference the gate sees none of the events that the finding is derived from. -/
theorem renamed_history_ungated : ∃ findings summary evidence aliases groups,
    resolveLayerFindings referenceContracts clockEnv.fromIsoFormat evening movedLayer = .ok (findings, summary) ∧
    Resolved referenceContracts movedLayer evidence aliases groups findings ∧
    ¬ SameFinding referenceContracts movedLayer aliases groups "FIND-2" := by
  have facts : (resolveLayerFindings referenceContracts clockEnv.fromIsoFormat evening movedLayer).isOk = true ∧
      gatedEvents referenceContracts "FIND-2" movedLayer.events = [] ∧
      testAliases movedLayer (fun evidence aliases => decide (proofRun sampleInstant ∈ evidence) &&
        decide (attributed aliases (.str "FIND-2") = .str "FIND-2") &&
        decide (attributed aliases (refOf (proofRun sampleInstant)) = .str "FIND-2")) = true := by
    decide +kernel
  rcases facts with ⟨run, ungated, tests⟩
  rcases exists_of_isOk run with ⟨⟨findings, summary⟩, ran⟩
  rcases resolveLayerFindings_ok ran with ⟨evidence, aliases, groups, resolved⟩
  have known := testAliases_sound tests resolved
  simp only [Bool.and_eq_true, decide_eq_true_eq] at known
  rcases known with ⟨⟨member, own⟩, moved⟩
  refine ⟨findings, summary, evidence, aliases, groups, ran, resolved, fun same => ?_⟩
  have gated := (same (by rw [own]; rfl) (proofRun sampleInstant)).mpr
    ((resolved.mem_held_iff (by rw [own]; rfl)).mpr ⟨member, moved.trans own.symm⟩)
  rw [ungated] at gated
  cases gated

end LedgerProof
