import TraustLedger.Proofs.RestatementProofs

namespace LedgerProof

open Python Runs LedgerModel

def ReportsError (layer : Layer) : Prop :=
  ∃ findings, verifyRestatedMetadata layer = .ok findings ∧ ∃ finding ∈ findings, finding.severity = .error

def entryAt (metadata : Dict) (field key : String) : Json := (entriesOf (metadata.get field) key).getD .null

theorem severity_restatedFindings {field : String} {actual : Json} {terminal : Option Json}
    {finding : IntegrityFinding} (reported : finding ∈ restatedFindings field actual terminal) :
    finding.severity = .error := by
  unfold restatedFindings at reported
  split at reported
  · cases reported
  · simp only at reported
    split at reported
    · cases reported
    · rw [List.mem_singleton.mp reported]
      rfl
  · split at reported
    · cases reported
    · rw [List.mem_singleton.mp reported]
      rfl

theorem reportsError_iff {layer : Layer} (readable : Readable layer.events) :
    ReportsError layer ↔
      ∃ field ∈ signedMetadataFields, ¬ Agrees (layer.metadata.get field) (terminalOf layer.events field) := by
  unfold ReportsError
  rw [verifyRestatedMetadata_readable readable]
  constructor
  · rintro ⟨findings, verified, finding, member, -⟩
    cases verified
    obtain ⟨field, signed, reported⟩ := List.mem_flatMap.mp member
    refine ⟨field, signed, fun agrees => ?_⟩
    rw [restatedFindings_nil.mpr agrees] at reported
    cases reported
  · rintro ⟨field, signed, drifted⟩
    obtain ⟨finding, reported⟩ := List.exists_mem_of_ne_nil _ (mt restatedFindings_nil.mp drifted)
    exact ⟨_, rfl, finding, List.mem_flatMap.mpr ⟨field, signed, reported⟩, severity_restatedFindings reported⟩

def chainMetadata (events : List Dict) (field : String) (value : Json) : Dict :=
  Dict.ofList (signedMetadataFields.map fun other =>
    (other, if other = field then value else (terminalOf events other).getD .null))

theorem get_chainMetadata {events : List Dict} {field other : String} {value : Json}
    (signed : other ∈ signedMetadataFields) : (chainMetadata events field value).get other =
      if other = field then value else (terminalOf events other).getD .null := by
  unfold chainMetadata Dict.get
  rw [Dict.lookup_ofList]
  simp only [signedMetadataFields, List.mem_cons, List.not_mem_nil, or_false] at signed
  rcases signed with rfl | rfl | rfl <;> rfl

theorem agrees_chainMetadata {events : List Dict} {field : String} {value : Json}
    (agrees : Agrees value (terminalOf events field)) {other : String} (signed : other ∈ signedMetadataFields) :
    Agrees ((chainMetadata events field value).get other) (terminalOf events other) := by
  rw [get_chainMetadata signed]
  split
  · next same =>
    rw [same]
    exact agrees
  · cases terminal : terminalOf events other with
    | none => trivial
    | some expected => exact agrees_self expected

theorem unreported_of_forgotten {events : List Dict} {field key : String} {expected : Dict}
    (readable : Readable events) (terminal : terminalOf events field = some (.obj expected))
    (forgotten : entriesOf (.obj expected) key = none) (value : Json) :
    ¬ ReportsError ⟨chainMetadata events field (.obj (Dict.set expected key value)), events, []⟩ := by
  rw [reportsError_iff readable]
  rintro ⟨other, signed, drifted⟩
  refine drifted (agrees_chainMetadata ?_ signed)
  rw [terminal]
  refine ⟨fun k held found => ?_, fun _ => rfl⟩
  have away : k ≠ key := by
    rintro rfl
    rw [forgotten] at found
    cases found
  rw [readsAs, entriesOf_obj, Dict.lookup_set, if_neg away]
  rw [entriesOf_obj] at found
  rw [found]
  exact Json.pyEq_self held

theorem lastGiven_later {key : String} {first : Dict} {later : List Dict} {value : Json}
    (given : lastGiven key (first :: later) = some value) :
    lastGiven key later = some value ∨ (lastGiven key later = none ∧ givenBy first key = some value) := by
  rw [lastGiven] at given
  cases recent : lastGiven key later with
  | some found =>
    rw [recent] at given
    exact Or.inl given
  | none =>
    rw [recent] at given
    exact Or.inr ⟨rfl, given⟩

/-- The replay holds the value the most recent block naming a key gave it, unless that is a null which a
    block after the first gave: a deletion that the merge forgets. -/
theorem entry_replay {first : Dict} {later : List Dict} {after : Dict} {key : String} {value : Json}
    (head : first.get "after" = .obj after) (objects : ∀ block ∈ later, (block.get "after").isObj = true)
    (given : lastGiven key (first :: later) = some value) :
    ∃ expected, replay (first :: later) = .obj expected ∧ entriesOf (.obj expected) key =
      if value ≠ .null ∨ lastGiven key later = none then some value else none := by
  obtain ⟨expected, replayed, entries⟩ := entries_replay head objects
  refine ⟨expected, replayed, ?_⟩
  rw [entries]
  rcases lastGiven_later given with recent | ⟨absent, firstGives⟩
  · by_cases gone : value = .null
    · simp [recent, gone]
    · simp [recent, gone]
  · simp [absent, firstGives]

/-- Restated entries stay pinned exactly where the replay does not forget a deletion: every value other
    than the one the most recent restatement naming the key left is reported if and only if that
    restatement left a value, or is the first of its chain. -/
theorem verifyRestatedMetadata_pins {events chain : List Dict} {field key : String} {value : Json}
    (mapField : field ∈ mapTargets) (read : restatementsFor events field = .ok chain)
    (objects : ∀ block ∈ chain, (block.get "after").isObj = true) (given : lastGiven key chain = some value) :
    (∀ layer : Layer, layer.events = events → Json.pyEq (entryAt layer.metadata field key) value = false →
      ReportsError layer) ↔ (value ≠ .null ∨ lastGiven key chain.tail = none) := by
  obtain ⟨readable, rfl⟩ := restatementsFor_ok read
  have signed : field ∈ signedMetadataFields := by
    simp only [mapTargets, List.mem_cons, List.not_mem_nil, or_false] at mapField
    rcases mapField with rfl | rfl <;> decide
  generalize chained : chainOf events field = chain at objects given
  cases chain with
  | nil => cases given
  | cons first later =>
    have shape := objects first (by simp)
    cases head : first.get "after" with
    | obj after =>
      obtain ⟨expected, replayed, entry⟩ :=
        entry_replay head (fun block member => objects block (List.mem_cons_of_mem _ member)) given
      have terminal : terminalOf events field = some (.obj expected) := by
        simp [terminalOf, chained, replayed]
      rw [List.tail_cons]
      by_cases kept : value ≠ .null ∨ lastGiven key later = none
      · rw [if_pos kept] at entry
        refine ⟨fun _ => kept, fun _ => ?_⟩
        rintro layer rfl differs
        rw [reportsError_iff readable]
        refine ⟨field, signed, fun agrees => ?_⟩
        rw [terminal] at agrees
        have reads := agrees.1 key value entry
        rw [readsAs, ← entryAt, differs] at reads
        cases reads
      · -- the replay forgot the key, so a layer that holds anything there passes
        rw [if_neg kept] at entry
        refine ⟨fun pinned => absurd ?_ (unreported_of_forgotten readable terminal entry (.bool true)),
          fun yes => absurd yes kept⟩
        have deleted : value = .null := by
          by_contra present
          exact kept (Or.inl present)
        apply pinned _ rfl
        simp [deleted, entryAt, get_chainMetadata signed, entriesOf]
    | _ => simp [head, Json.isObj] at shape

def claimEvent (before after : Json) : Dict :=
  [("restatement", .obj [("after", after), ("before", before), ("target", .str "claim_hashes")]),
    ("source", .obj [("type", .str "restatement")])]

def claimMap (value : Json) : Json := .obj [("FIND-1", value)]

theorem verifyRestatedMetadata_pins_deletion :
    let events := [claimEvent (claimMap (.str "a")) (claimMap .null)]
    let metadata : Dict := [("claim_hashes", claimMap (.str "z"))]
    Json.pyEq (entryAt metadata "claim_hashes" "FIND-1") .null = false ∧ ReportsError ⟨metadata, events, []⟩ := by
  have differs : Json.pyEq (entryAt [("claim_hashes", claimMap (.str "z"))] "claim_hashes" "FIND-1") .null = false := by
    decide
  have pins := (verifyRestatedMetadata_pins (by decide) rfl (by decide) rfl).mpr (Or.inr rfl)
    ⟨[("claim_hashes", claimMap (.str "z"))], [claimEvent (claimMap (.str "a")) (claimMap .null)], []⟩ rfl differs
  exact ⟨differs, pins⟩

/-- Moved to `b`, then deleted: the verifier accepts a layer that holds `z` there. -/
theorem forgotten_deletion_unreported :
    let events := [claimEvent (claimMap (.str "a")) (claimMap (.str "b")),
      claimEvent (claimMap (.str "b")) (claimMap .null)]
    let metadata : Dict := [("claim_hashes", claimMap (.str "z"))]
    (∃ chain, restatementsFor events "claim_hashes" = .ok chain ∧
      (∀ block ∈ chain, (block.get "after").isObj = true) ∧ lastGiven "FIND-1" chain = some .null) ∧
      Json.pyEq (entryAt metadata "claim_hashes" "FIND-1") .null = false ∧
      ¬ ReportsError ⟨metadata, events, []⟩ := by
  refine ⟨⟨_, rfl, by decide, rfl⟩, by decide, ?_⟩
  rintro ⟨findings, verified, finding, member, -⟩
  cases verified
  cases member

end LedgerProof
