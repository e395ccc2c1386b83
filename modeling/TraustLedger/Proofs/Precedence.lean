import TraustLedger.Disposition
import TraustLedger.Library.StableSort
import TraustLedger.Proofs.HumanDecisions
import Mathlib.Data.Finset.Card

namespace LedgerProof

open Hashing Python Runs StableSort LedgerModel

variable {contracts : Contracts} {fromIsoFormat : String → Option Int} {finding : Dict} {generatedAt : String}

def chronological (contracts : Contracts) (fromIsoFormat : String → Option Int) (events : List Dict) :
    Outcome (List Dated) := do
  let parsed ← events.mapM (coerce contracts)
  let evts ← parsed.mapM (dated fromIsoFormat)
  return evts.insertionSort fun left right => left.1 ≤ right.1

theorem deriveDisposition_ok_iff {events : List Dict} {disposition : Disposition} :
    deriveDisposition contracts fromIsoFormat finding events generatedAt = .ok disposition ↔
      ∃ evts, chronological contracts fromIsoFormat events = .ok evts ∧
        disposition = mergeDisposition finding evts generatedAt := by
  simp only [deriveDisposition, chronological, bind_ok_iff, pure, Except.pure, Except.ok.injEq]
  constructor
  · intro given
    rcases given with ⟨parsed, coerced, pairs, paired, rfl⟩
    exact ⟨_, ⟨parsed, coerced, pairs, paired, rfl⟩, rfl⟩
  · intro given
    rcases given with ⟨_, ⟨parsed, coerced, pairs, paired, rfl⟩, rfl⟩
    exact ⟨parsed, coerced, pairs, paired, rfl⟩

def Reads (contracts : Contracts) (fromIsoFormat : String → Option Int) (event : Dict) (pair : Dated) : Prop :=
  contracts.parseEvent event = some pair.2 ∧ fromIsoFormat pair.2.recordedAt = some pair.1

theorem Reads.unique {event : Dict} {left right : Dated} (first : Reads contracts fromIsoFormat event left)
    (second : Reads contracts fromIsoFormat event right) : left = right := by
  have parsed : left.2 = right.2 := Option.some.inj (first.1.symm.trans second.1)
  have instant : left.1 = right.1 := by
    have held := second.2
    rw [← parsed, first.2] at held
    exact Option.some.inj held
  exact Prod.ext instant parsed

theorem coerce_ok_iff {event : Dict} {parsed : ParsedEvent} :
    coerce contracts event = .ok parsed ↔ contracts.parseEvent event = some parsed := by
  unfold coerce
  split
  · next found => simp [found]
  · next absent => simp [absent]

theorem dated_ok_iff {parsed : ParsedEvent} {pair : Dated} :
    dated fromIsoFormat parsed = .ok pair ↔ pair.2 = parsed ∧ fromIsoFormat parsed.recordedAt = some pair.1 := by
  unfold dated eventDt
  rw [bind_ok_iff]
  constructor
  · intro given
    rcases given with ⟨instant, found, result⟩
    cases result
    split at found
    · next held =>
      cases found
      exact ⟨rfl, held⟩
    · cases found
  · intro given
    rcases given with ⟨rfl, held⟩
    exact ⟨pair.1, by rw [held], rfl⟩

theorem chronological_ok_iff {events : List Dict} {evts : List Dated} :
    chronological contracts fromIsoFormat events = .ok evts ↔
      ∃ pairs, List.Forall₂ (Reads contracts fromIsoFormat) events pairs ∧
        evts = pairs.insertionSort fun left right => left.1 ≤ right.1 := by
  simp only [chronological, bind_ok_iff, mapM_ok_iff, coerce_ok_iff, dated_ok_iff, pure, Except.pure, Except.ok.injEq]
  constructor
  · intro given
    rcases given with ⟨parsed, coerced, pairs, paired, rfl⟩
    refine ⟨pairs, ?_, rfl⟩
    induction coerced generalizing pairs with
    | nil =>
      cases paired
      exact .nil
    | cons read _ ih =>
      cases paired with
      | cons held rest =>
        rcases held with ⟨rfl, instant⟩
        exact .cons ⟨read, instant⟩ (ih _ rest)
  · intro given
    rcases given with ⟨pairs, reads, rfl⟩
    refine ⟨pairs.map Prod.snd, ?_, pairs, ?_, rfl⟩
    · rw [List.forall₂_map_right_iff]
      exact reads.imp fun _ _ read => read.1
    · rw [List.forall₂_map_left_iff]
      induction reads with
      | nil => exact .nil
      | cons read _ ih => exact .cons ⟨rfl, read.2⟩ ih

def keepEvents (contracts : Contracts) (keep : ParsedEvent → Bool) (events : List Dict) : List Dict :=
  events.filter fun event => (contracts.parseEvent event).elim true keep

theorem reads_filter {keep : ParsedEvent → Bool} {events : List Dict} {pairs : List Dated}
    (reads : List.Forall₂ (Reads contracts fromIsoFormat) events pairs) :
    List.Forall₂ (Reads contracts fromIsoFormat) (keepEvents contracts keep events)
      (pairs.filter fun pair => keep pair.2) := by
  induction reads with
  | nil => exact .nil
  | @cons event pair events pairs read _ ih =>
    rw [keepEvents, List.filter_cons, List.filter_cons, read.1, Option.elim_some]
    split
    · exact .cons read ih
    · exact ih

theorem reads_unique {events : List Dict} {left right : List Dated}
    (first : List.Forall₂ (Reads contracts fromIsoFormat) events left)
    (second : List.Forall₂ (Reads contracts fromIsoFormat) events right) : left = right := by
  induction first generalizing right with
  | nil =>
    cases second
    rfl
  | cons read _ ih =>
    cases second with
    | cons other rest => rw [read.unique other, ih rest]

theorem chronological_keep {keep : ParsedEvent → Bool} {events others : List Dict} {left right : List Dated}
    (same : keepEvents contracts keep events = keepEvents contracts keep others)
    (first : chronological contracts fromIsoFormat events = .ok left)
    (second : chronological contracts fromIsoFormat others = .ok right) :
    (left.filter fun pair => keep pair.2) = right.filter fun pair => keep pair.2 := by
  rcases chronological_ok_iff.mp first with ⟨leftPairs, leftReads, rfl⟩
  rcases chronological_ok_iff.mp second with ⟨rightPairs, rightReads, rfl⟩
  have kept : List.Forall₂ (Reads contracts fromIsoFormat) (keepEvents contracts keep others)
      (leftPairs.filter fun pair => keep pair.2) := by
    rw [← same]
    exact reads_filter leftReads
  have trans : IsTrans Dated fun left right => left.1 ≤ right.1 := ⟨fun _ _ _ => le_trans⟩
  have total : Std.Total fun left right : Dated => left.1 ≤ right.1 := ⟨fun left right => le_total left.1 right.1⟩
  rw [filter_insertionSort, filter_insertionSort, reads_unique kept (reads_filter rightReads)]

def baseValidity (finding : Dict) : Json := finding.getD "validation_status" (.str "not_verified")

def ofClass (cls : EvidenceClass) (evts : List Dated) : List Dated :=
  (evts.filter fun event => speaks event.2.validity).filter fun event => eventClass event.2 == cls

def latestProof (evts : List Dated) : Option Dated :=
  ((ofClass .execution evts).filter fun event => !asserts "false_positive" event).getLast?

def countersigned (evts : List Dated) (proof : Dated) : List Dated :=
  (((ofClass .human evts).filter (asserts "false_positive")).filter fun event => decide (proof.1 < event.1)).filter
    fun event => eventActorVerified event.2.actor

def signersAfter (evts : List Dated) (proof : Dated) : List (Option String) :=
  ((countersigned evts proof).map fun event => event.2.actor.identity).dedup

def staticVerdict (finding : Dict) (evts : List Dated) : Json :=
  staticValidity (baseValidity finding) (ofClass .human evts) (ofClass .machine evts)

theorem validity_eq (evts : List Dated) : (mergeDisposition finding evts generatedAt).validity =
    match latestProof evts with
    | none => staticVerdict finding evts
    | some proof =>
      if asserts "confirmed" proof = true ∧ 2 ≤ (signersAfter evts proof).length then .str "false_positive"
      else optionalText proof.2.validity := by
  change (executedValidity (staticVerdict finding evts) (ofClass .execution evts) (ofClass .human evts)).1 = _
  unfold executedValidity
  change (match latestProof evts with | none => _ | some proof => _ : Json × Bool × Bool).1 = _
  cases found : latestProof evts with
  | none => rfl
  | some proof =>
    change (if asserts "confirmed" proof = true then
      if 2 ≤ (signersAfter evts proof).length then _ else _ else _ : Json × Bool × Bool).1 =
      if asserts "confirmed" proof = true ∧ 2 ≤ (signersAfter evts proof).length then _ else _
    by_cases confirmed : asserts "confirmed" proof = true
    · by_cases enough : 2 ≤ (signersAfter evts proof).length
      · rw [if_pos confirmed, if_pos enough, if_pos ⟨confirmed, enough⟩]
      · rw [if_pos confirmed, if_neg enough, if_neg fun both => enough both.2]
    · rw [if_neg confirmed, if_neg fun both => confirmed both.1]

theorem mem_ofClass {cls : EvidenceClass} {evts : List Dated} {event : Dated} :
    event ∈ ofClass cls evts ↔ event ∈ evts ∧ speaks event.2.validity = true ∧ eventClass event.2 = cls := by
  simp only [ofClass, List.mem_filter, beq_iff_eq, and_assoc]

theorem mem_countersigned {evts : List Dated} {proof event : Dated} : event ∈ countersigned evts proof ↔
    event ∈ ofClass .human evts ∧ asserts "false_positive" event = true ∧ proof.1 < event.1 ∧
      eventActorVerified event.2.actor = true := by
  simp only [countersigned, List.mem_filter, decide_eq_true_eq, and_assoc]

theorem eventClass_kind {parsed : ParsedEvent} (human : eventClass parsed = .human) : parsed.actor.kind = "human" := by
  unfold eventClass at human
  split at human
  · cases human
  · split at human
    · next kind => exact kind
    · split at human <;> cases human

theorem two_signers_iff {evts : List Dated} {proof : Dated} : 2 ≤ (signersAfter evts proof).length ↔
    ∃ first ∈ countersigned evts proof, ∃ second ∈ countersigned evts proof,
      first.2.actor.identity ≠ second.2.actor.identity := by
  rw [signersAfter, ← List.card_toFinset]
  change 1 < _ ↔ _
  rw [Finset.one_lt_card]
  simp only [List.mem_toFinset, List.mem_map]
  constructor
  · intro given
    rcases given with ⟨_, ⟨first, mem, rfl⟩, _, ⟨second, mem', rfl⟩, apart⟩
    exact ⟨first, mem, second, mem', apart⟩
  · intro given
    rcases given with ⟨first, mem, second, mem', apart⟩
    exact ⟨_, ⟨first, mem, rfl⟩, _, ⟨second, mem', rfl⟩, apart⟩

theorem latestProof_mem {evts : List Dated} {proof : Dated} (found : latestProof evts = some proof) :
    proof ∈ ofClass .execution evts ∧ asserts "false_positive" proof = false := by
  have member := List.mem_filter.mp (List.mem_of_getLast? found)
  exact ⟨member.1, by simpa using member.2⟩

theorem optionalText_false_positive {event : Dated} :
    optionalText event.2.validity = .str "false_positive" ↔ asserts "false_positive" event = true := by
  unfold asserts
  cases event.2.validity <;> simp [optionalText]

/-- A proof gives way to a false positive only where two identities countersigned it. -/
theorem refuted_iff_signers {evts : List Dated} {proof : Dated} (found : latestProof evts = some proof) :
    (mergeDisposition finding evts generatedAt).validity = .str "false_positive" ↔
      asserts "confirmed" proof = true ∧ 2 ≤ (signersAfter evts proof).length := by
  rw [validity_eq, found]
  by_cases both : asserts "confirmed" proof = true ∧ 2 ≤ (signersAfter evts proof).length
  · simp only [both, and_self, if_true]
  · simp only [both, if_false, iff_false]
    rw [optionalText_false_positive]
    simp [(latestProof_mem found).2]

theorem chronological_parses {events : List Dict} {evts : List Dated}
    (sorted : chronological contracts fromIsoFormat events = .ok evts) {event : Dict} (stored : event ∈ events) :
    (contracts.parseEvent event).isSome = true := by
  rcases bind_ok_iff.mp sorted with ⟨parsed, coerced, -⟩
  rcases mapM_of_mem coerced stored with ⟨read, -, known⟩
  rw [coerce_ok_iff.mp known]
  rfl

theorem mem_chronological {events : List Dict} {evts : List Dated}
    (sorted : chronological contracts fromIsoFormat events = .ok evts) {parsed : ParsedEvent} :
    (∃ pair ∈ evts, pair.2 = parsed) ↔ ∃ event ∈ events, contracts.parseEvent event = some parsed := by
  rcases chronological_ok_iff.mp sorted with ⟨pairs, reads, rfl⟩
  clear sorted
  simp only [List.mem_insertionSort]
  induction reads with
  | nil => simp
  | @cons event pair events pairs read _ ih =>
    simp only [List.exists_mem_cons_iff, ih, read.1, Option.some.injEq]

def isMachine (parsed : ParsedEvent) : Bool := eventClass parsed == .machine

/-- An event that outranks the machines: a human's word on validity, or an execution that is no false positive. -/
def Outranks (parsed : ParsedEvent) : Prop :=
  speaks parsed.validity = true ∧ (eventClass parsed = .human ∨
    (eventClass parsed = .execution ∧ parsed.validity ≠ some "false_positive"))

section Machines

variable {left right : List Dated}
  (same : (left.filter fun event => !isMachine event.2) = right.filter fun event => !isMachine event.2)

theorem ofClass_keep {cls : EvidenceClass} (other : cls ≠ .machine) (evts : List Dated) :
    ofClass cls (evts.filter fun event => !isMachine event.2) = ofClass cls evts := by
  simp only [ofClass, List.filter_filter]
  apply List.filter_congr
  intro event _
  by_cases cls' : eventClass event.2 = cls
  · simp [isMachine, cls', other]
  · have apart : (eventClass event.2 == cls) = false := by simpa using cls'
    rw [apart, Bool.false_and, Bool.false_and]

include same

theorem ofClass_congr {cls : EvidenceClass} (other : cls ≠ .machine) : ofClass cls left = ofClass cls right := by
  rw [← ofClass_keep other left, same, ofClass_keep other right]

theorem latestProof_congr : latestProof left = latestProof right := by
  rw [latestProof, latestProof, ofClass_congr same (by decide)]

theorem signersAfter_congr (proof : Dated) : signersAfter left proof = signersAfter right proof := by
  unfold signersAfter countersigned
  rw [ofClass_congr same (by decide)]

theorem validity_machines {event : Dated} (member : event ∈ left) (outranks : Outranks event.2) :
    (mergeDisposition finding left generatedAt).validity = (mergeDisposition finding right generatedAt).validity := by
  rw [validity_eq, validity_eq, ← latestProof_congr same]
  cases found : latestProof left with
  | some proof => simp only [signersAfter_congr same]
  | none =>
    have human : event ∈ ofClass .human left := by
      rcases outranks with ⟨speaking, human | ⟨executed, decisive⟩⟩
      · exact mem_ofClass.mpr ⟨member, speaking, human⟩
      · rw [latestProof, List.getLast?_eq_none_iff, List.filter_eq_nil_iff] at found
        have refuting := found event (mem_ofClass.mpr ⟨member, speaking, executed⟩)
        simp [asserts, decisive] at refuting
    obtain ⟨last, held⟩ : ∃ last, (ofClass .human left).getLast? = some last :=
      ⟨_, List.getLast?_eq_some_getLast (List.ne_nil_of_mem human)⟩
    have held' := held
    rw [ofClass_congr same (by decide)] at held'
    simp only [staticVerdict, staticValidity, held, held']

end Machines

theorem bestResolution_upper {evts : List Dated} {tier : Nat}
    (populated : ∃ event ∈ evts, resolutionTier event.2.sourceType ≤ tier) :
    bestResolution (evts.filter fun event => decide (resolutionTier event.2.sourceType ≤ tier)) =
      bestResolution evts := by
  rcases populated with ⟨event, member, within⟩
  obtain ⟨best, least⟩ : ∃ best, (evts.map fun event => resolutionTier event.2.sourceType).min? = some best := by
    apply Option.isSome_iff_exists.mp
    rw [List.isSome_min?_iff]
    exact List.ne_nil_of_mem (List.mem_map_of_mem member)
  rcases List.min?_eq_some_iff.mp least with ⟨attained, lower⟩
  rcases List.mem_map.mp attained with ⟨holder, held, rfl⟩
  have bound : resolutionTier holder.2.sourceType ≤ tier := (lower _ (List.mem_map_of_mem member)).trans within
  have same : ((evts.filter fun event => decide (resolutionTier event.2.sourceType ≤ tier)).map
      fun event => resolutionTier event.2.sourceType).min? = some (resolutionTier holder.2.sourceType) := by
    refine List.min?_eq_some_iff.mpr ⟨List.mem_map_of_mem (List.mem_filter.mpr ⟨held, by simpa using bound⟩), ?_⟩
    intro other listed
    rcases List.mem_map.mp listed with ⟨kept, mem, rfl⟩
    exact lower _ (List.mem_map_of_mem (List.mem_of_mem_filter mem))
  have top : ((evts.filter fun event => decide (resolutionTier event.2.sourceType ≤ tier)).filter
        fun event => resolutionTier event.2.sourceType == resolutionTier holder.2.sourceType) =
      evts.filter fun event => resolutionTier event.2.sourceType == resolutionTier holder.2.sourceType := by
    rw [List.filter_filter]
    apply List.filter_congr
    intro other _
    by_cases best : resolutionTier other.2.sourceType = resolutionTier holder.2.sourceType
    · simp [best, bound]
    · simp [best]
  simp only [bestResolution, least, same, Option.getD_some, top]

def lowerTier (tier : Nat) (parsed : ParsedEvent) : Bool :=
  speaks parsed.resolution && decide (tier < resolutionTier parsed.sourceType)

theorem filter_lowerTier (tier : Nat) (evts : List Dated) :
    ((evts.filter fun event => speaks event.2.resolution).filter
      fun event => decide (resolutionTier event.2.sourceType ≤ tier)) =
    ((evts.filter fun event => !lowerTier tier event.2).filter fun event => speaks event.2.resolution) := by
  rw [List.filter_filter, List.filter_filter]
  apply List.filter_congr
  intro event _
  unfold lowerTier
  cases speaks event.2.resolution with
  | false => simp
  | true => simp [← decide_not]

theorem resolution_tiers {left right : List Dated} {tier : Nat}
    (same : (left.filter fun event => !lowerTier tier event.2) = right.filter fun event => !lowerTier tier event.2)
    {event : Dated} (member : event ∈ left) (speaking : speaks event.2.resolution = true)
    (within : resolutionTier event.2.sourceType ≤ tier) :
    (mergeDisposition finding left generatedAt).resolution =
      (mergeDisposition finding right generatedAt).resolution := by
  have notLower : lowerTier tier event.2 = false := by simp [lowerTier, within]
  have member' : event ∈ right := by
    have kept : event ∈ left.filter fun event => !lowerTier tier event.2 :=
      List.mem_filter.mpr ⟨member, by simp [notLower]⟩
    rw [same] at kept
    exact List.mem_of_mem_filter kept
  change bestResolution (left.filter fun event => speaks event.2.resolution) =
    bestResolution (right.filter fun event => speaks event.2.resolution)
  rw [← bestResolution_upper ⟨event, List.mem_filter.mpr ⟨member, speaking⟩, within⟩,
    ← bestResolution_upper ⟨event, List.mem_filter.mpr ⟨member', speaking⟩, within⟩, filter_lowerTier, same,
    filter_lowerTier]

/-- What can stand behind a false positive. -/
def Backed (finding : Dict) (evts : List Dated) : Prop :=
  baseValidity finding = .str "false_positive" ∨
  (∃ decision, (ofClass .human evts).getLast? = some decision ∧ asserts "false_positive" decision = true) ∨
  (∃ report ∈ ofClass .machine evts, asserts "false_positive" report = true ∧ report.2.autoAcceptTier = some true) ∨
  ∃ proof first second, latestProof evts = some proof ∧ first ∈ countersigned evts proof ∧
    second ∈ countersigned evts proof ∧ first.2.actor.identity ≠ second.2.actor.identity

theorem backed_of_static {evts : List Dated} (refuted : staticVerdict finding evts = .str "false_positive") :
    Backed finding evts := by
  unfold staticVerdict staticValidity at refuted
  split at refuted
  · next decision human => exact .inr (.inl ⟨decision, human, optionalText_false_positive.mp refuted⟩)
  · next report _ machine =>
    split at refuted
    · exact .inl refuted
    · next accepted =>
      have refutes := optionalText_false_positive.mp refuted
      have tier : report.2.autoAcceptTier = some true := by
        cases held : report.2.autoAcceptTier with
        | none => exact absurd ⟨refutes, by rw [held]; rfl⟩ accepted
        | some flag =>
          cases flag with
          | false => exact absurd ⟨refutes, by rw [held]; rfl⟩ accepted
          | true => rfl
      exact .inr (.inr (.inl ⟨report, List.mem_of_getLast? machine, refutes, tier⟩))
  · exact .inl refuted

theorem backed_of_refuted {evts : List Dated}
    (refuted : (mergeDisposition finding evts generatedAt).validity = .str "false_positive") : Backed finding evts := by
  cases found : latestProof evts with
  | none =>
    rw [validity_eq, found] at refuted
    exact backed_of_static refuted
  | some proof =>
    rcases two_signers_iff.mp ((refuted_iff_signers found).mp refuted).2 with ⟨first, mem, second, mem', apart⟩
    exact .inr (.inr (.inr ⟨proof, first, second, found, mem, mem', apart⟩))

/-- Machine reports decide nothing beside a human or a proof, lower tiers nothing beside a higher one, and no
    finding becomes a false positive without the evidence for it. -/
theorem evidence_precedence (contracts : Contracts) (fromIsoFormat : String → Option Int) (finding : Dict)
    (events : List Dict) (generatedAt : String) (disposition : Disposition)
    (derived : deriveDisposition contracts fromIsoFormat finding events generatedAt = .ok disposition) :
    (∀ others disposition', deriveDisposition contracts fromIsoFormat finding others generatedAt = .ok disposition' →
      keepEvents contracts (fun parsed => !isMachine parsed) events =
        keepEvents contracts (fun parsed => !isMachine parsed) others →
      (∃ event ∈ events, ∃ parsed, contracts.parseEvent event = some parsed ∧ Outranks parsed) →
      disposition.validity = disposition'.validity) ∧
    (∀ others disposition' tier,
      deriveDisposition contracts fromIsoFormat finding others generatedAt = .ok disposition' →
      keepEvents contracts (fun parsed => !lowerTier tier parsed) events =
        keepEvents contracts (fun parsed => !lowerTier tier parsed) others →
      (∃ event ∈ events, ∃ parsed, contracts.parseEvent event = some parsed ∧ speaks parsed.resolution = true ∧
        resolutionTier parsed.sourceType ≤ tier) →
      disposition.resolution = disposition'.resolution) ∧
    (disposition.validity = .str "false_positive" →
      ∃ evts, chronological contracts fromIsoFormat events = .ok evts ∧ Backed finding evts) := by
  rcases deriveDisposition_ok_iff.mp derived with ⟨evts, sorted, rfl⟩
  refine ⟨?_, ?_, fun refuted => ⟨evts, sorted, backed_of_refuted refuted⟩⟩
  · rintro others _ rederived same ⟨event, stored, parsed, read, outranks⟩
    rcases deriveDisposition_ok_iff.mp rederived with ⟨evts', resorted, rfl⟩
    rcases (mem_chronological sorted).mpr ⟨event, stored, read⟩ with ⟨pair, member, rfl⟩
    exact validity_machines (chronological_keep same sorted resorted) member outranks
  · rintro others _ tier rederived same ⟨event, stored, parsed, read, speaking, within⟩
    rcases deriveDisposition_ok_iff.mp rederived with ⟨evts', resorted, rfl⟩
    rcases (mem_chronological sorted).mpr ⟨event, stored, read⟩ with ⟨pair, member, rfl⟩
    exact resolution_tiers (chronological_keep same sorted resorted) member speaking within

def evidence (recordedAt sourceType validity : String) (actor : List (String × Json)) : Dict :=
  Dict.ofList [("event_id", .str (recordedAt ++ sourceType)), ("finding_ref", .str "FIND-1"),
    ("recorded_at", .str recordedAt), ("disposition", .obj [("validity", .str validity)]),
    ("source", .obj (Dict.ofList [("type", .str sourceType), ("actor", .obj (Dict.ofList actor))]))]

def proofRun (recordedAt : String) : Dict := evidence recordedAt "validation_report" "confirmed" [("kind", .str "machine")]

def refutation (recordedAt : String) (identity : List (String × Json)) : Dict :=
  evidence recordedAt "interactive" "false_positive"
    ([("kind", .str "human"), ("identity_verified", .bool true)] ++ identity)

def reviewedLog : List Dict := [refutation noon [("identity", .str "alice")]]

def rescannedLog : List Dict :=
  evidence morning "cve_scan" "confirmed" [("kind", .str "machine")] :: reviewedLog ++
    [evidence evening "cve_scan" "confirmed" [("kind", .str "machine")]]

theorem evidence_precedence_rescanned : ∃ disposition disposition',
    deriveDisposition referenceContracts clockEnv.fromIsoFormat [] reviewedLog evening = .ok disposition ∧
    deriveDisposition referenceContracts clockEnv.fromIsoFormat [] rescannedLog evening = .ok disposition' ∧
    disposition.validity = .str "false_positive" ∧ disposition'.validity = .str "false_positive" := by
  have facts : (okAnd (deriveDisposition referenceContracts clockEnv.fromIsoFormat [] reviewedLog evening)
      fun disposition => decide (disposition.validity = .str "false_positive")) = true ∧
      (deriveDisposition referenceContracts clockEnv.fromIsoFormat [] rescannedLog evening).isOk = true ∧
      keepEvents referenceContracts (fun parsed => !isMachine parsed) reviewedLog =
        keepEvents referenceContracts (fun parsed => !isMachine parsed) rescannedLog ∧
      ((referenceContracts.parseEvent (refutation noon [("identity", .str "alice")])).any fun parsed =>
        speaks parsed.validity && eventClass parsed == .human) = true := by
    decide +kernel
  rcases facts with ⟨reviewed, rescanned, same, human⟩
  rcases okAnd_iff.mp reviewed with ⟨disposition, derived, refuted⟩
  rcases exists_of_isOk rescanned with ⟨disposition', rederived⟩
  rcases (Option.any_eq_true _ _).mp human with ⟨parsed, read, test⟩
  simp only [Bool.and_eq_true, beq_iff_eq] at test
  have kept := (evidence_precedence referenceContracts clockEnv.fromIsoFormat [] reviewedLog evening disposition
    derived).1 rescannedLog disposition' rederived same
    ⟨_, List.mem_singleton_self _, parsed, read, test.1, .inl test.2⟩
  have refuted' := of_decide_eq_true refuted
  exact ⟨disposition, disposition', derived, rederived, refuted', kept ▸ refuted'⟩

end LedgerProof
