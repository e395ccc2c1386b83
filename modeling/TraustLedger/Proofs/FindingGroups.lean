import TraustLedger.Findings
import TraustLedger.Proofs.Precedence

namespace LedgerProof

open Python Runs LedgerModel

def successor (aliases : Aliases) (ref : Json) : Option Json :=
  match aliases.get ref with
  | .obj mapping => if (Dict.get mapping "confirmed").truthy then some (Dict.getD mapping "new_id" ref) else none
  | _ => none

def refOf (event : Dict) : Json := event.getD "finding_ref" (.str "")

/-- The finding that an event under this reference is counted in. -/
def attributed (aliases : Aliases) (ref : Json) : Json := (successor aliases ref).getD ref

theorem resolveRef_ok {aliases : Aliases} {ref target : Json} (resolved : resolveRef aliases ref = .ok target) :
    target = attributed aliases ref := by
  have result := gate_passed resolved
  unfold attributed successor
  cases held : aliases.get ref with
  | obj mapping =>
    simp only [held] at result
    cases result
    by_cases confirmed : (Dict.get mapping "confirmed").truthy = true
    · simp only [confirmed, if_true, Option.getD_some]
    · simp only [confirmed, if_false, Option.getD_none, Bool.false_eq_true]
  | _ =>
    simp only [held] at result
    cases gate_passed result
    rfl

theorem applyRestatements_mem {events evidence : List Dict} (applied : applyRestatements events = .ok evidence)
    {event : Dict} : event ∈ evidence ↔ event ∈ events ∧ isRestatement event = .ok false := by
  induction events generalizing evidence with
  | nil =>
    cases applied
    simp
  | cons head rest ih =>
    rcases bind_ok_iff.mp applied with ⟨restates, tested, applied⟩
    rcases bind_ok_iff.mp applied with ⟨later, walked, result⟩
    cases result
    cases restates with
    | true =>
      simp only [if_true, ih walked, List.mem_cons]
      constructor
      · intro given
        rcases given with ⟨member, plain⟩
        exact ⟨.inr member, plain⟩
      · intro given
        rcases given with ⟨rfl | member, plain⟩
        · rw [tested] at plain
          cases plain
        · exact ⟨member, plain⟩
    | false =>
      simp only [Bool.false_eq_true, if_false, List.mem_cons, ih walked]
      constructor
      · intro given
        rcases given with rfl | ⟨member, plain⟩
        · exact ⟨.inl rfl, tested⟩
        · exact ⟨.inr member, plain⟩
      · intro given
        rcases given with ⟨rfl | member, plain⟩
        · exact .inl rfl
        · exact .inr ⟨member, plain⟩

section Groups

variable {groups : List (Json × List Dict)}

def heldUnder (groups : List (Json × List Dict)) (ref : Json) : List Dict :=
  ((groups.find? fun group => Json.pyEq group.1 ref).map Prod.snd).getD []

theorem heldUnder_cons (group : Json × List Dict) (groups : List (Json × List Dict)) (ref : Json) :
    heldUnder (group :: groups) ref = if Json.pyEq group.1 ref then group.2 else heldUnder groups ref := by
  unfold heldUnder
  cases same : Json.pyEq group.1 ref <;> simp [same]

theorem heldUnder_groupUnder (ref : Json) (event : Dict) (groups : List (Json × List Dict)) (other : Json) :
    heldUnder (groupUnder ref event groups) other =
      if Json.pyEq ref other then heldUnder groups other ++ [event] else heldUnder groups other := by
  induction groups with
  | nil =>
    rw [groupUnder, heldUnder_cons]
    rfl
  | cons group groups ih =>
    unfold groupUnder
    by_cases same : Json.pyEq group.1 ref = true
    · rw [if_pos same, heldUnder_cons, heldUnder_cons, Json.pyEq_congr_left same other]
      split <;> rfl
    · rw [if_neg same, heldUnder_cons, ih, heldUnder_cons]
      by_cases here : Json.pyEq group.1 other = true
      · have apart : ¬ Json.pyEq ref other = true := fun also => same (Json.pyEq_trans here (Json.pyEq_symm also))
        rw [if_pos here, if_pos here, if_neg apart]
      · rw [if_neg here, if_neg here]

theorem key_groupUnder {ref : Json} {event : Dict} {group : Json × List Dict}
    (member : group ∈ groupUnder ref event groups) : group.1 = ref ∨ ∃ held, (group.1, held) ∈ groups := by
  induction groups with
  | nil =>
    rw [groupUnder, List.mem_singleton] at member
    exact .inl (congrArg Prod.fst member)
  | cons head rest ih =>
    unfold groupUnder at member
    split at member
    · rcases List.mem_cons.mp member with rfl | later
      · exact .inr ⟨head.2, List.mem_cons_self⟩
      · exact .inr ⟨group.2, List.mem_cons_of_mem _ later⟩
    · rcases List.mem_cons.mp member with rfl | later
      · exact .inr ⟨group.2, List.mem_cons_self⟩
      · rcases ih later with same | ⟨held, known⟩
        · exact .inl same
        · exact .inr ⟨held, List.mem_cons_of_mem _ known⟩

def DistinctKeys (groups : List (Json × List Dict)) : Prop :=
  groups.Pairwise fun left right => Json.pyEq left.1 right.1 = false

theorem DistinctKeys.groupUnder {ref : Json} {event : Dict} (distinct : DistinctKeys groups) :
    DistinctKeys (groupUnder ref event groups) := by
  induction groups with
  | nil => exact List.pairwise_singleton _ _
  | cons head rest ih =>
    rw [DistinctKeys, List.pairwise_cons] at distinct
    unfold LedgerModel.groupUnder
    split
    · exact List.pairwise_cons.mpr distinct
    · next apart =>
      refine List.pairwise_cons.mpr ⟨?_, ih distinct.2⟩
      intro group member
      rcases key_groupUnder member with same | ⟨held, known⟩
      · simpa [same] using apart
      · exact distinct.1 (group.1, held) known

theorem DistinctKeys.heldUnder_eq (distinct : DistinctKeys groups) {key : Json} {held : List Dict}
    (member : (key, held) ∈ groups) : heldUnder groups key = held := by
  induction groups with
  | nil => cases member
  | cons head rest ih =>
    rw [DistinctKeys, List.pairwise_cons] at distinct
    rw [heldUnder_cons]
    rcases List.mem_cons.mp member with rfl | later
    · simp
    · rw [distinct.1 _ later]
      exact ih distinct.2 later

end Groups

/-- What the loop over the events leaves: each event under the finding it is attributed to. -/
structure Grouped (aliases : Aliases) (evidence : List Dict) (groups : List (Json × List Dict)) : Prop where
  held : ∀ ref, heldUnder groups ref = evidence.filter fun event =>
    (attributed aliases (refOf event)).truthy && Json.pyEq (attributed aliases (refOf event)) ref
  distinct : DistinctKeys groups
  keys : ∀ group ∈ groups, ∃ event ∈ evidence, group.1 = attributed aliases (refOf event) ∧ group.1.truthy = true

theorem Grouped.snoc {aliases : Aliases} {evidence : List Dict} {groups next : List (Json × List Dict)} {event : Dict}
    (grouped : Grouped aliases evidence groups) (added : addToFinding aliases groups event = .ok next) :
    Grouped aliases (evidence ++ [event]) next := by
  rcases bind_ok_iff.mp added with ⟨target, resolved, added⟩
  have target_eq : target = attributed aliases (refOf event) := resolveRef_ok resolved
  subst target_eq
  split at added
  · next blank =>
    cases added
    refine ⟨fun ref => ?_, grouped.distinct, fun group member => ?_⟩
    · simp [grouped.held ref, blank]
    · rcases grouped.keys group member with ⟨earlier, stored, same⟩
      exact ⟨earlier, List.mem_append_left _ stored, same⟩
  · next named =>
    have placed := gate_passed added
    cases placed
    have truthy : (attributed aliases (refOf event)).truthy = true := by simpa using named
    refine ⟨fun ref => ?_, grouped.distinct.groupUnder, fun group member => ?_⟩
    · rw [heldUnder_groupUnder, grouped.held ref, List.filter_append]
      by_cases same : Json.pyEq (attributed aliases (refOf event)) ref = true
      · simp [truthy, same]
      · simp [same]
    · rcases key_groupUnder member with same | ⟨held, known⟩
      · exact ⟨event, by simp, same, same ▸ truthy⟩
      · rcases grouped.keys _ known with ⟨earlier, stored, same⟩
        exact ⟨earlier, List.mem_append_left _ stored, same⟩

theorem byFinding_ok {aliases : Aliases} {evidence : List Dict} {groups : List (Json × List Dict)}
    (walked : byFinding aliases evidence = .ok groups) : Grouped aliases evidence groups := by
  induction evidence using List.reverseRecOn generalizing groups with
  | nil =>
    cases walked
    exact ⟨fun _ => rfl, List.Pairwise.nil, by simp⟩
  | append_singleton evidence event ih =>
    rw [byFinding, List.foldlM_append] at walked
    rcases bind_ok_iff.mp walked with ⟨earlier, before, last⟩
    rcases bind_ok_iff.mp last with ⟨after, added, result⟩
    cases result
    exact (ih before).snoc added

theorem textKey_ok {group : Json × List Dict} {item : String × List Dict} (named : textKey group = .ok item) :
    group = (.str item.1, item.2) := by
  rcases group with ⟨key, held⟩
  cases key with
  | str ref =>
    cases named
    rfl
  | null => cases named
  | bool flag => cases named
  | int value => cases named
  | float value => cases named
  | arr items => cases named
  | obj fields => cases named

theorem sortedFindings_ok {groups : List (Json × List Dict)} {named : List (String × List Dict)}
    (sorted : sortedFindings groups = .ok named) :
    (∀ group ∈ groups, ∃ ref, group.1 = .str ref ∧ (ref, group.2) ∈ named) ∧
      ∀ item ∈ named, (Json.str item.1, item.2) ∈ groups := by
  rcases bind_ok_iff.mp (gate_passed sorted) with ⟨listed, mapped, result⟩
  cases result
  have pairs := mapM_ok_iff.mp mapped
  have same : groups = listed.map fun item => (Json.str item.1, item.2) := by
    clear sorted mapped
    induction pairs with
    | nil => rfl
    | cons head _ ih => rw [List.map_cons, ← ih, textKey_ok head]
  subst same
  simp only [List.mem_insertionSort, List.mem_map]
  constructor
  · rintro _ ⟨item, member, rfl⟩
    exact ⟨item.1, rfl, member⟩
  · intro item member
    exact ⟨item, member, rfl⟩

structure Resolved (contracts : Contracts) (layer : Layer) (evidence : List Dict) (aliases : Aliases)
    (groups : List (Json × List Dict)) (findings : List FindingDisposition) : Prop where
  applied : applyRestatements layer.events = .ok evidence
  merged : layerAliases layer.metadata evidence = .ok aliases
  walked : byFinding aliases evidence = .ok groups
  counted : ∀ group ∈ groups, ∃ finding ∈ findings, group.1 = .str finding.findingRef ∧
    finding.eventCount = group.2.length
  listed : ∀ finding ∈ findings, ∃ held, (Json.str finding.findingRef, held) ∈ groups
  parses : ∀ group ∈ groups, ∀ event ∈ group.2, (contracts.parseEvent event).isSome = true

section Inversion

variable {contracts : Contracts} {fromIsoFormat : String → Option Int} {nowText : String}

theorem resolveLayerFindings_named {layer : Layer} {findings : List FindingDisposition} {summary : FindingsSummary}
    (resolved : resolveLayerFindings contracts fromIsoFormat nowText layer = .ok (findings, summary)) :
    ∃ evidence aliases groups named, applyRestatements layer.events = .ok evidence ∧
      layerAliases layer.metadata evidence = .ok aliases ∧ byFinding aliases evidence = .ok groups ∧
      sortedFindings groups = .ok named ∧
      List.Forall₂ (fun item finding =>
        resolveFinding contracts fromIsoFormat nowText layer.metadata item = .ok finding) named findings ∧
      summary = ⟨counter (findings.map fun finding => finding.disposition.validity),
        counter (findings.map fun finding => finding.disposition.resolution)⟩ := by
  rcases bind_ok_iff.mp resolved with ⟨evidence, applied, resolved⟩
  rcases bind_ok_iff.mp resolved with ⟨aliases, merged, resolved⟩
  rcases bind_ok_iff.mp resolved with ⟨groups, walked, resolved⟩
  rcases bind_ok_iff.mp resolved with ⟨named, sorted, resolved⟩
  rcases bind_ok_iff.mp resolved with ⟨listed, mapped, result⟩
  cases result
  exact ⟨evidence, aliases, groups, named, applied, merged, walked, sorted, mapM_ok_iff.mp mapped, rfl⟩

theorem resolveFinding_ok {metadata : Dict} {item : String × List Dict} {finding : FindingDisposition}
    (computed : resolveFinding contracts fromIsoFormat nowText metadata item = .ok finding) :
    finding.findingRef = item.1 ∧ finding.eventCount = item.2.length ∧
      deriveDisposition contracts fromIsoFormat [("id", .str item.1)] item.2 nowText = .ok finding.disposition := by
  rcases bind_ok_iff.mp computed with ⟨disposition, derived, result⟩
  cases result
  exact ⟨rfl, rfl, derived⟩

theorem resolveLayerFindings_ok {layer : Layer} {findings : List FindingDisposition} {summary : FindingsSummary}
    (resolved : resolveLayerFindings contracts fromIsoFormat nowText layer = .ok (findings, summary)) :
    ∃ evidence aliases groups, Resolved contracts layer evidence aliases groups findings := by
  rcases resolveLayerFindings_named resolved with
    ⟨evidence, aliases, groups, named, applied, merged, walked, sorted, pairs, -⟩
  have mapped := mapM_ok_iff.mpr pairs
  rcases sortedFindings_ok sorted with ⟨texts, back⟩
  -- each group is one call of the precedence engine
  have derived : ∀ group ∈ groups, ∃ finding ∈ findings, ∃ disposition ref, group.1 = .str ref ∧
      deriveDisposition contracts fromIsoFormat [("id", .str ref)] group.2 nowText = .ok disposition ∧
      finding.findingRef = ref ∧ finding.eventCount = group.2.length := by
    intro group member
    rcases texts group member with ⟨ref, text, held⟩
    rcases mapM_of_mem mapped held with ⟨finding, found, computed⟩
    rcases resolveFinding_ok computed with ⟨named, count, merged⟩
    exact ⟨finding, found, finding.disposition, ref, text, merged, named, count⟩
  refine ⟨evidence, aliases, groups, applied, merged, walked, ?_, ?_, ?_⟩
  · intro group member
    rcases derived group member with ⟨finding, found, -, ref, text, -, rfl, count⟩
    exact ⟨finding, found, text, count⟩
  · intro finding member
    rcases mem_of_mapM mapped member with ⟨item, held, computed⟩
    rw [(resolveFinding_ok computed).1]
    exact ⟨item.2, back item held⟩
  · intro group member event held
    rcases derived group member with ⟨_, _, disposition, _, _, computed, _⟩
    rcases deriveDisposition_ok_iff.mp computed with ⟨evts, sorted, -⟩
    exact chronological_parses sorted held

end Inversion

namespace Resolved

variable {contracts : Contracts} {layer : Layer} {evidence : List Dict} {aliases : Aliases}
  {groups : List (Json × List Dict)} {findings : List FindingDisposition}

theorem of_run {fromIsoFormat : String → Option Int} {nowText : String} {summary : FindingsSummary}
    (resolved : resolveLayerFindings contracts fromIsoFormat nowText layer = .ok (findings, summary))
    (applied : applyRestatements layer.events = .ok evidence)
    (merged : layerAliases layer.metadata evidence = .ok aliases) (walked : byFinding aliases evidence = .ok groups) :
    Resolved contracts layer evidence aliases groups findings := by
  rcases resolveLayerFindings_ok resolved with ⟨_, _, _, origin⟩
  cases applied.symm.trans origin.applied
  cases merged.symm.trans origin.merged
  cases walked.symm.trans origin.walked
  exact origin

theorem key_eq (resolved : Resolved contracts layer evidence aliases groups findings) {group : Json × List Dict}
    (member : group ∈ groups) {ref : Json} (same : Json.pyEq group.1 ref = true) : group.1 = ref := by
  rcases resolved.counted group member with ⟨finding, -, text, -⟩
  have equal := Json.pyEq_symm same
  rw [text, Json.pyEq_str, decide_eq_true_eq] at equal
  rw [text, equal]

theorem group_of (resolved : Resolved contracts layer evidence aliases groups findings) {event : Dict}
    (stored : event ∈ evidence) (named : (attributed aliases (refOf event)).truthy = true) :
    ∃ held, (attributed aliases (refOf event), held) ∈ groups ∧ event ∈ held := by
  have member : event ∈ heldUnder groups (attributed aliases (refOf event)) := by
    rw [(byFinding_ok resolved.walked).held]
    exact List.mem_filter.mpr ⟨stored, by simp [named]⟩
  unfold heldUnder at member
  cases found : groups.find? fun group => Json.pyEq group.1 (attributed aliases (refOf event)) with
  | none => simp [found] at member
  | some group =>
    have known := List.mem_of_find?_eq_some found
    have same := resolved.key_eq known (by simpa using List.find?_some found)
    rw [found] at member
    exact ⟨group.2, same ▸ known, member⟩

theorem mem_held_iff (resolved : Resolved contracts layer evidence aliases groups findings) {ref : Json}
    (named : ref.truthy = true) {event : Dict} :
    event ∈ heldUnder groups ref ↔ event ∈ evidence ∧ attributed aliases (refOf event) = ref := by
  rw [(byFinding_ok resolved.walked).held, List.mem_filter, Bool.and_eq_true]
  constructor
  · intro given
    rcases given with ⟨stored, truthy, same⟩
    rcases resolved.group_of stored truthy with ⟨held, known, -⟩
    exact ⟨stored, resolved.key_eq known same⟩
  · intro given
    rcases given with ⟨stored, rfl⟩
    exact ⟨stored, named, Json.pyEq_self _⟩

theorem mem_group (resolved : Resolved contracts layer evidence aliases groups findings) {key : Json}
    {held : List Dict} (known : (key, held) ∈ groups) {event : Dict} (member : event ∈ held) :
    event ∈ evidence ∧ attributed aliases (refOf event) = key ∧ key.truthy = true := by
  have grouped := byFinding_ok resolved.walked
  rcases grouped.keys _ known with ⟨-, -, -, named⟩
  rw [← grouped.distinct.heldUnder_eq known, resolved.mem_held_iff named] at member
  exact ⟨member.1, member.2, named⟩

end Resolved

end LedgerProof
