import TraustLedger.Library.OrderedDicts
import TraustLedger.Proofs.SameFinding
import Mathlib.Algebra.GroupWithZero.Nat

namespace LedgerProof

open Python Runs LedgerModel

/-- What the contract package promises of an event it accepts: its reference is text, its source and actor are
    objects, and an alias on it names its successor. -/
structure EventShape (contracts : Contracts) : Prop where
  refs : KeepsRefs contracts
  source : ∀ event parsed, contracts.parseEvent event = some parsed →
    ∃ source actor, event.get "source" = .obj source ∧ Dict.get source "actor" = .obj actor
  successor : ∀ event parsed, contracts.parseEvent event = some parsed → event.get "alias" = .null ∨
    ∃ mapping newRef, event.get "alias" = .obj mapping ∧
      List.lookup "new_finding_ref" mapping = some (.str newRef) ∧ Dict.has mapping "matched_by" = true

def NamesText (value : Json) : Prop :=
  ∃ mapping, value = .obj mapping ∧ ∀ newId, List.lookup "new_id" mapping = some newId → isStr newId = true

structure Parseable (contracts : Contracts) (fromIsoFormat : String → Option Int) (layer : Layer) : Prop where
  events : ∀ event ∈ layer.events, ∃ pair, Reads contracts fromIsoFormat event pair
  aliases : layer.metadata.get "finding_aliases" = .null ∨
    ∃ table, layer.metadata.get "finding_aliases" = .obj table ∧ ∀ entry ∈ table, NamesText entry.2

def evidenceOf (events : List Dict) : List Dict := events.filter fun event => okAnd (isRestatement event) (!·)

def resolvesTo (aliases : Aliases) (ref : String) (event : Dict) : Bool :=
  okAnd (resolveRef aliases (refOf event)) fun target => decide (target = .str ref)

def resolvesToSome (aliases : Aliases) (event : Dict) : Bool :=
  okAnd (resolveRef aliases (refOf event)) Json.truthy

def tally {α : Type} [DecidableEq α] (counts : List (α × Nat)) (value : α) : Nat := (counts.lookup value).getD 0

/-- The findings are a partition of the events under a reference, in order, each with its own disposition. -/
structure Partitions (contracts : Contracts) (fromIsoFormat : String → Option Int) (nowText : String)
    (evidence : List Dict) (aliases : Aliases) (findings : List FindingDisposition) (summary : FindingsSummary) :
    Prop where
  counted : ∀ event ∈ evidence, resolvesToSome aliases event = true →
    ∃! finding, finding ∈ findings ∧ resolvesTo aliases finding.findingRef event = true
  total : (findings.map FindingDisposition.eventCount).sum = (evidence.filter (resolvesToSome aliases)).length
  increasing : findings.Pairwise fun left right =>
    Dict.precedes (chars left.findingRef) (chars right.findingRef) = true
  derived : ∀ finding ∈ findings,
    deriveDisposition contracts fromIsoFormat [("id", .str finding.findingRef)]
        (evidence.filter (resolvesTo aliases finding.findingRef)) nowText = .ok finding.disposition ∧
      finding.eventCount = (evidence.filter (resolvesTo aliases finding.findingRef)).length
  validity : ∀ value, tally summary.byValidity value =
    (findings.filter fun finding => finding.disposition.validity = value).length
  resolution : ∀ value, tally summary.byResolution value =
    (findings.filter fun finding => finding.disposition.resolution = value).length

inductive WithRestatements : List Dict → List Dict → Prop where
  | nil : WithRestatements [] []
  | keep (event : Dict) {events longer : List Dict} :
    WithRestatements events longer → WithRestatements (event :: events) (event :: longer)
  | insert {event : Dict} {events longer : List Dict} : isRestatement event = .ok true →
    WithRestatements events longer → WithRestatements events (event :: longer)

theorem applyRestatements_eq {events evidence : List Dict} (applied : applyRestatements events = .ok evidence) :
    evidence = evidenceOf events := by
  induction events generalizing evidence with
  | nil =>
    cases applied
    rfl
  | cons event events ih =>
    rcases bind_ok_iff.mp applied with ⟨restates, tested, applied⟩
    rcases bind_ok_iff.mp applied with ⟨later, walked, result⟩
    cases result
    rw [ih walked, evidenceOf, evidenceOf, List.filter_cons, tested]
    cases restates <;> rfl

theorem applyRestatements_total {events : List Dict}
    (tested : ∀ event ∈ events, ∃ restates, isRestatement event = .ok restates) :
    applyRestatements events = .ok (evidenceOf events) := by
  induction events with
  | nil => rfl
  | cons event events ih =>
    rw [List.forall_mem_cons] at tested
    rcases tested.1 with ⟨restates, test⟩
    rw [applyRestatements, test, ih tested.2, evidenceOf, evidenceOf, List.filter_cons, test]
    cases restates <;> rfl

theorem WithRestatements.applyRestatements_eq {events longer : List Dict} (more : WithRestatements events longer) :
    applyRestatements longer = applyRestatements events := by
  induction more with
  | nil => rfl
  | keep event _ ih => rw [applyRestatements, applyRestatements, ih]
  | @insert event events longer restates _ ih =>
    rw [applyRestatements, restates, ih]
    cases applyRestatements events <;> rfl

section Shapes

variable {contracts : Contracts} {event : Dict} {parsed : ParsedEvent}

theorem EventShape.isRestatement_total (shape : EventShape contracts)
    (read : contracts.parseEvent event = some parsed) : ∃ restates, isRestatement event = .ok restates := by
  rcases shape.source event parsed read with ⟨source, -, held, -⟩
  unfold isRestatement
  cases event.get "restatement" with
  | obj block => exact ⟨_, by rw [held]; rfl⟩
  | _ => exact ⟨false, rfl⟩

theorem lookup_aliasFields (mapping entry : Dict) :
    List.lookup "new_id" (aliasFields.foldl (fun entry field =>
      if mapping.has field then Dict.set entry field (mapping.get field) else entry) entry) =
      List.lookup "new_id" entry := by
  have other : ∀ field ∈ aliasFields, "new_id" ≠ field := by decide
  generalize aliasFields = fields at other
  induction fields generalizing entry with
  | nil => rfl
  | cons field fields ih =>
    rw [List.forall_mem_cons] at other
    rw [List.foldl_cons, ih _ other.2]
    split
    · rw [Dict.lookup_set, if_neg other.1]
    · rfl

theorem aliasEntry_names {mapping source actor : Dict} {newRef : String}
    (new : List.lookup "new_finding_ref" mapping = some (.str newRef)) (matched : Dict.has mapping "matched_by" = true)
    (held : event.get "source" = .obj source) (acting : Dict.get source "actor" = .obj actor) :
    ∃ entry, aliasEntry event mapping = .ok entry ∧ List.lookup "new_id" entry = some (.str newRef) := by
  rcases (Dict.has_iff_lookup mapping "matched_by").mp matched with ⟨by_, found⟩
  unfold aliasEntry item
  simp only [new, found, held, bind, Except.bind, pure, Except.pure, orEmpty, acting]
  generalize made : aliasFields.foldl (fun (entry : Dict) field =>
    if mapping.has field = true then entry.set field (mapping.get field) else entry) _ = entry
  have named : List.lookup "new_id" entry = some (Json.str newRef) := by
    rw [← made, lookup_aliasFields, Dict.lookup_ofList]
    rfl
  by_cases confirmed : (Dict.get entry "confirmed").truthy = true
  · rw [if_pos confirmed]
    by_cases known : (Dict.get actor "identity").truthy = true
    · rw [if_pos known]
      exact ⟨_, rfl, by simp [named]⟩
    · rw [if_neg known]
      exact ⟨_, rfl, named⟩
  · rw [if_neg confirmed]
    exact ⟨_, rfl, named⟩

theorem EventShape.addAlias_total (shape : EventShape contracts) (read : contracts.parseEvent event = some parsed)
    (out : Aliases) (named : ∀ entry ∈ out, NamesText entry.2) :
    ∃ next, addAlias out event = .ok next ∧ ∀ entry ∈ next, NamesText entry.2 := by
  have ref := shape.refs event parsed read
  rcases shape.source event parsed read with ⟨source, actor, held, acting⟩
  unfold addAlias
  rcases shape.successor event parsed read with absent | ⟨mapping, newRef, held', new, matched⟩
  · simp only [absent]
    exact ⟨out, rfl, named⟩
  · simp only [held', ref]
    by_cases blank : mapping = [] ∨ (Json.str parsed.findingRef).truthy = false
    · rw [if_pos blank]
      exact ⟨out, rfl, named⟩
    · rcases aliasEntry_names new matched held acting with ⟨entry, made, new⟩
      rw [if_neg blank, made]
      refine ⟨(.str parsed.findingRef, .obj entry) :: out, rfl, ?_⟩
      refine List.forall_mem_cons.mpr ⟨⟨entry, rfl, ?_⟩, named⟩
      intro newId found
      rw [new] at found
      cases found
      rfl

end Shapes

section Totality

variable {contracts : Contracts} {fromIsoFormat : String → Option Int} {nowText : String} {layer : Layer}

theorem Parseable.reads_evidence (parseable : Parseable contracts fromIsoFormat layer) {event : Dict}
    (stored : event ∈ evidenceOf layer.events) : ∃ pair, Reads contracts fromIsoFormat event pair :=
  parseable.events event (List.mem_of_mem_filter stored)

theorem Parseable.layerAliases_total (shape : EventShape contracts)
    (parseable : Parseable contracts fromIsoFormat layer) :
    ∃ aliases, layerAliases layer.metadata (evidenceOf layer.events) = .ok aliases ∧
      ∀ entry ∈ aliases, NamesText entry.2 := by
  have walked : ∃ added, aliasesFromEvents (evidenceOf layer.events) = .ok added ∧
      ∀ entry ∈ added, NamesText entry.2 := by
    refine foldlM_ok (P := fun aliases : Aliases => ∀ entry ∈ aliases, NamesText entry.2) ?_ (by simp)
    intro event stored out named
    rcases parseable.reads_evidence stored with ⟨pair, read, -⟩
    exact shape.addAlias_total read out named
  rcases walked with ⟨added, walked, named⟩
  unfold layerAliases
  rcases parseable.aliases with absent | ⟨table, held, texts⟩
  · rw [absent, walked]
    exact ⟨added ++ [], rfl, by simpa using named⟩
  · rw [held, walked]
    refine ⟨_, rfl, ?_⟩
    intro entry member
    rcases List.mem_append.mp member with early | late
    · exact named entry early
    · rcases List.mem_map.mp late with ⟨row, listed, rfl⟩
      exact texts row listed

theorem resolveRef_total {aliases : Aliases} (named : ∀ entry ∈ aliases, NamesText entry.2) (ref : String) :
    ∃ target, resolveRef aliases (.str ref) = .ok (.str target) := by
  have found : ∀ value, aliases.get (.str ref) = value → value = .null ∨ NamesText value := by
    rintro value rfl
    unfold Aliases.get
    cases found : aliases.find? fun entry => Json.pyEq entry.1 (.str ref) with
    | none => exact .inl rfl
    | some entry => exact .inr (named entry (List.mem_of_find?_eq_some found))
  unfold resolveRef
  rcases found _ rfl with absent | ⟨mapping, held, texts⟩
  · rw [absent]
    exact ⟨ref, rfl⟩
  · rw [held]
    by_cases confirmed : (Dict.get mapping "confirmed").truthy = true
    · cases new : List.lookup "new_id" mapping with
      | none => exact ⟨ref, by simp [Dict.getD, new, require, hashable, bind, Except.bind, pure, Except.pure]⟩
      | some newId =>
        have text := texts newId new
        cases newId with
        | str target =>
          exact ⟨target, by simp [confirmed, Dict.getD, new, require, hashable, bind, Except.bind, pure, Except.pure]⟩
        | _ => cases text
    · exact ⟨ref, by simp [confirmed, require, hashable, bind, Except.bind, pure, Except.pure]⟩

theorem Parseable.resolves (shape : EventShape contracts) (parseable : Parseable contracts fromIsoFormat layer)
    {aliases : Aliases} (named : ∀ entry ∈ aliases, NamesText entry.2) {event : Dict}
    (stored : event ∈ evidenceOf layer.events) :
    ∃ target, resolveRef aliases (refOf event) = .ok (.str target) ∧ attributed aliases (refOf event) = .str target := by
  rcases parseable.reads_evidence stored with ⟨pair, read, -⟩
  rw [shape.refs.refOf_eq read]
  rcases resolveRef_total named pair.2.findingRef with ⟨target, resolved⟩
  exact ⟨target, resolved, (resolveRef_ok resolved).symm⟩

theorem byFinding_total {aliases : Aliases} {evidence : List Dict}
    (resolves : ∀ event ∈ evidence, ∃ target, resolveRef aliases (refOf event) = .ok (.str target)) :
    ∃ groups, byFinding aliases evidence = .ok groups := by
  have each : ∀ event ∈ evidence, ∀ groups, True → ∃ next, addToFinding aliases groups event = .ok next ∧ True := by
    intro event stored groups _
    rcases resolves event stored with ⟨target, resolved⟩
    unfold addToFinding
    rw [refOf] at resolved
    rw [resolved]
    by_cases blank : (Json.str target).truthy = false
    · exact ⟨groups, by simp [blank, bind, Except.bind, pure, Except.pure], trivial⟩
    · exact ⟨groupUnder (.str target) event groups,
        by simp [blank, require, hashable, bind, Except.bind, pure, Except.pure], trivial⟩
  rcases foldlM_ok each (P := fun _ => True) trivial with ⟨groups, walked, -⟩
  exact ⟨groups, walked⟩

theorem sortedFindings_total {groups : List (Json × List Dict)}
    (texts : ∀ group ∈ groups, ∃ ref, group.1 = .str ref) : ∃ named, sortedFindings groups = .ok named := by
  have all : groups.all (fun group => isStr group.1) = true := by
    refine List.all_eq_true.mpr fun group member => ?_
    rcases texts group member with ⟨ref, text⟩
    rw [text]
    rfl
  have each : ∀ group ∈ groups, ∃ item, textKey group = .ok item ∧ True := by
    intro group member
    rcases texts group member with ⟨ref, text⟩
    exact ⟨(ref, group.2), by rw [show group = (Json.str ref, group.2) from Prod.ext text rfl]; rfl, trivial⟩
  rcases mapM_ok each with ⟨named, mapped, -⟩
  unfold sortedFindings
  rw [mapped]
  exact ⟨_, by simp only [all, true_or, require, if_true, bind, Except.bind, pure, Except.pure]; rfl⟩

theorem deriveDisposition_total {finding : Dict} {events : List Dict}
    (reads : ∀ event ∈ events, ∃ pair, Reads contracts fromIsoFormat event pair) :
    ∃ disposition, deriveDisposition contracts fromIsoFormat finding events nowText = .ok disposition := by
  have pairs : ∃ pairs, List.Forall₂ (Reads contracts fromIsoFormat) events pairs := by
    induction events with
    | nil => exact ⟨[], .nil⟩
    | cons event events ih =>
      rw [List.forall_mem_cons] at reads
      rcases reads.1 with ⟨pair, read⟩
      rcases ih reads.2 with ⟨pairs, others⟩
      exact ⟨pair :: pairs, .cons read others⟩
  rcases pairs with ⟨pairs, read⟩
  exact ⟨_, deriveDisposition_ok_iff.mpr ⟨_, chronological_ok_iff.mpr ⟨pairs, read, rfl⟩, rfl⟩⟩

theorem Parseable.resolveLayerFindings_total (shape : EventShape contracts)
    (parseable : Parseable contracts fromIsoFormat layer) :
    ∃ aliases findings summary, layerAliases layer.metadata (evidenceOf layer.events) = .ok aliases ∧
      resolveLayerFindings contracts fromIsoFormat nowText layer = .ok (findings, summary) := by
  have applied : applyRestatements layer.events = .ok (evidenceOf layer.events) := by
    refine applyRestatements_total fun event stored => ?_
    rcases parseable.events event stored with ⟨pair, read, -⟩
    exact shape.isRestatement_total read
  rcases parseable.layerAliases_total shape with ⟨aliases, merged, named⟩
  rcases byFinding_total fun event stored => ⟨_, (parseable.resolves shape named stored).choose_spec.1⟩
    with ⟨groups, walked⟩
  have grouped := byFinding_ok walked
  have texts : ∀ group ∈ groups, ∃ ref, group.1 = .str ref := by
    intro group member
    rcases grouped.keys group member with ⟨event, stored, key, -⟩
    rcases parseable.resolves shape named stored with ⟨target, -, text⟩
    exact ⟨target, key.trans text⟩
  rcases sortedFindings_total texts with ⟨sorted, listed⟩
  -- the events of a group are events of the layer, and read
  have each : ∀ item ∈ sorted, ∃ finding,
      resolveFinding contracts fromIsoFormat nowText layer.metadata item = .ok finding ∧ True := by
    intro item member
    have held := (sortedFindings_ok listed).2 item member
    have reads : ∀ event ∈ item.2, ∃ pair, Reads contracts fromIsoFormat event pair := by
      intro event stored
      rw [← grouped.distinct.heldUnder_eq held, grouped.held] at stored
      exact parseable.reads_evidence (List.mem_of_mem_filter stored)
    rcases deriveDisposition_total reads with ⟨disposition, derived⟩
    exact ⟨_, by rw [resolveFinding, derived]; rfl, trivial⟩
  rcases mapM_ok each with ⟨findings, mapped, -⟩
  refine ⟨aliases, findings, ⟨counter (findings.map fun finding => finding.disposition.validity),
    counter (findings.map fun finding => finding.disposition.resolution)⟩, merged, ?_⟩
  simp only [resolveLayerFindings, applied, merged, walked, listed, mapped, bind, Except.bind, pure, Except.pure]

end Totality

section Cells

variable {aliases : Aliases} {evidence : List Dict} {groups : List (Json × List Dict)}
  {named : List (String × List Dict)}

theorem byFinding_resolves (walked : byFinding aliases evidence = .ok groups) :
    ∀ event ∈ evidence, resolveRef aliases (refOf event) = .ok (attributed aliases (refOf event)) := by
  induction evidence using List.reverseRecOn generalizing groups with
  | nil => simp
  | append_singleton evidence event ih =>
    rw [byFinding, List.foldlM_append] at walked
    rcases bind_ok_iff.mp walked with ⟨earlier, before, last⟩
    rcases bind_ok_iff.mp last with ⟨after, added, -⟩
    rcases bind_ok_iff.mp added with ⟨target, resolved, -⟩
    intro other member
    rcases List.mem_append.mp member with early | late
    · exact ih before other early
    · rw [List.mem_singleton] at late
      subst late
      rw [resolveRef_ok resolved] at resolved
      exact resolved

def sizes (groups : List (Json × List Dict)) : Nat := (groups.map fun group => group.2.length).sum

theorem sizes_groupUnder (ref : Json) (event : Dict) (groups : List (Json × List Dict)) :
    sizes (groupUnder ref event groups) = sizes groups + 1 := by
  induction groups with
  | nil => rfl
  | cons group groups ih =>
    unfold groupUnder
    by_cases same : Json.pyEq group.1 ref = true
    · rw [if_pos same]
      simp only [sizes, List.map_cons, List.sum_cons, List.length_append, List.length_singleton]
      omega
    · rw [if_neg same]
      simp only [sizes, List.map_cons, List.sum_cons] at ih ⊢
      omega

theorem sizes_byFinding (walked : byFinding aliases evidence = .ok groups) :
    sizes groups = (evidence.filter (resolvesToSome aliases)).length := by
  induction evidence using List.reverseRecOn generalizing groups with
  | nil =>
    cases walked
    rfl
  | append_singleton evidence event ih =>
    have resolved := byFinding_resolves walked event (by simp)
    rw [byFinding, List.foldlM_append] at walked
    rcases bind_ok_iff.mp walked with ⟨earlier, before, last⟩
    rcases bind_ok_iff.mp last with ⟨after, added, result⟩
    cases result
    have test : resolvesToSome aliases event = (attributed aliases (refOf event)).truthy := by
      rw [resolvesToSome, resolved]
      rfl
    have placed := added
    rw [addToFinding, show event.getD "finding_ref" (.str "") = refOf event from rfl, resolved] at placed
    rw [List.filter_append, List.length_append, ← ih before, List.filter_singleton, test]
    by_cases blank : (attributed aliases (refOf event)).truthy = false
    · simp only [bind, Except.bind, if_pos blank] at placed
      cases placed
      simp [blank]
    · simp only [bind, Except.bind, if_neg blank] at placed
      cases gate_passed placed
      simp [blank, sizes_groupUnder]

theorem sortedFindings_perm (sorted : sortedFindings groups = .ok named) :
    (named.map fun item => (Json.str item.1, item.2)).Perm groups := by
  rcases bind_ok_iff.mp (gate_passed sorted) with ⟨listed, mapped, result⟩
  cases result
  have same : groups = listed.map fun item => (Json.str item.1, item.2) := by
    have pairs := mapM_ok_iff.mp mapped
    clear sorted mapped
    induction pairs with
    | nil => rfl
    | cons head _ ih => rw [List.map_cons, ← ih, textKey_ok head]
  rw [same]
  exact (List.perm_insertionSort _ listed).map _

theorem sortedFindings_increasing (distinct : DistinctKeys groups) (sorted : sortedFindings groups = .ok named) :
    named.Pairwise fun left right => Dict.precedes (chars left.1) (chars right.1) = true := by
  have apart : named.Pairwise fun left right => left.1 ≠ right.1 := by
    have symm : ∀ {left right : Json × List Dict}, Json.pyEq left.1 right.1 = false →
        Json.pyEq right.1 left.1 = false := by
      intro left right differ
      by_contra same
      exact absurd (Json.pyEq_symm (by simpa using same)) (by simpa using differ)
    have moved := ((sortedFindings_perm sorted).pairwise_iff symm).mpr distinct
    rw [List.pairwise_map] at moved
    refine moved.imp ?_
    intro left right differ same
    simp [same] at differ
  rcases bind_ok_iff.mp (gate_passed sorted) with ⟨listed, -, result⟩
  cases result
  have total : Std.Total fun left right : String × List Dict => Dict.precedes (chars right.1) (chars left.1) = false :=
    ⟨fun left right => Dict.not_precedes_total (chars left.1) (chars right.1)⟩
  have trans : IsTrans (String × List Dict) fun left right => Dict.precedes (chars right.1) (chars left.1) = false :=
    ⟨fun _ _ _ => Dict.not_precedes_trans⟩
  refine ((List.pairwise_insertionSort _ listed).and apart).imp ?_
  intro left right given
  rcases given with ⟨order, differ⟩
  rcases Dict.precedes_total (fun same => differ (chars_injective same)) with first | second
  · exact first
  · rw [order] at second
    cases second

end Cells

theorem tally_counter {α β : Type} [DecidableEq β] (items : List α) (value : α → β) (key : β) :
    tally (counter (items.map value)) key = (items.filter fun item => value item = key).length := by
  have found : ∀ keys : List β, List.lookup key (keys.map fun held => (held, (items.map value).count held)) =
      if key ∈ keys then some ((items.map value).count key) else none := by
    intro keys
    induction keys with
    | nil => simp
    | cons held keys ih =>
      rw [List.map_cons, List.lookup_cons]
      by_cases same : key = held
      · simp [same]
      · rw [beq_false_of_ne same, ih]
        simp [same]
  have counted : (items.filter fun item => value item = key).length = (items.map value).count key := by
    rw [List.count, List.countP_map, List.countP_eq_length_filter]
    rfl
  rw [tally, counter, found, counted]
  by_cases listed : key ∈ (items.map value).dedup
  · rw [if_pos listed, Option.getD_some]
  · rw [if_neg listed, Option.getD_none]
    rw [List.mem_dedup] at listed
    exact (List.count_eq_zero.mpr listed).symm

section Results

variable {contracts : Contracts} {fromIsoFormat : String → Option Int} {nowText : String} {layer : Layer}
  {evidence : List Dict} {aliases : Aliases} {groups : List (Json × List Dict)} {named : List (String × List Dict)}
  {findings : List FindingDisposition} {summary : FindingsSummary}

theorem held_eq_filter (walked : byFinding aliases evidence = .ok groups) (sorted : sortedFindings groups = .ok named)
    {item : String × List Dict} (member : item ∈ named) :
    item.2 = evidence.filter (resolvesTo aliases item.1) := by
  have grouped := byFinding_ok walked
  have known := (sortedFindings_ok sorted).2 item member
  rcases grouped.keys _ known with ⟨-, -, -, truthy⟩
  rw [← grouped.distinct.heldUnder_eq known, grouped.held]
  refine List.filter_congr fun event stored => ?_
  rw [resolvesTo, byFinding_resolves walked event stored, Json.pyEq_str]
  by_cases here : attributed aliases (refOf event) = .str item.1
  · simp [okAnd, here, truthy]
  · simp [okAnd, here]

theorem held_ne_nil (walked : byFinding aliases evidence = .ok groups) (sorted : sortedFindings groups = .ok named)
    {item : String × List Dict} (member : item ∈ named) : item.2 ≠ [] := by
  have grouped := byFinding_ok walked
  have known := (sortedFindings_ok sorted).2 item member
  rcases grouped.keys _ known with ⟨event, stored, key, truthy⟩
  have placed : event ∈ heldUnder groups (.str item.1) := by
    rw [grouped.held]
    exact List.mem_filter.mpr ⟨stored, by simp [← key, truthy]⟩
  rw [grouped.distinct.heldUnder_eq known] at placed
  exact List.ne_nil_of_mem placed

theorem heldUnder_mem {ref : Json} {event : Dict} (member : event ∈ heldUnder groups ref) :
    ∃ group ∈ groups, Json.pyEq group.1 ref = true := by
  unfold heldUnder at member
  cases found : groups.find? fun group => Json.pyEq group.1 ref with
  | none => simp [found] at member
  | some group => exact ⟨group, List.mem_of_find?_eq_some found, by simpa using List.find?_some found⟩

theorem eq_of_findingRef
    (ascending : findings.Pairwise fun left right =>
      Dict.precedes (chars left.findingRef) (chars right.findingRef) = true)
    {first second : FindingDisposition} (early : first ∈ findings) (late : second ∈ findings)
    (same : first.findingRef = second.findingRef) : first = second := by
  have apart : (findings.map FindingDisposition.findingRef).Nodup :=
    List.pairwise_map.mpr (ascending.imp fun before => (Dict.ne_of_precedes before).symm)
  exact List.inj_on_of_nodup_map apart early late same

theorem partitions_of_run (walked : byFinding aliases evidence = .ok groups)
    (sorted : sortedFindings groups = .ok named)
    (mapped : List.Forall₂ (fun item finding =>
      resolveFinding contracts fromIsoFormat nowText layer.metadata item = .ok finding) named findings) :
    Partitions contracts fromIsoFormat nowText evidence aliases findings
      ⟨counter (findings.map fun finding => finding.disposition.validity),
        counter (findings.map fun finding => finding.disposition.resolution)⟩ := by
  have grouped := byFinding_ok walked
  have increasing := sortedFindings_increasing grouped.distinct sorted
  have refs : findings.map FindingDisposition.findingRef = named.map Prod.fst := by
    clear sorted increasing
    induction mapped with
    | nil => rfl
    | cons computed _ ih => rw [List.map_cons, List.map_cons, ih, (resolveFinding_ok computed).1]
  have counts : findings.map FindingDisposition.eventCount = named.map fun item => item.2.length := by
    clear sorted increasing refs
    induction mapped with
    | nil => rfl
    | cons computed _ ih => rw [List.map_cons, List.map_cons, ih, (resolveFinding_ok computed).2.1]
  have ascending : findings.Pairwise fun left right =>
      Dict.precedes (chars left.findingRef) (chars right.findingRef) = true := by
    have moved : (findings.map FindingDisposition.findingRef).Pairwise fun left right =>
        Dict.precedes (chars left) (chars right) = true := by
      rw [refs, List.pairwise_map]
      exact increasing
    rwa [List.pairwise_map] at moved
  refine ⟨?_, ?_, ascending, ?_, fun value => tally_counter findings _ value, fun value => tally_counter findings _ value⟩
  · intro event stored known
    have resolved := byFinding_resolves walked event stored
    rw [resolvesToSome, resolved] at known
    have placed : event ∈ heldUnder groups (attributed aliases (refOf event)) := by
      rw [grouped.held]
      exact List.mem_filter.mpr ⟨stored, by simpa [okAnd] using known⟩
    rcases heldUnder_mem placed with ⟨group, listed, same⟩
    rcases (sortedFindings_ok sorted).1 group listed with ⟨ref, text, member⟩
    rcases mapM_of_mem (mapM_ok_iff.mpr mapped) member with ⟨finding, found, computed⟩
    have target : attributed aliases (refOf event) = .str finding.findingRef := by
      rw [text] at same
      simpa [(resolveFinding_ok computed).1] using Json.pyEq_symm same
    refine ⟨finding, ⟨found, by simp [resolvesTo, resolved, okAnd, target]⟩, ?_⟩
    intro other given
    rcases given with ⟨member', here⟩
    rw [resolvesTo, resolved, okAnd, target, decide_eq_true_eq, Json.str.injEq] at here
    exact eq_of_findingRef ascending member' found here.symm
  · have total := ((sortedFindings_perm sorted).map fun group => group.2.length).sum_nat
    rw [List.map_map] at total
    rw [counts, ← sizes_byFinding walked]
    exact total
  · intro finding member
    rcases mem_of_mapM (mapM_ok_iff.mpr mapped) member with ⟨item, listed, computed⟩
    rcases resolveFinding_ok computed with ⟨ref, count, derived⟩
    rw [ref, ← held_eq_filter walked sorted listed]
    exact ⟨derived, count⟩

theorem deriveDisposition_time {finding : Dict} {events : List Dict} (some_event : events ≠ []) (first second : String) :
    deriveDisposition contracts fromIsoFormat finding events first =
      deriveDisposition contracts fromIsoFormat finding events second := by
  unfold deriveDisposition
  cases coerced : events.mapM (coerce contracts) with
  | error failure => rfl
  | ok parsed =>
    cases paired : parsed.mapM (dated fromIsoFormat) with
    | error failure => simp only [bind, Except.bind, paired]
    | ok pairs =>
      have count : pairs.length = events.length := by
        rw [(mapM_ok_iff.mp coerced).length_eq, (mapM_ok_iff.mp paired).length_eq]
      have held : pairs.insertionSort (fun left right => left.1 ≤ right.1) ≠ [] := by
        intro empty
        have none := congrArg List.length empty
        rw [List.length_insertionSort, count] at none
        exact some_event (List.eq_nil_of_length_eq_zero none)
      simp only [bind, Except.bind, paired, pure, Except.pure, mergeDisposition]
      rw [List.getLast?_eq_getLast_of_ne_nil held]
      rfl

theorem resolveLayerFindings_time (first second : String) :
    resolveLayerFindings contracts fromIsoFormat first layer =
      resolveLayerFindings contracts fromIsoFormat second layer := by
  refine bind_congr_ok fun evidence applied => bind_congr_ok fun aliases merged => ?_
  refine bind_congr_ok fun groups walked => bind_congr_ok fun named sorted => ?_
  have same : named.mapM (resolveFinding contracts fromIsoFormat first layer.metadata) =
      named.mapM (resolveFinding contracts fromIsoFormat second layer.metadata) := by
    refine mapM_congr fun item member => ?_
    rw [resolveFinding, resolveFinding, deriveDisposition_time (held_ne_nil walked sorted member) first second]
  rw [same]

end Results

/-- The findings partition the log, and restatements in it are not seen. -/
theorem findings_partition_log (contracts : Contracts) (shape : EventShape contracts)
    (fromIsoFormat : String → Option Int) (nowText : String) (layer : Layer)
    (parseable : Parseable contracts fromIsoFormat layer) :
    (∃ aliases findings summary, layerAliases layer.metadata (evidenceOf layer.events) = .ok aliases ∧
      resolveLayerFindings contracts fromIsoFormat nowText layer = .ok (findings, summary) ∧
      Partitions contracts fromIsoFormat nowText (evidenceOf layer.events) aliases findings summary) ∧
    ∀ longer later, WithRestatements layer.events longer →
      resolveLayerFindings contracts fromIsoFormat later { layer with events := longer } =
        resolveLayerFindings contracts fromIsoFormat nowText layer := by
  refine ⟨?_, ?_⟩
  · rcases parseable.resolveLayerFindings_total shape with ⟨aliases, findings, summary, merged, resolved⟩
    refine ⟨aliases, findings, summary, merged, resolved, ?_⟩
    rcases resolveLayerFindings_named resolved with
      ⟨evidence, others, groups, named, applied, known, walked, sorted, mapped, rfl⟩
    cases applyRestatements_eq applied
    cases merged.symm.trans known
    exact partitions_of_run walked sorted mapped
  · intro longer later more
    rw [resolveLayerFindings_time nowText later, resolveLayerFindings, resolveLayerFindings, more.applyRestatements_eq]

def aliasReads (event : Dict) : Bool :=
  match event.get "alias" with
  | .null => true
  | .obj mapping => Dict.has mapping "matched_by" && (List.lookup "new_finding_ref" mapping).any isStr
  | _ => false

def aliasContracts : Contracts := { referenceContracts with
  parseEvent := fun event => if aliasReads event then readEvent event else none
  parse_dump := fun event dump stored layer accepted same _ _ => by
    cases accepted
    have none : aliasReads stored = true := by
      unfold aliasReads
      rw [Dict.get, same _ (by decide) (by decide), ← Dict.get]
      simp [dumpLayerEvent, Dict.get_cons]
    simpa only [none, if_true] using readEvent_dump event same }

theorem aliasContracts_shape : EventShape aliasContracts := by
  have split : ∀ event parsed, aliasContracts.parseEvent event = some parsed →
      aliasReads event = true ∧ readEvent event = some parsed := by
    intro event parsed read
    change (if aliasReads event then readEvent event else none) = some parsed at read
    split at read
    · next reads => exact ⟨reads, read⟩
    · cases read
  constructor
  · intro event parsed read
    rcases readEvent_some (split event parsed read).2 with ⟨-, -, ref, -⟩
    exact ref
  · intro event parsed read
    rcases readEvent_some (split event parsed read).2 with ⟨source, actor, -, held, acting⟩
    exact ⟨source, actor, held, acting⟩
  · intro event parsed read
    have held := (split event parsed read).1
    unfold aliasReads at held
    cases value : event.get "alias" with
    | null => exact .inl rfl
    | obj mapping =>
      rw [value, Bool.and_eq_true, Option.any_eq_true] at held
      rcases held with ⟨matched, newRef, found, text⟩
      cases newRef with
      | str ref => exact .inr ⟨mapping, ref, rfl, found, matched⟩
      | _ => cases text
    | _ =>
      rw [value] at held
      cases held

def restatedEvent : Dict :=
  Dict.ofList [("event_id", .str "0123456789abcdef"), ("finding_ref", .str layerScopeRef),
    ("recorded_at", .str morning),
    ("source", .obj (Dict.ofList [("type", .str "restatement"), ("ref", .str "restatement:1"), ("actor", .obj reviewer)])),
    ("disposition", .obj []), ("restatement", .obj moveOne)]

theorem renamedLayer_parseable : Parseable aliasContracts clockEnv.fromIsoFormat renamedLayer := by
  have reads : (renamedLayer.events.all fun event => (aliasContracts.parseEvent event).any fun parsed =>
      (clockEnv.fromIsoFormat parsed.recordedAt).isSome) = true := by
    decide +kernel
  refine ⟨?_, .inl rfl⟩
  intro event stored
  rcases (Option.any_eq_true _ _).mp (List.all_eq_true.mp reads event stored) with ⟨parsed, read, known⟩
  rcases Option.isSome_iff_exists.mp known with ⟨instant, found⟩
  exact ⟨(instant, parsed), read, found⟩

theorem findings_partition_log_renamed :
    (∃ aliases findings summary, layerAliases renamedLayer.metadata (evidenceOf renamedLayer.events) = .ok aliases ∧
      resolveLayerFindings aliasContracts clockEnv.fromIsoFormat evening renamedLayer = .ok (findings, summary) ∧
      Partitions aliasContracts clockEnv.fromIsoFormat evening (evidenceOf renamedLayer.events) aliases findings
        summary) ∧
    resolveLayerFindings aliasContracts clockEnv.fromIsoFormat noon
        ⟨[], [proofRun sampleInstant, restatedEvent, confirmedRename "FIND-1" "FIND-2" morning], []⟩ =
      resolveLayerFindings aliasContracts clockEnv.fromIsoFormat evening renamedLayer := by
  rcases findings_partition_log aliasContracts aliasContracts_shape clockEnv.fromIsoFormat evening renamedLayer
    renamedLayer_parseable with ⟨partition, unseen⟩
  exact ⟨partition, unseen _ noon (.keep _ (.insert (by decide +kernel) (.keep _ .nil)))⟩

end LedgerProof
