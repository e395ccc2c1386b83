import TraustLedger.Proofs.HumanDecisions
import TraustLedger.Proofs.WriterLog

namespace LedgerProof

open Hashing Python Runs Sha256 LedgerModel

variable {env : Env} {layer next : Layer}

def stampOf (event : Dict) : Json × Json × Json :=
  (event.get "finding_ref", event.get "fingerprint", event.get "fingerprint_algo")

def CarriesStamp (layer : Layer) (stamp : Json × Json × Json) : Prop :=
  ∃ event ∈ layer.events, (event.get "fingerprint").truthy = true ∧ stampOf event = stamp

def carriesFor (findingRef : String) (event : Dict) : Bool :=
  event.get "finding_ref" = .str findingRef && (event.get "fingerprint").truthy

def stampSource (layer : Layer) (findingRef : String) : Option Dict :=
  layer.events.reverse.find? (carriesFor findingRef)

/-- Where there is a fingerprint to copy, an event of the finding carries it under the current recipe. -/
def CurrentRecipe (layer : Layer) (findingRef : String) : Prop :=
  ∀ source, stampSource layer findingRef = some source →
    CarriesStamp layer (.str findingRef, source.get "fingerprint", .str algoVersion)

def humanLane (rawKind : String) : Prop := rawKind = "countersign" ∨ rawKind = "severity"

structure StoredCopy (env : Env) (moment : Moment) (rawKind : String) (rawEvent : Dict) (actor : LayerActor)
    (layer next : Layer) (stored : Dict) : Prop where
  accepted : ∃ receipt, submitEvent env moment rawKind rawEvent actor layer = .ok (next, receipt)
  lane : humanLane rawKind
  added : next.events = layer.events ++ [stored]
  stamped : (stored.get "fingerprint").truthy = true

section Copying

theorem stampSource_carries {findingRef : String} {source : Dict} (found : stampSource layer findingRef = some source) :
    source ∈ layer.events ∧ source.get "finding_ref" = .str findingRef ∧ (source.get "fingerprint").truthy = true := by
  have member := List.mem_reverse.mp (List.mem_of_find?_eq_some found)
  have carries := List.find?_some found
  simp only [carriesFor, Bool.and_eq_true, decide_eq_true_eq] at carries
  exact ⟨member, carries⟩

theorem find_index {findingRef : String} (named : findingRef ≠ "") (events : List Dict) :
    (((events.filter fun held => (held.get "finding_ref").truthy && (held.get "fingerprint").truthy).map fun held =>
        (held.get "finding_ref", held.get "fingerprint")).find?
      fun entry => Json.pyEq entry.1 (.str findingRef)).map Prod.snd =
      (events.find? (carriesFor findingRef)).map fun held => held.get "fingerprint" := by
  have test : ∀ held : Dict, ((held.get "finding_ref").truthy && (held.get "fingerprint").truthy &&
      Json.pyEq (held.get "finding_ref") (.str findingRef)) = carriesFor findingRef held := by
    intro held
    rw [carriesFor, Json.pyEq_str]
    by_cases same : held.get "finding_ref" = .str findingRef
    · simp [same, Json.truthy, named]
    · simp [same]
  rw [List.find?_map, Option.map_map, List.find?_filter]
  congr 1
  refine congrArg (fun p => List.find? p events) ?_
  funext held
  rw [← test held, Bool.decide_and, Bool.decide_eq_true, Bool.decide_eq_true]
  rfl

section Payload

variable {payload : Dict} {findingRef : String} (named : findingRef ≠ "")
  (ref : payload.get "finding_ref" = .str findingRef) (bare : payload.get "fingerprint" = .null)

include named ref bare

theorem resolveFingerprint_none (none : stampSource layer findingRef = none) :
    resolveFingerprintFromLayer payload layer = payload := by
  have found := find_index named layer.events.reverse
  rw [← stampSource, none, List.filter_reverse, List.map_reverse] at found
  simp only [resolveFingerprintFromLayer, attachIdentity, bare, ref, found]
  rfl

theorem resolveFingerprint_some {source : Dict} (held : stampSource layer findingRef = some source) :
    resolveFingerprintFromLayer payload layer =
      (payload.set "fingerprint" (source.get "fingerprint")).set "fingerprint_algo" (.str algoVersion) := by
  have found := find_index named layer.events.reverse
  rw [← stampSource, held, List.filter_reverse, List.map_reverse] at found
  have filled : (((source.get "fingerprint").truthy) = true) := (stampSource_carries held).2.2
  simp only [resolveFingerprintFromLayer, attachIdentity, bare, ref, found, Option.map_some, Option.getD_some, filled,
    if_true]
  rfl

end Payload

end Copying

section Submitting

theorem parsed_lane {rawKind : String} (lane : humanLane rawKind) :
    ∃ kind, parseEventKind rawKind = .ok kind ∧ (kind = .countersign ∨ kind = .severity) := by
  rcases lane with rfl | rfl
  · exact ⟨.countersign, rfl, Or.inl rfl⟩
  · exact ⟨.severity, rfl, Or.inr rfl⟩

theorem prepared_stamp {payload prepared : Dict} {findingRef id : String} (named : findingRef ≠ "")
    (ref : payload.get "finding_ref" = .str findingRef) (bare : payload.get "fingerprint" = .null)
    (preparation : prepareEvent env.hash (resolveFingerprintFromLayer payload layer) = .ok (prepared, id)) :
    prepared.get "finding_ref" = .str findingRef ∧
      ((stampSource layer findingRef = none ∧ prepared.get "fingerprint" = .null) ∨
        ∃ source, stampSource layer findingRef = some source ∧
          prepared.get "fingerprint" = source.get "fingerprint" ∧
          prepared.get "fingerprint_algo" = .str algoVersion) := by
  rcases prepareEvent_ok_iff.mp preparation with ⟨-, -, -, -, rfl⟩
  cases held : stampSource layer findingRef with
  | none =>
    rw [resolveFingerprint_none named ref bare held]
    have unstamped : stampFingerprintAlgo (payload.set "event_id" (.str id)) = payload.set "event_id" (.str id) := by
      simp [stampFingerprintAlgo, bare, Json.truthy]
    rw [unstamped]
    simp [ref, bare]
  | some source =>
    rw [resolveFingerprint_some named ref bare held]
    have stamped : ∀ event : Dict, event.get "fingerprint_algo" = .str algoVersion →
        stampFingerprintAlgo (event.set "event_id" (.str id)) = event.set "event_id" (.str id) := by
      intro event current
      simp [stampFingerprintAlgo, current, Json.truthy, algoVersion]
    rw [stamped _ (by simp)]
    simp [ref]

theorem submitEvent_stamp {moment : Moment} {rawKind : String} {rawEvent : Dict} {actor : LayerActor}
    {receipt : Receipt} (lane : humanLane rawKind)
    (accepted : submitEvent env moment rawKind rawEvent actor layer = .ok (next, receipt)) :
    next.events = layer.events ∨ ∃ stored, next.events = layer.events ++ [stored] ∧
      stored.get "finding_ref" = .str (submittedRef rawEvent) ∧
      ((stampSource layer (submittedRef rawEvent) = none ∧ stored.get "fingerprint" = .null) ∨
        ∃ source, stampSource layer (submittedRef rawEvent) = some source ∧
          stored.get "fingerprint" = source.get "fingerprint" ∧
          stored.get "fingerprint_algo" = .str algoVersion) := by
  rcases parsed_lane lane with ⟨kind, known, human⟩
  rcases submitEvent_human known human accepted with
    ⟨-, -, built, prepared, payload, origin, dump, -, -, named, ⟨id, preparation⟩, events⟩
  have ref : payload.get "finding_ref" = .str (submittedRef rawEvent) := by
    rw [env.contracts.event_finding_ref _ _ dump, origin.findingRef]
  split at events
  · exact Or.inl events
  · exact Or.inr ⟨prepared, events, prepared_stamp named ref (env.contracts.event_fingerprint _ _ dump) preparation⟩

variable {moment : Moment} {rawKind : String} {rawEvent stored : Dict} {actor : LayerActor}

theorem StoredCopy.source (copy : StoredCopy env moment rawKind rawEvent actor layer next stored) :
    ∃ source, stampSource layer (submittedRef rawEvent) = some source ∧
      stampOf stored = (.str (submittedRef rawEvent), source.get "fingerprint", .str algoVersion) := by
  rcases copy.accepted with ⟨receipt, accepted⟩
  rcases submitEvent_stamp copy.lane accepted with same | ⟨event, added, ref, bare | ⟨source, held, print, algo⟩⟩
  · rw [copy.added] at same
    simp at same
  · rw [copy.added, List.append_cancel_left_eq, List.cons.injEq] at added
    have filled := copy.stamped
    rw [added.1, bare.2] at filled
    cases filled
  · rw [copy.added, List.append_cancel_left_eq, List.cons.injEq] at added
    refine ⟨source, held, ?_⟩
    rw [stampOf, added.1, ref, print, algo]

end Submitting

section Copies

def copiesFor : Call → Option String
  | .submitEvent _ rawKind rawEvent _ =>
    if rawKind = "countersign" ∨ rawKind = "severity" then some (submittedRef rawEvent) else none
  | _ => none

/-- A human submission copies under the recipe that made the fingerprint, and every other call brings stamps that are
    minted, if it brings any. -/
def KeepsRecipe (env : Env) (minted : Json × Json × Json → Prop) (layer : Layer) (call : Call) : Prop :=
  (∀ findingRef, copiesFor call = some findingRef → CurrentRecipe layer findingRef) ∧
    (copiesFor call = none → ∀ next, step env layer call = .ok next → ∀ stamp, CarriesStamp next stamp →
      CarriesStamp layer stamp ∨ minted stamp)

theorem step_minted {minted : Json × Json × Json → Prop} {call : Call}
    (known : ∀ stamp, CarriesStamp layer stamp → minted stamp) (keeps : KeepsRecipe env minted layer call)
    (accepted : step env layer call = .ok next) : ∀ stamp, CarriesStamp next stamp → minted stamp := by
  intro stamp carried
  cases lane : copiesFor call with
  | none =>
    rcases keeps.2 lane next accepted stamp carried with held | new
    · exact known stamp held
    · exact new
  | some findingRef =>
    have current := keeps.1 findingRef lane
    cases call with
    | submitEvent moment rawKind rawEvent actor =>
      simp only [copiesFor, Option.ite_none_right_eq_some, Option.some.injEq] at lane
      rcases lane with ⟨human, rfl⟩
      rcases map_fst_ok accepted with ⟨receipt, submitted⟩
      rcases carried with ⟨event, member, filled, rfl⟩
      rcases submitEvent_stamp human submitted with same | ⟨stored, added, ref, bare | ⟨source, held, print, algo⟩⟩
      · exact known _ ⟨event, same ▸ member, filled, rfl⟩
      · rw [added] at member
        rcases List.mem_append.mp member with old | new
        · exact known _ ⟨event, old, filled, rfl⟩
        · rw [List.mem_singleton.mp new, bare.2] at filled
          cases filled
      · rw [added] at member
        rcases List.mem_append.mp member with old | new
        · exact known _ ⟨event, old, filled, rfl⟩
        · have carried := current source held
          rw [← ref, ← print, ← algo] at carried
          rw [List.mem_singleton.mp new]
          exact known _ carried
    | _ => cases lane

/-- A copied fingerprint keeps the recipe of an earlier event of its finding exactly where one of them carries it under
    the current recipe, and in a run of such copies every stamp is one that was there or that another call brought. -/
theorem copied_stamp_iff (env : Env) :
    (∀ {moment rawKind rawEvent actor layer next stored},
      StoredCopy env moment rawKind rawEvent actor layer next stored →
        (CarriesStamp layer (stampOf stored) ↔ CurrentRecipe layer (submittedRef rawEvent))) ∧
      ∀ {minted : Json × Json × Json → Prop} {layer calls}, (∀ stamp, CarriesStamp layer stamp → minted stamp) →
        Along (step env) (KeepsRecipe env minted) layer calls →
          ∀ held ∈ visited (step env) layer calls, ∀ stamp, CarriesStamp held stamp → minted stamp := by
  constructor
  · intro moment rawKind rawEvent actor layer next stored copy
    rcases copy.source with ⟨source, held, stamp⟩
    rw [stamp]
    constructor
    · intro carried other found
      rw [held, Option.some.injEq] at found
      rwa [← found]
    · intro current
      exact current source held
  · intro minted layer calls known along
    exact visited_invariant (fun _ _ _ known keeps accepted => step_minted known keeps accepted) known along

def scanned (fields : List (String × Json)) : Call :=
  .submitBatch late "acme" ⟨"scan-1", morning, [Dict.ofList ([("finding_ref", .str "FIND-1"),
    ("source", .obj [("ref", .str "scan-1"), ("type", .str "scan")]), ("fingerprint", .str "f1")] ++ fields)], []⟩
    scannerAccount

def scannedLayer (fields : List (String × Json)) : Layer := run (step clockEnv) oneClaim [scanned fields]

theorem exists_storedCopy (env : Env) (moment : Moment) {rawKind : String} (rawEvent : Dict) (actor : LayerActor)
    (layer : Layer) (lane : humanLane rawKind)
    (source : (stampSource layer (submittedRef rawEvent)).isSome = true)
    (accepted : okAnd (submitEvent env moment rawKind rawEvent actor layer)
      (fun answer => answer.1.events ≠ layer.events) = true) :
    ∃ next stored, StoredCopy env moment rawKind rawEvent actor layer next stored := by
  rcases okAnd_iff.mp accepted with ⟨⟨next, receipt⟩, accepted, changed⟩
  rw [decide_eq_true_eq] at changed
  rcases submitEvent_stamp lane accepted with same | ⟨stored, added, _, bare | ⟨held, found, print, _⟩⟩
  · exact absurd same changed
  · rw [bare.1] at source
    cases source
  · refine ⟨next, stored, ⟨receipt, accepted⟩, lane, added, ?_⟩
    rw [print]
    exact (stampSource_carries found).2.2

theorem copied_stamp_current : ∃ next stored,
    StoredCopy clockEnv late "countersign" (decisionAt "keep_open" noon) verifiedAdmin (scannedLayer []) next stored ∧
      CarriesStamp (scannedLayer []) (stampOf stored) := by
  rcases exists_storedCopy clockEnv late (decisionAt "keep_open" noon) verifiedAdmin (scannedLayer []) (Or.inl rfl)
    (by decide +kernel) (by decide +kernel) with ⟨next, stored, copy⟩
  refine ⟨next, stored, copy, ((copied_stamp_iff clockEnv).1 copy).mpr ?_⟩
  intro source held
  rcases stampSource_carries held with ⟨member, ref, filled⟩
  have current : (scannedLayer []).events.all (fun event => event.get "fingerprint_algo" = .str algoVersion) = true := by
    decide +kernel
  have algo := of_decide_eq_true (List.all_eq_true.mp current source member)
  exact ⟨source, member, filled, by rw [stampOf, ref, algo]⟩

/-- A fingerprint of the first recipe, copied once, reads as one of the current recipe. -/
theorem copied_stamp_relabelled : ∃ layer, Reachable clockEnv layer ∧ ∃ next stored,
    StoredCopy clockEnv late "countersign" (decisionAt "keep_open" noon) verifiedAdmin layer next stored ∧
      (∀ event ∈ layer.events, event.get "fingerprint_algo" = .str "v1") ∧
      stored.get "fingerprint_algo" = .str "v3" ∧ ¬ CarriesStamp layer (stampOf stored) := by
  refine ⟨scannedLayer [("fingerprint_algo", .str "v1")], ⟨"acme", oneClaim, oneClaim, _, rfl, rfl⟩, ?_⟩
  rcases exists_storedCopy clockEnv late (decisionAt "keep_open" noon) verifiedAdmin
    (scannedLayer [("fingerprint_algo", .str "v1")]) (Or.inl rfl) (by decide +kernel) (by decide +kernel) with
    ⟨next, stored, copy⟩
  have first : ∀ event ∈ (scannedLayer [("fingerprint_algo", .str "v1")]).events,
      event.get "fingerprint_algo" = .str "v1" := by
    have all : (scannedLayer [("fingerprint_algo", .str "v1")]).events.all
        (fun event => event.get "fingerprint_algo" = .str "v1") = true := by
      decide +kernel
    intro event member
    exact of_decide_eq_true (List.all_eq_true.mp all event member)
  rcases copy.source with ⟨source, _, stamp⟩
  have algo : stored.get "fingerprint_algo" = .str "v3" := congrArg (fun stamp => stamp.2.2) stamp
  refine ⟨next, stored, copy, first, algo, ?_⟩
  intro carried
  rcases carried with ⟨event, member, _, same⟩
  have relabelled : event.get "fingerprint_algo" = stored.get "fingerprint_algo" :=
    congrArg (fun stamp => stamp.2.2) same
  rw [first event member, algo] at relabelled
  exact absurd relabelled (by decide)

end Copies

end LedgerProof
