import TraustLedger.Proofs.StampProofs
import TraustLedger.Proofs.RestatementProofs
import TraustLedger.Storage

namespace LedgerProof

open Hashing Python Runs LedgerModel

variable {H : HashFunction} {env : Env}

theorem signIfConfigured_layer (signers : Signers) (config : SigningConfig) (layer : Layer) :
    (signIfConfigured H signers config layer).1 = layer ∨ ∃ signature method format,
      (signIfConfigured H signers config layer).1 = { layer with
        metadata := ((layer.metadata.set "merkle_root_signature" signature).set "merkle_signing_method" method).set
          "merkle_signature_format" format } := by
  unfold signIfConfigured
  simp only
  generalize (if config.method = "" then "keypair" else config.method) = method
  split
  · exact Or.inl rfl
  split
  · exact Or.inl rfl
  split
  · exact Or.inl rfl
  cases getBackendFromConfig signers config with
  | error detail => exact Or.inl rfl
  | ok backend =>
    simp only
    cases backend.sign (merkleSignaturePayload H layer.metadata signatureFormatCurrent) (config.keyPath.getD "") with
    | error detail => exact Or.inl rfl
    | ok result =>
      simp only
      split
      · exact Or.inr ⟨_, _, _, rfl⟩
      · exact Or.inl rfl

theorem signIfConfigured_frame (signers : Signers) (config : SigningConfig) (layer : Layer) :
    (signIfConfigured H signers config layer).1.events = layer.events ∧ ∀ key, key ∉ signatureKeys →
      (signIfConfigured H signers config layer).1.metadata.get key = layer.metadata.get key := by
  rcases @signIfConfigured_layer H signers config layer with unsigned | ⟨signature, method, format, signed⟩
  · rw [unsigned]
    exact ⟨rfl, fun _ _ => rfl⟩
  · rw [signed]
    refine ⟨rfl, fun key other => ?_⟩
    simp only [signatureKeys, List.mem_cons, List.not_mem_nil, or_false, not_or] at other
    simp [other]

theorem signed_frame {signers : Signers} {config : SigningConfig} {layer stamped : Layer} {dropped : Bool}
    (stamp : stampMerkleMetadata H layer = .ok (stamped, dropped)) :
    (signIfConfigured H signers config stamped).1.events = layer.events ∧ ∀ key, key ∉ stampKeys →
      (signIfConfigured H signers config stamped).1.metadata.get key = layer.metadata.get key := by
  obtain ⟨events, metadata⟩ := @signIfConfigured_frame H signers config stamped
  refine ⟨events.trans (events_stamped stamp), fun key other => ?_⟩
  have unsigned : key ∉ signatureKeys := fun member => other (List.mem_append_right _ member)
  rw [metadata key unsigned, get_stamped_of_ne stamp other]

theorem finalizeLayer_ok {moment : Moment} {layerId root : String} {layer finalized : Layer}
    (accepted : finalizeLayer env moment layerId layer = .ok (finalized, root)) :
    finalized.events = layer.events ∧
      ∀ key, key ∉ stampKeys → finalized.metadata.get key = layer.metadata.get key := by
  unfold finalizeLayer at accepted
  obtain ⟨⟨stamped, dropped⟩, stamp, accepted⟩ := bind_ok_iff.mp accepted
  simp only at accepted
  replace accepted := gate_passed accepted
  cases accepted
  exact signed_frame stamp

theorem signed_not_stampKey {field : String} (signed : field ∈ signedMetadataFields) : field ∉ stampKeys := by
  simp only [signedMetadataFields, List.mem_cons, List.not_mem_nil, or_false] at signed
  rcases signed with rfl | rfl | rfl <;> decide

theorem fileMutate_ok {α : Type} {layerId : String} {mutator : Layer → Outcome (Layer × α)} {layer mutated : Layer}
    {result : α} : fileMutate env layerId mutator layer = .ok (mutated, result) ↔
      shellComplete layer = true ∧ mutator layer = .ok (mutated, result) ∧
        env.contracts.validateLayer mutated = true := by
  unfold fileMutate
  constructor
  · intro accepted
    obtain ⟨_, shell, accepted⟩ := bind_ok_iff.mp accepted
    obtain ⟨⟨changed, answer⟩, mutation, accepted⟩ := bind_ok_iff.mp accepted
    obtain ⟨_, valid, accepted⟩ := bind_ok_iff.mp accepted
    cases accepted
    exact ⟨require_ok_iff.mp shell, mutation, require_ok_iff.mp valid⟩
  · rintro ⟨shell, mutation, valid⟩
    simp [require, shell, mutation, valid, bind, Except.bind, pure, Except.pure]

theorem appendOffset_ok {layerId : String} {incoming stored : List Bytes} {offset : Nat} :
    appendOffset layerId incoming stored = .ok offset ↔ stored <+: incoming ∧ offset = stored.length := by
  unfold appendOffset
  constructor
  · intro accepted
    obtain ⟨_, -, accepted⟩ := bind_ok_iff.mp accepted
    obtain ⟨_, kept, accepted⟩ := bind_ok_iff.mp accepted
    cases accepted
    exact ⟨List.prefix_iff_eq_take.mpr (require_ok_iff.mp kept).symm, rfl⟩
  · rintro ⟨grown, rfl⟩
    have kept := (List.prefix_iff_eq_take.mp grown).symm
    simp [require, grown.length_le, kept, bind, Except.bind, pure, Except.pure]

structure DistinctIds (events : List Dict) : Prop where
  named : events.all (fun event => isText (event.get "event_id")) = true
  distinct : (events.map fun event => event.get "event_id").Nodup

theorem dbMutate_ok {α : Type} {layerId : String} {mutator : Layer → Outcome (Layer × α)} {layer mutated : Layer}
    {result : α} : dbMutate env layerId mutator layer = .ok (mutated, result) ↔
      mutator layer = .ok (mutated, result) ∧ env.contracts.validateLayer mutated = true ∧
        DistinctIds mutated.events ∧ eventPayloads layer.events <+: eventPayloads mutated.events := by
  unfold dbMutate
  constructor
  · intro accepted
    obtain ⟨⟨changed, answer⟩, mutation, accepted⟩ := bind_ok_iff.mp accepted
    obtain ⟨_, valid, accepted⟩ := bind_ok_iff.mp accepted
    obtain ⟨_, named, accepted⟩ := bind_ok_iff.mp accepted
    obtain ⟨offset, kept, accepted⟩ := bind_ok_iff.mp accepted
    obtain ⟨_, distinct, accepted⟩ := bind_ok_iff.mp accepted
    cases accepted
    exact ⟨mutation, require_ok_iff.mp valid, ⟨require_ok_iff.mp named, require_ok_iff.mp distinct⟩,
      (appendOffset_ok.mp kept).1⟩
  · rintro ⟨mutation, valid, ⟨named, distinct⟩, grown⟩
    have kept := @appendOffset_ok layerId _ _ _ |>.mpr ⟨grown, rfl⟩
    simp only [mutation, kept, bind, Except.bind, require, valid, named, distinct, if_true, pure, Except.pure]

theorem mutate_ok {α : Type} {layerId : String} {mutator : Layer → Outcome (Layer × α)} {layer mutated : Layer}
    {result : α} (accepted : mutate env layerId mutator layer = .ok (mutated, result)) :
    mutator layer = .ok (mutated, result) := by
  unfold mutate at accepted
  split at accepted
  · exact (fileMutate_ok.mp accepted).2.1
  · exact (dbMutate_ok.mp accepted).1

theorem mutate_valid {α : Type} {layerId : String} {mutator : Layer → Outcome (Layer × α)} {layer mutated : Layer}
    {result : α} (accepted : mutate env layerId mutator layer = .ok (mutated, result)) :
    env.contracts.validateLayer mutated = true := by
  unfold mutate at accepted
  split at accepted
  · exact (fileMutate_ok.mp accepted).2.2
  · exact (dbMutate_ok.mp accepted).2.1

/-- What a reader of restatements sees of an event: its block and its source. -/
def SameRestatement (left right : Dict) : Prop :=
  right.get "restatement" = left.get "restatement" ∧ right.get "source" = left.get "source"

theorem SameRestatement.refl (event : Dict) : SameRestatement event event := ⟨rfl, rfl⟩

theorem SameRestatement.trans {a b c : Dict} (first : SameRestatement a b) (second : SameRestatement b c) :
    SameRestatement a c := ⟨second.1.trans first.1, second.2.trans first.2⟩

theorem SameRestatement.set {event : Dict} {key : String} {value : Json}
    (other : key ≠ "restatement" ∧ key ≠ "source") : SameRestatement event (event.set key value) := by
  refine ⟨?_, ?_⟩
  · rw [Dict.get_set, if_neg other.1.symm]
  · rw [Dict.get_set, if_neg other.2.symm]

theorem isRestatement_congr {left right : Dict} (same : SameRestatement left right) :
    isRestatement right = isRestatement left := by
  unfold isRestatement
  rw [same.1, same.2]

theorem restates_congr {left right : Dict} (same : SameRestatement left right) :
    restates right = restates left := by
  unfold restates
  rw [isRestatement_congr same]

theorem restatementBlock_congr {left right : Dict} (same : SameRestatement left right) :
    restatementBlock right = restatementBlock left := by
  unfold restatementBlock
  rw [same.1]

theorem isRestatement_true_iff {event : Dict} :
    isRestatement event = .ok true ↔ ∃ block source, event.get "restatement" = .obj block ∧
      event.get "source" = .obj source ∧ Dict.get source "type" = .str "restatement" := by
  unfold isRestatement
  cases block : event.get "restatement" with
  | obj fields =>
    cases source : event.get "source" with
    | obj entries => simp [orEmpty, bind, Except.bind, pure, Except.pure]
    | _ =>
      simp only [orEmpty]
      split <;> simp [bind, Except.bind, pure, Except.pure, Dict.get]
  | _ => simp [pure, Except.pure]

theorem chainOf_congr {events kept : List Dict} (same : List.Forall₂ SameRestatement events kept) (target : String) :
    chainOf kept target = chainOf events target := by
  have blocks : (kept.filter restates).map restatementBlock = (events.filter restates).map restatementBlock := by
    induction same with
    | nil => rfl
    | cons head rest ih =>
      rw [List.filter_cons, List.filter_cons, restates_congr head]
      split
      · rw [List.map_cons, List.map_cons, ih, restatementBlock_congr head]
      · exact ih
  rw [chainOf, chainOf, blocks]

theorem readable_congr {events kept : List Dict} (same : List.Forall₂ SameRestatement events kept)
    (readable : Readable events) : Readable kept := by
  induction same with
  | nil => exact readable
  | cons head rest ih =>
    intro event member
    rcases List.mem_cons.mp member with rfl | member
    · rw [isRestatement_congr head]
      exact readable _ List.mem_cons_self
    · exact ih (fun e later => readable e (List.mem_cons_of_mem _ later)) event member

theorem sameRestatement_stampFingerprintAlgo (event : Dict) :
    SameRestatement event (stampFingerprintAlgo event) := by
  unfold stampFingerprintAlgo
  split
  · exact SameRestatement.set (by decide)
  · exact SameRestatement.refl event

theorem sameRestatement_attachIdentity (index : List (Json × Json)) (event : Dict) :
    SameRestatement event (attachIdentity index event).1 := by
  unfold attachIdentity
  split
  · exact SameRestatement.refl event
  · simp only
    split
    · exact (SameRestatement.set (by decide)).trans (SameRestatement.set (by decide))
    · exact SameRestatement.refl event

theorem attachIdentity_unstamped {index : List (Json × Json)} {event : Dict}
    (unstamped : (attachIdentity index event).2 = false) : (attachIdentity index event).1 = event := by
  unfold attachIdentity at unstamped ⊢
  split
  · rfl
  · simp only at unstamped ⊢
    split_ifs at unstamped ⊢
    rfl

theorem prepareEvent_ok {event prepared : Dict} {id : String}
    (accepted : prepareEvent H event = .ok (prepared, id)) :
    (∃ answer, isRestatement event = .ok answer) ∧ canonicalId H event = .ok id ∧
      SameRestatement event prepared := by
  unfold prepareEvent at accepted
  obtain ⟨answer, read, accepted⟩ := bind_ok_iff.mp accepted
  replace accepted := gate_passed accepted
  obtain ⟨canonical, computed, accepted⟩ := bind_ok_iff.mp accepted
  replace accepted := gate_passed accepted
  replace accepted := gate_passed accepted
  cases accepted
  refine ⟨⟨answer, read⟩, computed, ?_⟩
  exact (SameRestatement.set (by decide)).trans (sameRestatement_stampFingerprintAlgo _)

theorem prepareEvent_lookup {event prepared : Dict} {id key : String}
    (accepted : prepareEvent H event = .ok (prepared, id)) (other : key ≠ "fingerprint_algo") :
    prepared.lookup key = if key = "event_id" then some (.str id) else event.lookup key := by
  unfold prepareEvent at accepted
  obtain ⟨answer, -, accepted⟩ := bind_ok_iff.mp accepted
  replace accepted := gate_passed accepted
  obtain ⟨canonical, -, accepted⟩ := bind_ok_iff.mp accepted
  replace accepted := gate_passed accepted
  replace accepted := gate_passed accepted
  cases accepted
  unfold stampFingerprintAlgo
  split
  · rw [Dict.lookup_set, if_neg other, Dict.lookup_set]
  · rw [Dict.lookup_set]

theorem appendOne_ok {layer appended : Layer} {event : Dict} {id : String}
    (accepted : appendOne H layer event = .ok (appended, id)) :
    ∃ prepared, prepareEvent H event = .ok (prepared, id) ∧ appended = { layer with
      events := if holdsId layer.events id then layer.events else layer.events ++ [prepared] } := by
  unfold appendOne at accepted
  obtain ⟨⟨prepared, canonical⟩, preparation, accepted⟩ := bind_ok_iff.mp accepted
  simp only at accepted
  split at accepted
  · next held =>
    cases accepted
    exact ⟨prepared, preparation, by rw [if_pos held]⟩
  · next fresh =>
    cases accepted
    exact ⟨prepared, preparation, by rw [if_neg fresh]⟩

theorem appendMany_ok {layer appended : Layer} {events : List Dict} {ids : List String}
    (accepted : appendMany H layer events = .ok (appended, ids)) :
    ∃ added, appended = { layer with events := layer.events ++ added } ∧
      ∀ prepared ∈ added, ∃ event ∈ events, ∃ id, prepareEvent H event = .ok (prepared, id) := by
  induction events generalizing layer ids with
  | nil =>
    cases accepted
    exact ⟨[], by simp, by simp⟩
  | cons event rest ih =>
    rw [appendMany] at accepted
    obtain ⟨⟨prepared, id⟩, preparation, accepted⟩ := bind_ok_iff.mp accepted
    simp only at accepted
    split at accepted
    · obtain ⟨added, grown, sources⟩ := ih accepted
      refine ⟨added, grown, fun e member => ?_⟩
      obtain ⟨source, inRest, found⟩ := sources e member
      exact ⟨source, List.mem_cons_of_mem _ inRest, found⟩
    · obtain ⟨⟨longer, more⟩, rest', accepted⟩ := bind_ok_iff.mp accepted
      cases accepted
      obtain ⟨added, grown, sources⟩ := ih rest'
      refine ⟨prepared :: added, by rw [grown]; simp, fun e member => ?_⟩
      rcases List.mem_cons.mp member with rfl | member
      · exact ⟨event, List.mem_cons_self, id, preparation⟩
      · obtain ⟨source, inRest, found⟩ := sources e member
        exact ⟨source, List.mem_cons_of_mem _ inRest, found⟩

theorem get_assign (metadata : Dict) (key k : String) (value : Json) :
    (assign metadata key value).get k = if k = key then value else metadata.get k := by
  unfold assign
  split
  · next gone => simp [gone]
  · simp

theorem appendRestatement_layer {layer changed : Layer} {event : Dict} {target id : String} {after : Json}
    (accepted : appendRestatement H layer event target after = .ok (changed, id)) :
    ∃ prepared, prepareEvent H event = .ok (prepared, id) ∧ changed = { layer with
      events := if holdsId layer.events id then layer.events else layer.events ++ [prepared]
      metadata := assign layer.metadata target (mergeDelta (layer.metadata.get target) after) } := by
  unfold appendRestatement at accepted
  obtain ⟨⟨appended, canonical⟩, appending, accepted⟩ := bind_ok_iff.mp accepted
  simp only at accepted
  replace accepted := gate_passed accepted
  cases accepted
  obtain ⟨prepared, preparation, rfl⟩ := appendOne_ok appending
  exact ⟨prepared, preparation, rfl⟩

theorem appendRestatement_ok {layer changed : Layer} {event : Dict} {target id : String} {after : Json}
    (accepted : appendRestatement H layer event target after = .ok (changed, id)) :
    ∃ prepared, prepareEvent H event = .ok (prepared, id) ∧
      changed.events = (if holdsId layer.events id then layer.events else layer.events ++ [prepared]) ∧
      ∀ field, changed.metadata.get field =
        if field = target then mergeDelta (layer.metadata.get target) after else layer.metadata.get field := by
  obtain ⟨prepared, preparation, rfl⟩ := appendRestatement_layer accepted
  exact ⟨prepared, preparation, rfl, fun field => get_assign _ _ _ _⟩

end LedgerProof
