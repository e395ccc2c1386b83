import TraustLedger.Proofs.DocumentStore

namespace LedgerProof

open Hashing Python Runs LedgerModel DocumentStore

def documentOf (layer : Layer) : Document where
  fields := [("events", .arr (layer.events.map .obj)), ("metadata", .obj layer.metadata),
    ("needs_review", .arr layer.needsReview)]
  ordered := by
    simp only [Dict.Ordered, List.pairwise_cons, List.mem_cons, List.not_mem_nil, or_false, forall_eq_or_imp, forall_eq]
    refine ⟨⟨?_, ?_⟩, ?_, ?_⟩
    · decide
    · decide
    · decide
    · simp

def layerOf (document : Document) : Layer where
  metadata := metadataOf document
  events := (eventItems document).map fieldsOf
  needsReview := queueOf document

theorem eventItems_documentOf (layer : Layer) : eventItems (documentOf layer) = layer.events.map .obj := rfl

theorem layerOf_documentOf (layer : Layer) : layerOf (documentOf layer) = layer := by
  have events : (eventItems (documentOf layer)).map fieldsOf = layer.events := by
    rw [eventItems_documentOf, List.map_map]
    exact List.map_id _
  rw [layerOf, events]
  rfl

def onDocument {α : Type} (mutator : Layer → Outcome (Layer × α)) (document : Document) : Outcome (Document × α) := do
  let (mutated, value) ← mutator (layerOf document)
  return (documentOf mutated, value)

theorem eventIdOf_obj {event : Dict} (named : isText (event.get "event_id") = true) :
    (eventIdOf (.obj event)).map Json.str = some (event.get "event_id") := by
  rw [eventIdOf]
  cases text : event.get "event_id" with
  | str id =>
    rw [text] at named
    have filled : id ≠ "" := by simpa [isText] using named
    simp [filled]
  | _ =>
    rw [text] at named
    cases named

theorem isText_eventIdOf (event : Dict) : (eventIdOf (.obj event)).isSome = isText (event.get "event_id") := by
  rw [eventIdOf]
  cases event.get "event_id" with
  | str id => by_cases empty : id = "" <;> simp [isText, empty]
  | _ => rfl

theorem named_documentOf (layer : Layer) :
    Named (documentOf layer) ↔ layer.events.all (fun event => isText (event.get "event_id")) = true := by
  rw [Named, eventItems_documentOf, List.forall_mem_map, List.all_eq_true]
  refine forall_congr' fun event => imp_congr_right fun _ => ?_
  rw [isText_eventIdOf]

theorem distinct_documentOf {layer : Layer}
    (named : layer.events.all (fun event => isText (event.get "event_id")) = true) :
    DistinctEvents (documentOf layer) ↔ (layer.events.map fun event => event.get "event_id").Nodup := by
  rw [List.all_eq_true] at named
  have spelled : ((layer.events.map Json.obj).map eventIdOf).map (Option.map Json.str) =
      (layer.events.map fun event => event.get "event_id").map some := by
    rw [List.map_map, List.map_map, List.map_map]
    exact List.map_congr_left fun event member => eventIdOf_obj (named event member)
  have texts : Function.Injective (Option.map Json.str) := Option.map_injective fun _ _ same => Json.str.inj same
  rw [DistinctEvents, eventItems_documentOf, ← List.nodup_map_iff texts, spelled,
    List.nodup_map_iff (Option.some_injective _)]

theorem extends_documentOf {held layer : Layer}
    (named : layer.events.all (fun event => isText (event.get "event_id")) = true) :
    Extends (documentOf held) (documentOf layer) ↔ eventPayloads held.events <+: eventPayloads layer.events ∧
      (layer.events.map fun event => event.get "event_id").Nodup := by
  have payloads (events : List Dict) : eventPayloads events = (events.map Json.obj).map encodeJson := by
    rw [List.map_map]
    rfl
  rw [Extends, payloads, payloads, encodeJson_prefix_iff, ← distinct_documentOf named]
  rfl

variable {env : Env} {db : DbEnv} {tables : Tables} {store : DocumentStore} {layerId : String} {owner : Option String}
  {layer : Layer} {α : Type} {mutator : Layer → Outcome (Layer × α)} {value : α}

/-- On a layer the tables hold, the backend's `mutate` is the one of the doors: it accepts the same mutations, and
    holds what they return. -/
theorem mutate_refines (lawful : LawfulDb db)
    (schema : ∀ layer, db.validate (documentOf layer) = env.contracts.validateLayer layer)
    (represents : Represents db tables store) (present : store layerId = some ⟨owner, documentOf layer⟩) :
    (∀ next, db.mutate layerId (onDocument mutator) tables = (next, .ok value) → ∃ mutated,
      dbMutate env layerId mutator layer = .ok (mutated, value) ∧
        Represents db next (store.put layerId ⟨owner, documentOf mutated⟩)) ∧
    (∀ mutated, dbMutate env layerId mutator layer = .ok (mutated, value) →
      ∃ next, db.mutate layerId (onDocument mutator) tables = (next, .ok value)) := by
  have loaded := represents.load lawful layerId
  rw [present, Option.map_some] at loaded
  constructor
  · intro next performed
    obtain ⟨read, document, record, loading, mutation, valid, recorded, persisted⟩ := mutate_iff.mp performed
    cases loaded.symm.trans loading
    obtain ⟨⟨mutated, returned⟩, mutation, same⟩ := bind_ok_iff.mp mutation
    cases same
    rw [layerOf_documentOf] at mutation
    have valid := validateLayer_ok.mp valid
    obtain ⟨after, accepted, standing⟩ := (persist_write lawful represents present valid recorded).1 _ persisted
    rw [write, present] at accepted
    obtain ⟨⟨recordable, extending⟩, made⟩ := Option.ite_none_right_eq_some.mp accepted
    cases made
    have named := (named_documentOf mutated).mp recordable.2
    obtain ⟨grown, distinct⟩ := (extends_documentOf named).mp extending
    refine ⟨mutated, dbMutate_ok.mpr ⟨mutation, ?_, ⟨named, distinct⟩, grown⟩, standing⟩
    rw [← schema]
    exact valid
  · intro mutated accepted
    obtain ⟨mutation, valid, ⟨named, distinct⟩, grown⟩ := dbMutate_ok.mp accepted
    have recordable : Recordable db (documentOf mutated) :=
      ⟨(schema mutated).trans valid, (named_documentOf mutated).mpr named⟩
    have writing : write db store layerId (documentOf mutated) =
        some (store.put layerId ⟨owner, documentOf mutated⟩) := by
      rw [write, present]
      exact if_pos ⟨recordable, (extends_documentOf named).mpr ⟨grown, distinct⟩⟩
    obtain ⟨held, record, next, -, validated, recorded, persisted⟩ := write_persists lawful represents writing
    have returned : onDocument mutator (documentOf layer) = .ok (documentOf mutated, value) :=
      bind_ok_iff.mpr ⟨(mutated, value), by rw [layerOf_documentOf]; exact mutation, rfl⟩
    exact ⟨next, mutate_iff.mpr ⟨_, _, record, loaded, returned, validated, recorded, persisted⟩⟩

end LedgerProof
