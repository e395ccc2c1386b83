import TraustLedger.Backends.Records
import TraustLedger.Library.JsonText
import TraustLedger.Library.Runs

namespace LedgerProof

open Hashing Python Runs LedgerModel

def fieldsOf : Json → Dict
  | .obj fields => fields
  | _ => []

def itemsOf : Json → List Json
  | .arr items => items
  | _ => []

section Documents

variable (document : Document)

def metadataOf : Dict := fieldsOf (document.get "metadata")

def eventItems : List Json := itemsOf (document.get "events")

def queueOf : List Json := itemsOf (document.get "needs_review")

end Documents

def eventIdOf : Json → Option String
  | .obj fields => match Dict.get fields "event_id" with
    | .str eventId => if eventId ≠ "" then some eventId else none
    | _ => none
  | _ => none

structure WellShaped (document : Document) : Prop where
  metadata : ∀ value, document.lookup "metadata" = some value → ∃ fields, value = .obj fields
  events : ∀ value, document.lookup "events" = some value → ∃ items, value = .arr items
  needsReview : ∀ value, document.lookup "needs_review" = some value → ∃ items, value = .arr items

variable {document : Document} {key label : String} {failure : String → Failure}

theorem objectOf_orDefault (shaped : ∀ value, document.lookup key = some value → ∃ fields, value = .obj fields) :
    objectOf label failure (orDefault (document.get key) (.obj [])) = .ok (fieldsOf (document.get key)) := by
  rw [Document.get, Dict.get]
  cases found : document.fields.lookup key with
  | none => rfl
  | some value =>
    obtain ⟨fields, rfl⟩ := shaped value found
    cases fields <;> rfl

theorem arrayOf_orDefault (shaped : ∀ value, document.lookup key = some value → ∃ items, value = .arr items) :
    arrayOf label failure (orDefault (document.get key) (.arr [])) = .ok (itemsOf (document.get key)) := by
  rw [Document.get, Dict.get]
  cases found : document.fields.lookup key with
  | none => rfl
  | some value =>
    obtain ⟨items, rfl⟩ := shaped value found
    cases items <;> rfl

theorem eventRecord_ok {sequence : Nat} {value : Json} {record : EventRecord} :
    EventRecord.fromDocument sequence value = .ok record ↔ record.sequence = sequence ∧
      value = .obj record.document ∧ eventIdOf value = some record.eventId := by
  obtain ⟨seq, fields, id⟩ := record
  unfold EventRecord.fromDocument
  cases value with
  | obj held =>
    cases text : Dict.get held "event_id" with
    | str eventId =>
      by_cases named : eventId = ""
      · simp [objectOf, text, named, require, eventIdOf, bind, Except.bind]
      · simp [objectOf, text, named, require, eventIdOf, bind, Except.bind, pure, Except.pure]
        grind
    | _ => simp [objectOf, text, eventIdOf, bind, Except.bind]
  | _ => simp [objectOf, eventIdOf, bind, Except.bind]

structure Enumerates (sequence : Nat) (values : List Json) (records : List EventRecord) : Prop where
  documents : records.map (fun record => Json.obj record.document) = values
  sequences : records.map (fun record => record.sequence) = List.range' sequence values.length
  ids : records.map (fun record => some record.eventId) = values.map eventIdOf

theorem eventRecords_ok {sequence : Nat} {values : List Json} {records : List EventRecord} :
    eventRecords sequence values = .ok records ↔ Enumerates sequence values records := by
  induction values generalizing sequence records with
  | nil =>
    constructor
    · intro accepted
      cases accepted
      exact ⟨rfl, rfl, rfl⟩
    · rintro ⟨documents, -, -⟩
      rw [List.map_eq_nil_iff.mp documents]
      rfl
  | cons value values ih =>
    rw [eventRecords]
    constructor
    · intro accepted
      obtain ⟨record, first, accepted⟩ := bind_ok_iff.mp accepted
      obtain ⟨rest, later, accepted⟩ := bind_ok_iff.mp accepted
      cases accepted
      obtain ⟨documents, sequences, ids⟩ := ih.mp later
      obtain ⟨sequenced, same, named⟩ := eventRecord_ok.mp first
      refine ⟨?_, ?_, ?_⟩
      · rw [List.map_cons, documents, ← same]
      · rw [List.map_cons, sequences, sequenced, List.length_cons, List.range'_succ]
      · rw [List.map_cons, List.map_cons, ids, named]
    · rintro ⟨documents, sequences, ids⟩
      cases records with
      | nil => cases documents
      | cons record rest =>
        rw [List.length_cons, List.range'_succ] at sequences
        simp only [List.map_cons, List.cons.injEq] at documents sequences ids
        have first := eventRecord_ok.mpr ⟨sequences.1, documents.1.symm, ids.1.symm⟩
        have later := ih.mpr ⟨documents.2, sequences.2, ids.2⟩
        simp [first, later, bind, Except.bind, pure, Except.pure]

theorem Enumerates.unique {sequence : Nat} {values : List Json} {records others : List EventRecord}
    (first : Enumerates sequence values records) (second : Enumerates sequence values others) : records = others := by
  have same := (eventRecords_ok.mpr first).symm.trans (eventRecords_ok.mpr second)
  exact Except.ok.inj same

theorem Enumerates.length {sequence : Nat} {values : List Json} {records : List EventRecord}
    (enumerated : Enumerates sequence values records) : records.length = values.length := by
  rw [← enumerated.documents, List.length_map]

theorem Enumerates.take {sequence : Nat} {values more : List Json} {records : List EventRecord}
    (enumerated : Enumerates sequence (values ++ more) records) :
    Enumerates sequence values (records.take values.length) := by
  obtain ⟨documents, sequences, ids⟩ := enumerated
  refine ⟨?_, ?_, ?_⟩
  · rw [List.map_take, documents, List.take_left]
  · rw [List.map_take, sequences, List.length_append, ← List.range'_append_1, List.take_left' (by simp)]
  · rw [List.map_take, ids, List.map_append, List.take_left' (by simp)]

theorem Enumerates.take_eq {sequence : Nat} {values longer : List Json} {records others : List EventRecord}
    (first : Enumerates sequence values records) (second : Enumerates sequence longer others)
    (grown : values <+: longer) : others.take records.length = records := by
  obtain ⟨more, rfl⟩ := grown
  rw [first.length]
  exact second.take.unique first

theorem Enumerates.payloads {sequence : Nat} {values : List Json} {records : List EventRecord}
    (enumerated : Enumerates sequence values records) :
    records.map (fun record => record.payload) = values.map encodeJson := by
  rw [← enumerated.documents, List.map_map]
  rfl

theorem eventIdOf_ne_empty {value : Json} {eventId : String} (identified : eventIdOf value = some eventId) :
    eventId ≠ "" := by
  unfold eventIdOf at identified
  split at identified
  · split at identified
    · split at identified
      · next named => exact Option.some.inj identified ▸ named
      · cases identified
    · cases identified
  · cases identified

theorem Enumerates.named {sequence : Nat} {values : List Json} {records : List EventRecord}
    (enumerated : Enumerates sequence values records) : ∀ record ∈ records, record.eventId ≠ "" := by
  intro record member
  have identified := List.mem_map_of_mem (f := fun record : EventRecord => some record.eventId) member
  rw [enumerated.ids] at identified
  obtain ⟨value, -, same⟩ := List.mem_map.mp identified
  exact eventIdOf_ne_empty same

def Named (document : Document) : Prop := ∀ event ∈ eventItems document, (eventIdOf event).isSome = true

instance (document : Document) : Decidable (Named document) := inferInstanceAs (Decidable (∀ _ ∈ _, _))

theorem enumerates_named {values : List Json} (named : ∀ value ∈ values, (eventIdOf value).isSome = true)
    (sequence : Nat) : ∃ records, Enumerates sequence values records := by
  induction values generalizing sequence with
  | nil => exact ⟨[], rfl, rfl, rfl⟩
  | cons value values ih =>
    rw [List.forall_mem_cons] at named
    obtain ⟨records, documents, sequences, ids⟩ := ih named.2 (sequence + 1)
    obtain ⟨eventId, identified⟩ := Option.isSome_iff_exists.mp named.1
    have isObject : value = .obj (fieldsOf value) := by
      cases value with
      | obj fields => rfl
      | _ => cases identified
    refine ⟨⟨sequence, fieldsOf value, eventId⟩ :: records, ?_, ?_, ?_⟩
    · rw [List.map_cons, documents, ← isObject]
    · rw [List.map_cons, sequences, List.length_cons, List.range'_succ]
    · rw [List.map_cons, List.map_cons, ids, identified]

structure Splits (document : Document) (record : LayerRecord) : Prop where
  metadata : record.metadata = metadataOf document
  events : Enumerates 0 (eventItems document) record.events
  needsReview : record.needsReview = queueOf document
  extensions : record.extensions = document.fields.filter fun entry => !knownRootKeys.contains entry.1
  rootKeys : record.rootKeys = knownRootKeys.filter document.fields.has

theorem fromDocument_ok (shaped : WellShaped document) {record : LayerRecord} :
    LayerRecord.fromDocument document = .ok record ↔ Splits document record := by
  unfold LayerRecord.fromDocument
  simp only [objectOf_orDefault shaped.metadata, arrayOf_orDefault shaped.events, arrayOf_orDefault shaped.needsReview,
    bind, Except.bind]
  constructor
  · intro accepted
    obtain ⟨records, enumerated, accepted⟩ := bind_ok_iff.mp accepted
    cases accepted
    exact ⟨rfl, eventRecords_ok.mp enumerated, rfl, rfl, rfl⟩
  · obtain ⟨metadata, events, needsReview, extensions, rootKeys⟩ := record
    rintro ⟨rfl, enumerated, rfl, rfl, rfl⟩
    have records := eventRecords_ok.mpr enumerated
    rw [eventItems] at records
    simp only [records, pure, Except.pure]
    rfl

theorem fromDocument_named (shaped : WellShaped document) :
    (∃ record, LayerRecord.fromDocument document = .ok record) ↔ Named document := by
  constructor
  · rintro ⟨record, read⟩ event member
    have ids := ((fromDocument_ok shaped).mp read).events.ids
    have identified := List.mem_map_of_mem (f := eventIdOf) member
    rw [← ids] at identified
    obtain ⟨held, -, same⟩ := List.mem_map.mp identified
    rw [← same]
    rfl
  · intro named
    obtain ⟨records, enumerated⟩ := enumerates_named named 0
    exact ⟨⟨_, records, _, _, _⟩, (fromDocument_ok shaped).mpr ⟨rfl, enumerated, rfl, rfl, rfl⟩⟩

section RoundTrip

variable {decode : Bytes → Option Json} {record : LayerRecord}

theorem rootKeys_mapM (keys : List String) :
    (keys.map Json.str).mapM StoredLayerRecord.rootKey = Except.ok keys := by
  induction keys with
  | nil => rfl
  | cons key keys ih =>
    simp only [List.map_cons, List.mapM_cons, ih]
    rfl

theorem fromPayloads_layerValues (roundTrip : ∀ value, decode (encodeJson value) = some value) (record : LayerRecord) :
    StoredLayerRecord.fromPayloads decode record.layerValues =
      .ok ⟨record.metadata, record.needsReview, record.extensions, record.rootKeys⟩ := by
  simp only [StoredLayerRecord.fromPayloads, LayerRecord.layerValues, StoredLayerRecord.decodeJson, roundTrip, objectOf,
    arrayOf, rootKeys_mapM, bind, Except.bind, pure, Except.pure]

theorem storedEvent_payload (roundTrip : ∀ value, decode (encodeJson value) = some value) (event : EventRecord) :
    StoredLayerRecord.storedEvent decode event.payload = .ok (.obj event.document) := by
  simp only [StoredLayerRecord.storedEvent, StoredLayerRecord.decodeJson, EventRecord.payload, roundTrip, objectOf,
    bind, Except.bind, pure, Except.pure]

theorem storedEvents_mapM (roundTrip : ∀ value, decode (encodeJson value) = some value) (records : List EventRecord) :
    (records.map fun event => event.payload).mapM (StoredLayerRecord.storedEvent decode) =
      Except.ok (records.map fun event => Json.obj event.document) := by
  induction records with
  | nil => rfl
  | cons event rest ih =>
    rw [List.map_cons, List.mapM_cons, storedEvent_payload roundTrip, ih]
    rfl

theorem lookup_filter (d : Dict) (test : String → Bool) (key : String) :
    List.lookup key (d.filter fun entry => test entry.1) = if test key then d.lookup key else none := by
  induction d with
  | nil => simp
  | cons entry rest ih =>
    by_cases same : key = entry.1
    · subst same
      by_cases kept : test entry.1 = true
      · simp [List.filter_cons_of_pos, kept, Dict.lookup_cons_ite]
      · rw [List.filter_cons_of_neg (by simpa using kept), ih, if_neg kept, if_neg kept]
    · rw [List.filter_cons]
      split <;> simp [Dict.lookup_cons_ite, same, ih]

theorem lookup_putBack (stored : StoredLayerRecord) (events : List Json) (keys : List String) (start : Document)
    (key : String) : (keys.foldl (stored.putBack events) start).lookup key =
      if key ∈ keys then (stored.value events key).or (start.lookup key) else start.lookup key := by
  induction keys generalizing start with
  | nil => simp
  | cons first rest ih =>
    rw [List.foldl_cons, ih, StoredLayerRecord.putBack]
    cases held : stored.value events first with
    | none =>
      by_cases same : key = first
      · subst same
        simp [held]
      · simp [same]
    | some value =>
      have written : (start.set first value).lookup key = if key = first then some value else start.lookup key :=
        Dict.lookup_set _ _ _ _
      by_cases same : key = first
      · subst same
        simp [held, written]
      · simp [same, written]

theorem value_root (shaped : WellShaped document) (known : key ∈ knownRootKeys)
    (present : document.fields.has key = true) (extensions : Dict) (rootKeys : List String) :
    StoredLayerRecord.value ⟨metadataOf document, queueOf document, extensions, rootKeys⟩ (eventItems document) key =
      document.lookup key := by
  obtain ⟨value, found⟩ := (Dict.has_iff_lookup _ _).mp present
  have read : document.get key = value := Dict.get_eq_of_lookup found
  simp only [knownRootKeys, List.mem_cons, List.not_mem_nil, or_false] at known
  rcases known with rfl | rfl | rfl
  · obtain ⟨items, rfl⟩ := shaped.events value found
    simp [StoredLayerRecord.value, eventItems, read, itemsOf, Document.lookup, found]
  · obtain ⟨fields, rfl⟩ := shaped.metadata value found
    simp [StoredLayerRecord.value, metadataOf, read, fieldsOf, Document.lookup, found]
  · obtain ⟨items, rfl⟩ := shaped.needsReview value found
    simp [StoredLayerRecord.value, queueOf, read, itemsOf, Document.lookup, found]

theorem Document.ext_lookup {left right : Document} (same : ∀ key, left.lookup key = right.lookup key) :
    left = right := by
  obtain ⟨fields, ordered⟩ := left
  obtain ⟨others, otherOrdered⟩ := right
  obtain rfl := ordered.ext otherOrdered same
  rfl

/-- The columns and the events' payloads give back the document, its extension keys and its absent root keys too. -/
theorem reconstruct_split (roundTrip : ∀ value, decode (encodeJson value) = some value) (shaped : WellShaped document)
    (split : Splits document record) :
    StoredLayerRecord.reconstruct decode ⟨record.metadata, record.needsReview, record.extensions, record.rootKeys⟩
      record.eventPayloads = .ok document := by
  unfold StoredLayerRecord.reconstruct
  rw [LayerRecord.eventPayloads, storedEvents_mapM roundTrip, split.events.documents, split.metadata,
    split.needsReview, split.extensions, split.rootKeys]
  simp only [bind, Except.bind, pure, Except.pure, Except.ok.injEq]
  apply Document.ext_lookup
  intro key
  rw [lookup_putBack]
  have extension : (⟨Dict.ofList (document.fields.filter fun entry => !knownRootKeys.contains entry.1),
      Dict.ordered_ofList _⟩ : Document).lookup key =
        if (!knownRootKeys.contains key) = true then document.lookup key else none := by
    rw [Document.lookup, Dict.lookup_ofList, lookup_filter document.fields (fun key => !knownRootKeys.contains key)]
    rfl
  rw [extension]
  have root : key ∈ knownRootKeys.filter document.fields.has ↔ key ∈ knownRootKeys ∧ document.fields.has key = true :=
    List.mem_filter
  by_cases known : key ∈ knownRootKeys
  · by_cases present : document.fields.has key = true
    · rw [if_pos (root.mpr ⟨known, present⟩), value_root shaped known present]
      simp [known]
    · rw [if_neg fun both => present (root.mp both).2]
      have absent : document.lookup key = none := Option.not_isSome_iff_eq_none.mp present
      simp [known, absent]
  · rw [if_neg fun both => known (root.mp both).1]
    simp [known]

end RoundTrip

end LedgerProof
