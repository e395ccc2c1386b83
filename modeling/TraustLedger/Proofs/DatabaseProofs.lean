import TraustLedger.Proofs.RecordProofs
import TraustLedger.Proofs.TableProofs
import TraustLedger.Proofs.WriterProofs
import TraustLedger.Library.Logs

namespace LedgerProof

open Hashing Python Runs LedgerModel

/-- What the backend relies on: the codec gives back what was encoded, and the schema fixes the known root keys. -/
structure LawfulDb (env : DbEnv) : Prop where
  roundTrip : ∀ value, env.decode (encodeJson value) = some value
  shaped : ∀ document, env.validate document = true → WellShaped document

variable {env : DbEnv} {tables next : Tables} {layerId : String} {owner : Option String}

structure Stored (tables : Tables) (layerId : String) (owner : Option String) (record : LayerRecord) : Prop where
  row : tables.layerRow layerId = some ⟨layerId, owner, record.layerValues⟩
  events : rowsOf tables layerId = record.newEventValues layerId 0

structure Missing (tables : Tables) (layerId : String) : Prop where
  row : tables.layerRow layerId = none
  events : rowsOf tables layerId = []

theorem newEventValues_owned (record : LayerRecord) (offset : Nat) :
    ∀ row ∈ record.newEventValues layerId offset, row.layerId = layerId := by
  intro row member
  obtain ⟨event, -, rfl⟩ := List.mem_map.mp member
  rfl

section Rows

variable {document : Document} {record : LayerRecord} (split : Splits document record)

include split

theorem Splits.seqs (offset : Nat) : seqsOf (record.newEventValues layerId offset) =
    List.range' offset (record.newEventValues layerId offset).length := by
  have sequences := split.events.sequences
  have counted := split.events.length
  rw [seqsOf, LayerRecord.newEventValues, List.map_map, List.length_map, List.length_drop]
  have column : (fun row : EventRow => row.seq) ∘ EventRecord.databaseValues layerId =
      fun record => record.sequence := rfl
  rw [column, List.map_drop, sequences, List.drop_range', counted]
  simp

theorem Splits.named (offset : Nat) : ∀ row ∈ record.newEventValues layerId offset, row.eventId ≠ "" := by
  intro row member
  obtain ⟨event, held, rfl⟩ := List.mem_map.mp member
  exact split.events.named event (List.mem_of_mem_drop held)

theorem Splits.rowIds : ((record.newEventValues layerId 0).map fun row => row.eventId).Nodup ↔
    ((eventItems document).map eventIdOf).Nodup := by
  have lifted : record.events.map (fun event => some event.eventId) =
      (record.events.map fun event => event.eventId).map some := by
    rw [List.map_map]
    rfl
  rw [← split.events.ids, lifted, List.nodup_map_iff (Option.some_injective _), LayerRecord.newEventValues,
    List.drop_zero, List.map_map]
  rfl

theorem Splits.eventPayloads : record.eventPayloads = (eventItems document).map encodeJson := split.events.payloads

theorem Splits.rowPayloads :
    (record.newEventValues layerId 0).map (fun row => row.eventPayload) = (eventItems document).map encodeJson := by
  rw [← split.eventPayloads, LayerRecord.newEventValues, List.drop_zero, List.map_map]
  rfl

end Rows

theorem Stored.seqs {document : Document} {record : LayerRecord} (stored : Stored tables layerId owner record)
    (split : Splits document record) :
    seqsOf (rowsOf tables layerId) = List.range (rowsOf tables layerId).length := by
  rw [stored.events, split.seqs 0, List.range_eq_range']

theorem Stored.payloads {document : Document} {record : LayerRecord} (stored : Stored tables layerId owner record)
    (split : Splits document record) : tables.eventPayloads layerId = (eventItems document).map encodeJson := by
  rw [Tables.eventPayloads, eventRows_eq (stored.seqs split), stored.events, split.rowPayloads]

theorem Missing.seqs (missing : Missing tables layerId) :
    seqsOf (rowsOf tables layerId) = List.range (rowsOf tables layerId).length := by
  rw [missing.events]
  rfl

theorem Missing.payloads (missing : Missing tables layerId) : tables.eventPayloads layerId = [] := by
  rw [Tables.eventPayloads, eventRows_eq missing.seqs, missing.events]
  rfl

theorem encodeJson_prefix_iff {values longer : List Json} :
    values.map encodeJson <+: longer.map encodeJson ↔ values <+: longer :=
  Logs.map_prefix_map fun _ _ same => dumps_injective same

/-- What a write over a held document needs: no event changed or removed, and an id for each of its own. -/
def Extends (held document : Document) : Prop :=
  eventItems held <+: eventItems document ∧ ((eventItems document).map eventIdOf).Nodup

instance (held document : Document) : Decidable (Extends held document) := inferInstanceAs (Decidable (_ ∧ _))

theorem load_stored (lawful : LawfulDb env) {document : Document} {record : LayerRecord}
    (stored : Stored tables layerId owner record) (shaped : WellShaped document) (split : Splits document record) :
    env.load tables layerId = .ok (some document) := by
  unfold DbEnv.load
  rw [stored.row]
  simp only [fromPayloads_layerValues lawful.roundTrip]
  have payloads : tables.eventPayloads layerId = record.eventPayloads := by
    rw [stored.payloads split, split.eventPayloads]
  refine bind_ok_iff.mpr ⟨_, rfl, bind_ok_iff.mpr ⟨document, ?_, rfl⟩⟩
  rw [payloads]
  exact reconstruct_split lawful.roundTrip shaped split

theorem load_missing (missing : Missing tables layerId) : env.load tables layerId = .ok none := by
  unfold DbEnv.load
  rw [missing.row]
  rfl

theorem whole_rows {held document : Document} {before record : LayerRecord} (splitHeld : Splits held before)
    (split : Splits document record) (grown : eventItems held <+: eventItems document) :
    before.newEventValues layerId 0 ++ record.newEventValues layerId before.events.length =
      record.newEventValues layerId 0 := by
  have first := splitHeld.events.take_eq split.events grown
  have joined : before.events ++ record.events.drop before.events.length = record.events := by
    nth_rewrite 1 [← first]
    exact List.take_append_drop _ _
  rw [LayerRecord.newEventValues, LayerRecord.newEventValues, LayerRecord.newEventValues, List.drop_zero,
    List.drop_zero, ← List.map_append, joined]

section Persist

variable {document : Document} {record : LayerRecord} (split : Splits document record)

include split

section Held

variable {held : Document} {before : LayerRecord} (stored : Stored tables layerId owner before)
  (splitHeld : Splits held before)

include stored splitHeld

theorem appendable_held : Appendable (tables.updateLayer layerId record.layerValues) layerId
    (record.newEventValues layerId before.events.length) := by
  have rows : rowsOf (tables.updateLayer layerId record.layerValues) layerId = before.newEventValues layerId 0 :=
    stored.events
  refine ⟨?_, ?_, newEventValues_owned _ _, split.named _⟩
  · rw [rows, splitHeld.seqs 0, List.range_eq_range']
  · rw [split.seqs, rows]
    simp [LayerRecord.newEventValues]

theorem ids_held (grown : eventItems held <+: eventItems document) :
    ((rowsOf (tables.updateLayer layerId record.layerValues) layerId ++
      record.newEventValues layerId before.events.length).map fun row => row.eventId).Nodup ↔
        ((eventItems document).map eventIdOf).Nodup := by
  have rows : rowsOf (tables.updateLayer layerId record.layerValues) layerId = before.newEventValues layerId 0 :=
    stored.events
  rw [rows, whole_rows splitHeld split grown, split.rowIds]

theorem persist_stored {claimed : Option String} (persisted : env.persist layerId record claimed tables = .ok next) :
    Extends held document ∧ next.layers = (tables.updateLayer layerId record.layerValues).layers ∧
      next.events = tables.events ++ record.newEventValues layerId before.events.length := by
  unfold DbEnv.persist at persisted
  have present : tables.hasLayer layerId = true := by
    rw [Tables.hasLayer, stored.row]
    rfl
  rw [stored.payloads splitHeld, split.eventPayloads] at persisted
  obtain ⟨offset, kept, persisted⟩ := bind_ok_iff.mp persisted
  obtain ⟨grown, rfl⟩ := appendOffset_ok.mp kept
  rw [if_pos present, List.length_map, ← splitHeld.events.length] at persisted
  obtain ⟨_, same, persisted⟩ := bind_ok_iff.mp persisted
  cases same
  obtain ⟨distinct, layers, events⟩ := insertEvents_ok (appendable_held split stored splitHeld) persisted
  have grown := encodeJson_prefix_iff.mp grown
  exact ⟨⟨grown, (ids_held split stored splitHeld grown).mp distinct⟩, layers, events⟩

theorem persist_stored_accepts (extending : Extends held document) (claimed : Option String) :
    ∃ next, env.persist layerId record claimed tables = .ok next := by
  obtain ⟨grown, distinct⟩ := extending
  have present : tables.hasLayer layerId = true := by
    rw [Tables.hasLayer, stored.row]
    rfl
  have known : (tables.updateLayer layerId record.layerValues).hasLayer layerId = true := by
    rw [Tables.hasLayer, layerRow_update, stored.row]
    rfl
  obtain ⟨next, inserted⟩ := insertEvents_accepts (appendable_held split stored splitHeld) known
    ((ids_held split stored splitHeld grown).mpr distinct)
  refine ⟨next, ?_⟩
  unfold DbEnv.persist
  rw [stored.payloads splitHeld, split.eventPayloads]
  refine bind_ok_iff.mpr ⟨_, appendOffset_ok.mpr ⟨encodeJson_prefix_iff.mpr grown, rfl⟩, ?_⟩
  rw [if_pos present, List.length_map, ← splitHeld.events.length]
  exact bind_ok_iff.mpr ⟨_, rfl, inserted⟩

end Held

section Absent

variable (missing : Missing tables layerId)

include missing

theorem appendable_first {middle : Tables} (events : middle.events = tables.events) :
    Appendable middle layerId (record.newEventValues layerId 0) ∧ rowsOf middle layerId = [] := by
  have none : rowsOf middle layerId = [] := by
    rw [rowsOf, events]
    exact missing.events
  refine ⟨⟨?_, ?_, newEventValues_owned _ _, split.named _⟩, none⟩
  · rw [none]
    rfl
  · rw [split.seqs, none]
    rfl

theorem persist_missing (persisted : env.persist layerId record owner tables = .ok next) :
    ((eventItems document).map eventIdOf).Nodup ∧
      (∀ name, owner = some name → name ∉ tables.layers.filterMap fun row => row.productRepoId) ∧
      owner.all env.registered = true ∧ next.layers = tables.layers ++ [⟨layerId, owner, record.layerValues⟩] ∧
      next.events = tables.events ++ record.newEventValues layerId 0 := by
  unfold DbEnv.persist at persisted
  have absent : tables.hasLayer layerId = false := by
    rw [Tables.hasLayer, missing.row]
    rfl
  rw [missing.payloads] at persisted
  obtain ⟨offset, kept, persisted⟩ := bind_ok_iff.mp persisted
  obtain ⟨-, rfl⟩ := appendOffset_ok.mp kept
  rw [absent] at persisted
  obtain ⟨middle, opened, persisted⟩ := bind_ok_iff.mp persisted
  obtain ⟨-, unowned, registered, layers, events⟩ := insertLayer_ok.mp opened
  obtain ⟨appendable, none⟩ := appendable_first split missing events
  obtain ⟨distinct, kept, added⟩ := insertEvents_ok appendable persisted
  rw [none, List.nil_append, split.rowIds] at distinct
  rw [events] at added
  exact ⟨distinct, unowned, registered, kept.trans layers, added⟩

theorem persist_missing_accepts (distinct : ((eventItems document).map eventIdOf).Nodup)
    (unowned : ∀ name, owner = some name → name ∉ tables.layers.filterMap fun row => row.productRepoId)
    (registered : owner.all env.registered = true) :
    ∃ next, env.persist layerId record owner tables = .ok next := by
  have absent : tables.hasLayer layerId = false := by
    rw [Tables.hasLayer, missing.row]
    rfl
  have fresh := layerRow_eq_none.mp missing.row
  have opened : ∃ middle, tables.insertLayer env.registered ⟨layerId, owner, record.layerValues⟩ = .ok middle := by
    unfold Tables.insertLayer
    rw [dif_pos ⟨fresh, unowned⟩]
    exact ⟨_, bind_ok_iff.mpr ⟨(), require_ok_iff.mpr registered, rfl⟩⟩
  obtain ⟨middle, opened⟩ := opened
  obtain ⟨-, -, -, layers, events⟩ := insertLayer_ok.mp opened
  obtain ⟨appendable, none⟩ := appendable_first split missing events
  have known : middle.hasLayer layerId = true := by
    rw [Tables.hasLayer, layerRow_append layers fresh, if_pos rfl]
    rfl
  obtain ⟨next, inserted⟩ := insertEvents_accepts appendable known (by
    rw [none, List.nil_append, split.rowIds]
    exact distinct)
  refine ⟨next, ?_⟩
  unfold DbEnv.persist
  rw [missing.payloads]
  refine bind_ok_iff.mpr ⟨0, appendOffset_ok.mpr ⟨List.nil_prefix, rfl⟩, ?_⟩
  rw [absent]
  exact bind_ok_iff.mpr ⟨middle, opened, inserted⟩

end Absent

end Persist

def Untouched (layerId : String) (tables next : Tables) : Prop :=
  ∀ other, other ≠ layerId → next.layerRow other = tables.layerRow other ∧ rowsOf next other = rowsOf tables other

theorem stored_after {held document : Document} {before record : LayerRecord}
    (stored : Stored tables layerId owner before) (splitHeld : Splits held before) (split : Splits document record)
    {claimed : Option String} (persisted : env.persist layerId record claimed tables = .ok next) :
    Stored next layerId owner record ∧ Untouched layerId tables next := by
  obtain ⟨⟨grown, -⟩, layers, events⟩ := persist_stored split stored splitHeld persisted
  have rows (other : String) : next.layerRow other =
      (tables.layerRow other).map fun row =>
        if row.layerId = layerId then { row with values := record.layerValues } else row := by
    rw [← layerRow_update, Tables.layerRow, Tables.layerRow, layers]
  refine ⟨⟨?_, ?_⟩, fun other apart => ⟨?_, rowsOf_append_other events (newEventValues_owned _ _) apart⟩⟩
  · rw [rows, stored.row]
    simp
  · rw [rowsOf_append events (newEventValues_owned _ _), stored.events]
    exact whole_rows splitHeld split grown
  · rw [rows]
    cases found : tables.layerRow other with
    | none => rfl
    | some row => simp [layerRow_layerId found, apart]

theorem stored_first {document : Document} {record : LayerRecord} (missing : Missing tables layerId)
    (split : Splits document record) (persisted : env.persist layerId record owner tables = .ok next) :
    Stored next layerId owner record ∧ Untouched layerId tables next := by
  obtain ⟨-, -, -, layers, events⟩ := persist_missing split missing persisted
  have rows := layerRow_append layers (layerRow_eq_none.mp missing.row)
  refine ⟨⟨?_, ?_⟩, fun other apart => ⟨?_, rowsOf_append_other events (newEventValues_owned _ _) apart⟩⟩
  · rw [rows, if_pos rfl]
  · rw [rowsOf_append events (newEventValues_owned _ _), missing.events, List.nil_append]
  · rw [rows, if_neg apart]

end LedgerProof
