import TraustLedger.Proofs.DocumentStore

namespace LedgerProof

open Hashing Python Runs LedgerModel DocumentStore

variable {env : DbEnv} {tables : Tables} {store : DocumentStore} {layerId : String} {owner : Option String}
  {document : Document} {dryRun : Bool}

structure Offered (env : DbEnv) (document : Document) (owner : Option String) : Prop where
  named : HasName owner
  recordable : Recordable env document

instance : Decidable (Offered env document owner) :=
  decidable_of_iff (HasName owner ∧ Recordable env document) ⟨fun h => ⟨h.1, h.2⟩, fun h => ⟨h.1, h.2⟩⟩

section Errors

theorem insertLayer_error {registered : String → Bool} {row : LayerRow} {failure : Failure}
    (raised : tables.insertLayer registered row = .error failure) : failure = .integrityError := by
  unfold Tables.insertLayer at raised
  split at raised
  · unfold require at raised
    split at raised
    · cases raised
    · cases raised
      rfl
  · cases raised
    rfl

theorem insertEvent_error {row : EventRow} {failure : Failure} (raised : tables.insertEvent row = .error failure) :
    failure = .integrityError := by
  unfold Tables.insertEvent require at raised
  split at raised
  · split at raised
    · dsimp only [bind, Except.bind] at raised
      split at raised
      · next failed =>
        split at failed
        · cases failed
        · cases failed
          cases raised
          rfl
      · cases raised
    · cases raised
      rfl
  · cases raised
    rfl

theorem insertEvents_error {rows : List EventRow} {failure : Failure}
    (raised : rows.foldlM (fun tables row => tables.insertEvent row) tables = .error failure) :
    failure = .integrityError := by
  induction rows generalizing tables with
  | nil => cases raised
  | cons row rows ih =>
    rw [List.foldlM_cons] at raised
    cases inserted : tables.insertEvent row with
    | error cause =>
      rw [inserted] at raised
      cases raised
      exact insertEvent_error inserted
    | ok next =>
      rw [inserted] at raised
      exact ih raised

theorem persist_error {record : LayerRecord} {failure : Failure} (missing : Missing tables layerId)
    (raised : env.persist layerId record owner tables = .error failure) : failure = .integrityError := by
  have absent : tables.hasLayer layerId = false := by
    rw [Tables.hasLayer, missing.row]
    rfl
  have first : appendOffset layerId record.eventPayloads [] = .ok 0 := appendOffset_ok.mpr ⟨List.nil_prefix, rfl⟩
  unfold DbEnv.persist at raised
  rw [missing.payloads, first, absent] at raised
  dsimp only [bind, Except.bind, Bool.false_eq_true, if_false] at raised
  cases opened : tables.insertLayer env.registered ⟨layerId, owner, record.layerValues⟩ with
  | error cause =>
    simp only [opened] at raised
    cases raised
    exact insertLayer_error opened
  | ok next =>
    simp only [opened] at raised
    exact insertEvents_error raised

theorem requireProductRepo_error (unnamed : ¬ HasName owner) :
    ∃ detail, requireProductRepo owner = .error (.layerStorage detail) :=
  ⟨_, require_error_iff.mpr ⟨unnamed, rfl⟩⟩

theorem requireUnowned_error (owned : requireUnowned tables owner ≠ .ok ()) :
    ∃ detail, requireUnowned tables owner = .error (.layerConflict detail) := by
  unfold requireUnowned at owned ⊢
  cases found : owner.bind tables.ownedLayer with
  | some existing => exact ⟨_, rfl⟩
  | none =>
    rw [found] at owned
    exact absurd rfl owned

theorem objectOf_error {label : String} {value : Json} {failure : Failure}
    (raised : objectOf label .invalidLayerDocument value = .error failure) :
    ∃ detail, failure = .invalidLayerDocument detail := by
  cases value with
  | obj fields => cases raised
  | _ =>
    cases raised
    exact ⟨_, rfl⟩

theorem arrayOf_error {label : String} {value : Json} {failure : Failure}
    (raised : arrayOf label .invalidLayerDocument value = .error failure) :
    ∃ detail, failure = .invalidLayerDocument detail := by
  cases value with
  | arr items => cases raised
  | _ =>
    cases raised
    exact ⟨_, rfl⟩

theorem eventRecord_error {sequence : Nat} {value : Json} {failure : Failure}
    (raised : EventRecord.fromDocument sequence value = .error failure) :
    ∃ detail, failure = .invalidLayerDocument detail := by
  rcases bind_error_iff.mp raised with raised | ⟨fields, -, raised⟩
  · exact objectOf_error raised
  · split at raised
    · rcases bind_error_iff.mp raised with raised | ⟨_, -, raised⟩
      · exact ⟨_, (require_error_iff.mp raised).2.symm⟩
      · cases raised
    · cases raised
      exact ⟨_, rfl⟩

theorem eventRecords_error {sequence : Nat} {values : List Json} {failure : Failure}
    (raised : eventRecords sequence values = .error failure) : ∃ detail, failure = .invalidLayerDocument detail := by
  induction values generalizing sequence with
  | nil => cases raised
  | cons value values ih =>
    rcases bind_error_iff.mp raised with raised | ⟨record, -, raised⟩
    · exact eventRecord_error raised
    · rcases bind_error_iff.mp raised with raised | ⟨records, -, raised⟩
      · exact ih raised
      · cases raised

theorem fromDocument_error {failure : Failure} (raised : LayerRecord.fromDocument document = .error failure) :
    ∃ detail, failure = .invalidLayerDocument detail := by
  rcases bind_error_iff.mp raised with raised | ⟨metadata, -, raised⟩
  · exact objectOf_error raised
  · rcases bind_error_iff.mp raised with raised | ⟨events, -, raised⟩
    · exact arrayOf_error raised
    · rcases bind_error_iff.mp raised with raised | ⟨review, -, raised⟩
      · exact arrayOf_error raised
      · rcases bind_error_iff.mp raised with raised | ⟨records, -, raised⟩
        · exact eventRecords_error raised
        · cases raised

end Errors

section Outcomes

variable (lawful : LawfulDb env) (represents : Represents env tables store)

include lawful in
theorem import_unoffered (refused : ¬ Offered env document owner) :
    ∃ failure, failure.isStorage = true ∧ (∀ detail, failure ≠ .layerConflict detail) ∧
      ∀ layerId dryRun tables, env.importLayer layerId document owner dryRun tables = (tables, .error failure) := by
  by_cases named : HasName owner
  · by_cases valid : env.validate document = true
    · cases read : LayerRecord.fromDocument document with
      | ok record =>
        exact absurd ⟨named, (recordable_iff lawful).mpr ⟨validateLayer_ok.mpr valid, record, read⟩⟩ refused
      | error failure =>
        rcases fromDocument_error read with ⟨detail, rfl⟩
        refine ⟨.invalidLayerDocument detail, rfl, by simp, fun layerId dryRun tables => ?_⟩
        simp only [DbEnv.importLayer, requireProductRepo_ok.mpr named, validateLayer_ok.mpr valid, checked, transaction,
          read, bind, Except.bind]
    · refine ⟨.invalidLayerDocument "invalid complete layer", rfl, by simp, fun layerId dryRun tables => ?_⟩
      simp only [DbEnv.importLayer, requireProductRepo_ok.mpr named, DbEnv.validateLayer, require, if_neg valid, checked]
  · rcases requireProductRepo_error named with ⟨detail, unnamed⟩
    refine ⟨.layerStorage detail, rfl, by simp, fun layerId dryRun tables => ?_⟩
    simp only [DbEnv.importLayer, unnamed, checked]

include lawful represents

theorem import_held {held : Held} (offered : Offered env document owner) (present : store layerId = some held)
    (same : held.document.same document = true) (owned : held.owner = owner) :
    env.importLayer layerId document owner dryRun tables = (tables, .ok .skipped) := by
  rcases (recordable_iff lawful).mp offered.recordable with ⟨valid, record, read⟩
  simp only [DbEnv.importLayer, requireProductRepo_ok.mpr offered.named, valid, checked, transaction, read,
    represents.load lawful, present, Option.map_some, represents.productRepo present, same, owned, bind, Except.bind,
    require, if_true, pure, Except.pure]

theorem import_conflicting {held : Held} (offered : Offered env document owner) (present : store layerId = some held)
    (differs : ¬ (held.document.same document = true ∧ held.owner = owner)) :
    ∃ detail, env.importLayer layerId document owner dryRun tables = (tables, .error (.layerConflict detail)) := by
  rcases (recordable_iff lawful).mp offered.recordable with ⟨valid, record, read⟩
  simp only [DbEnv.importLayer, requireProductRepo_ok.mpr offered.named, valid, checked, transaction, read,
    represents.load lawful, present, Option.map_some, represents.productRepo present, bind, Except.bind, require]
  by_cases same : held.document.same document = true
  · have other : ¬ held.owner = owner := fun owned => differs ⟨same, owned⟩
    simp only [same, other, if_true, if_false]
    exact ⟨_, rfl⟩
  · simp only [same]
    exact ⟨_, rfl⟩

theorem import_owned (offered : Offered env document owner) (absent : store layerId = none)
    (taken : ¬ store.Free owner) :
    ∃ detail, env.importLayer layerId document owner dryRun tables = (tables, .error (.layerConflict detail)) := by
  rcases (recordable_iff lawful).mp offered.recordable with ⟨valid, record, read⟩
  rcases requireUnowned_error (fun free => taken (represents.free.mpr (requireUnowned_ok.mp free))) with ⟨detail, owned⟩
  refine ⟨detail, ?_⟩
  simp only [DbEnv.importLayer, requireProductRepo_ok.mpr offered.named, valid, checked, transaction, read,
    represents.load lawful, absent, Option.map_none, owned, bind, Except.bind]

theorem import_previewed (offered : Offered env document owner) (absent : store layerId = none)
    (free : store.Free owner) :
    env.importLayer layerId document owner true tables = (tables, .ok .wouldInsert) := by
  rcases (recordable_iff lawful).mp offered.recordable with ⟨valid, record, read⟩
  have unowned := requireUnowned_ok.mpr (represents.free.mp free)
  simp only [DbEnv.importLayer, requireProductRepo_ok.mpr offered.named, valid, checked, transaction, read,
    represents.load lawful, absent, Option.map_none, unowned, bind, Except.bind, if_true, pure, Except.pure]

theorem import_inserted (offered : Offered env document owner) (absent : store layerId = none)
    (free : store.Free owner) (registered : owner.all env.registered = true) (distinct : DistinctEvents document) :
    ∃ next, env.importLayer layerId document owner false tables = (next, .ok .inserted) ∧
      Represents env next (store.put layerId ⟨owner, document⟩) := by
  have creating : create env store layerId document owner = some (store.put layerId ⟨owner, document⟩) :=
    if_pos ⟨absent, offered.named, free, registered, offered.recordable, distinct⟩
  rcases create_persists lawful represents creating with ⟨record, next, valid, read, persisted, standing⟩
  have unowned := requireUnowned_ok.mpr (represents.free.mp free)
  have reloaded : env.load next layerId = .ok (some document) := by
    rw [standing.load lawful, DocumentStore.put, Function.update_self]
    rfl
  refine ⟨next, ?_, standing⟩
  simp only [DbEnv.importLayer, requireProductRepo_ok.mpr offered.named, valid, checked, transaction, read,
    represents.load lawful, absent, Option.map_none, unowned, bind, Except.bind, Bool.false_eq_true, if_false,
    rethrow_ok_iff.mpr persisted, reloaded, require, Document.same, Json.pyEq_self, if_true, pure, Except.pure]

theorem import_broken (offered : Offered env document owner) (absent : store layerId = none)
    (free : store.Free owner) (broken : ¬ (owner.all env.registered = true ∧ DistinctEvents document)) :
    ∃ detail, env.importLayer layerId document owner false tables = (tables, .error (.layerConflict detail)) := by
  rcases (recordable_iff lawful).mp offered.recordable with ⟨valid, record, read⟩
  have unowned := requireUnowned_ok.mpr (represents.free.mp free)
  cases persisted : env.persist layerId record owner tables with
  | ok next =>
    have shaped := lawful.shaped _ (validateLayer_ok.mp valid)
    rcases persist_missing ((fromDocument_ok shaped).mp read) (represents.missing absent) persisted with
      ⟨distinct, -, registered, -⟩
    exact absurd ⟨registered, distinct⟩ broken
  | error failure =>
    cases persist_error (represents.missing absent) persisted
    simp only [DbEnv.importLayer, requireProductRepo_ok.mpr offered.named, valid, checked, transaction, read,
      represents.load lawful, absent, Option.map_none, unowned, bind, Except.bind, Bool.false_eq_true, if_false,
      persisted, rethrow, Failure.isIntegrityError, if_true]
    exact ⟨_, rfl⟩

end Outcomes

end LedgerProof
