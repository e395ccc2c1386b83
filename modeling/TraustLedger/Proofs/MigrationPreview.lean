import TraustLedger.Migration
import TraustLedger.Proofs.ImportOutcomes
import TraustLedger.Proofs.SignatureBinding

namespace LedgerProof

open Hashing Python Runs Sha256 LedgerModel DocumentStore

variable {env : MigrationEnv} {tables origin : Tables} {store kept : DocumentStore} {layer : SourceLayer}
  {dryRun : Bool}

def previewed : MigrationStatus → MigrationStatus
  | .inserted => .wouldInsert
  | status => status

/-- The dry run reports what the real run reports from the same tables, and leaves them as they were. -/
structure DryRunPredicts (env : MigrationEnv) (selected : Option (List String)) (layers : List SourceLayer)
    (tables : Tables) : Prop where
  statuses : (migrate env false selected layers tables).results.map (fun result => previewed result.status) =
    (migrate env true selected layers tables).results.map fun result => result.status
  unchanged : (migrate env true selected layers tables).tables = tables

/-- A layer that ends the run, whatever the tables hold: an error that is not caught, or a length that is none. -/
def stops (env : MigrationEnv) (layer : SourceLayer) : Bool :=
  layer.error.getD "" == "" &&
    ((match env.validate layer with
      | .error failure => !failure.isMigrationError
      | .ok _ => false) || !(MigrationEnv.report layer .quarantined 0 none).isOk)

def reached (env : MigrationEnv) (selected : Option (List String)) (layers : List SourceLayer) : List SourceLayer :=
  (layers.filter (isSelected selected)).takeWhile fun layer => !stops env layer

/-- The layer is one to insert: nothing is wrong with it, and neither its id nor its owner has a layer yet. -/
structure ToInsert (env : MigrationEnv) (tables : Tables) (layer : SourceLayer) : Prop where
  clean : layer.error.getD "" = ""
  validated : ∃ warnings, env.validate layer = .ok warnings
  named : requireProductRepo layer.productRepoId = .ok ()
  complete : env.db.validateLayer layer.document = .ok ()
  recorded : ∃ record, LayerRecord.fromDocument layer.document = .ok record
  absent : tables.hasLayer layer.layerId = false
  unowned : requireUnowned tables layer.productRepoId = .ok ()

structure Insertable (env : MigrationEnv) (layer : SourceLayer) : Prop where
  registered : layer.productRepoId.all env.db.registered = true
  distinct : ((eventItems layer.document).map eventIdOf).Nodup

def Unshared (left right : SourceLayer) : Prop :=
  left.layerId ≠ right.layerId ∧ left.productRepoId ≠ right.productRepoId

/-- No layer to insert breaks a constraint, and no two of them share their id or their owner. -/
structure Independent (env : MigrationEnv) (tables : Tables) (layers : List SourceLayer) : Prop where
  insertable : ∀ layer ∈ layers, ToInsert env tables layer → Insertable env layer
  apart : layers.Pairwise fun left right => ToInsert env tables left → ToInsert env tables right → Unshared left right

section Layers

theorem toInsert_iff (lawful : LawfulDb env.db) (represents : Represents env.db tables store) :
    ToInsert env tables layer ↔ layer.error.getD "" = "" ∧ (∃ warnings, env.validate layer = .ok warnings) ∧
      Offered env.db layer.document layer.productRepoId ∧ store layer.layerId = none ∧
      store.Free layer.productRepoId := by
  constructor
  · rintro ⟨clean, validated, named, complete, recorded, absent, unowned⟩
    rw [represents.hasLayer, Option.isSome_eq_false_iff, Option.isNone_iff_eq_none] at absent
    exact ⟨clean, validated, ⟨requireProductRepo_ok.mp named, (recordable_iff lawful).mpr ⟨complete, recorded⟩⟩, absent,
      represents.free.mpr (requireUnowned_ok.mp unowned)⟩
  · rintro ⟨clean, validated, offered, absent, free⟩
    rcases (recordable_iff lawful).mp offered.recordable with ⟨complete, recorded⟩
    refine ⟨clean, validated, requireProductRepo_ok.mpr offered.named, complete, recorded, ?_,
      requireUnowned_ok.mpr (represents.free.mp free)⟩
    rw [represents.hasLayer, absent]
    rfl

theorem report_of_countable (countable : (MigrationEnv.report layer .quarantined 0 none).isOk = true)
    (status : MigrationStatus) (warnings : Nat) (detail : Option String) :
    ∃ result, MigrationEnv.report layer status warnings detail = .ok result ∧ result.status = status := by
  rcases exists_of_isOk countable with ⟨result, reported⟩
  rcases bind_ok_iff.mp reported with ⟨events, counted, reported⟩
  rcases bind_ok_iff.mp reported with ⟨reviewItems, queued, -⟩
  exact ⟨_, bind_ok_iff.mpr ⟨events, counted, bind_ok_iff.mpr ⟨reviewItems, queued, rfl⟩⟩, rfl⟩

theorem refuse_of_countable (countable : (MigrationEnv.report layer .quarantined 0 none).isOk = true)
    {failure : Failure} (caught : failure.isMigrationError = true) :
    ∃ result, MigrationEnv.refuse layer failure = .ok result ∧ result.status = .ofFailure failure := by
  rw [MigrationEnv.refuse, if_pos caught]
  exact report_of_countable countable _ _ _

theorem report_of_uncountable (uncountable : (MigrationEnv.report layer .quarantined 0 none).isOk = false)
    (status : MigrationStatus) (warnings : Nat) (detail : Option String) :
    ∃ failure, MigrationEnv.report layer status warnings detail = .error failure := by
  cases reported : MigrationEnv.report layer status warnings detail with
  | error failure => exact ⟨failure, rfl⟩
  | ok result =>
    rcases bind_ok_iff.mp reported with ⟨events, counted, reported⟩
    rcases bind_ok_iff.mp reported with ⟨reviewItems, queued, -⟩
    refine absurd ?_ (ne_ok_of_isOk uncountable ⟨layer.layerId, .quarantined, layer.source, events, reviewItems, 0, none⟩)
    exact bind_ok_iff.mpr ⟨events, counted, bind_ok_iff.mpr ⟨reviewItems, queued, rfl⟩⟩

theorem refuse_of_uncountable (uncountable : (MigrationEnv.report layer .quarantined 0 none).isOk = false)
    (failure : Failure) : ∃ raised, MigrationEnv.refuse layer failure = .error raised := by
  unfold MigrationEnv.refuse
  split
  · exact report_of_uncountable uncountable _ _ _
  · exact ⟨failure, rfl⟩

theorem migrateLayer_stops (stopping : stops env layer = true) (dryRun : Bool) (tables : Tables) :
    ∃ next failure, env.migrateLayer dryRun layer tables = (next, .error failure) := by
  simp only [stops, Bool.and_eq_true, beq_iff_eq, Bool.or_eq_true, Bool.not_eq_true'] at stopping
  rcases stopping with ⟨clean, cause⟩
  unfold MigrationEnv.migrateLayer
  rw [if_neg (not_not.mpr clean)]
  rcases cause with uncaught | uncountable
  · cases checked : env.validate layer with
    | ok warnings =>
      rw [checked] at uncaught
      cases uncaught
    | error failure =>
      rw [checked] at uncaught
      have raises : failure.isMigrationError = false := by simpa using uncaught
      exact ⟨tables, failure, by simp [MigrationEnv.refuse, raises]⟩
  · cases env.validate layer with
    | error failure =>
      rcases refuse_of_uncountable uncountable failure with ⟨raised, refused⟩
      exact ⟨tables, raised, by rw [← refused]⟩
    | ok warnings =>
      rcases env.db.importLayer layer.layerId layer.document layer.productRepoId dryRun tables with ⟨next, outcome⟩
      cases outcome with
      | error failure =>
        rcases refuse_of_uncountable uncountable failure with ⟨raised, refused⟩
        exact ⟨next, raised, by rw [← refused]⟩
      | ok value =>
        rcases report_of_uncountable uncountable (.ofImported value) warnings none with ⟨raised, reported⟩
        exact ⟨next, raised, by rw [← reported]⟩

def Gives (env : MigrationEnv) (dryRun : Bool) (layer : SourceLayer) (tables next : Tables) (status : MigrationStatus) :
    Prop :=
  ∃ result, env.migrateLayer dryRun layer tables = (next, .ok result) ∧ result.status = status

structure Imports (env : MigrationEnv) (layer : SourceLayer) : Prop where
  clean : layer.error.getD "" = ""
  validated : ∃ warnings, env.validate layer = .ok warnings
  countable : (MigrationEnv.report layer .quarantined 0 none).isOk = true

theorem Imports.accepted (imports : Imports env layer) {next : Tables} {imported : Imported}
    (accepted : env.db.importLayer layer.layerId layer.document layer.productRepoId dryRun tables =
      (next, .ok imported)) : Gives env dryRun layer tables next (.ofImported imported) := by
  rcases imports.validated with ⟨warnings, validated⟩
  rcases report_of_countable imports.countable (.ofImported imported) warnings none with ⟨result, reported, status⟩
  refine ⟨result, ?_, status⟩
  simp only [MigrationEnv.migrateLayer, imports.clean, ne_eq, not_true_eq_false, if_false, validated, accepted, reported]

theorem Imports.refused (imports : Imports env layer) {next : Tables} {failure : Failure}
    (caught : failure.isMigrationError = true)
    (refused : env.db.importLayer layer.layerId layer.document layer.productRepoId dryRun tables =
      (next, .error failure)) : Gives env dryRun layer tables next (.ofFailure failure) := by
  rcases imports.validated with ⟨warnings, validated⟩
  rcases refuse_of_countable imports.countable caught with ⟨result, reported, status⟩
  refine ⟨result, ?_, status⟩
  simp only [MigrationEnv.migrateLayer, imports.clean, ne_eq, not_true_eq_false, if_false, validated, refused, reported]

theorem ofFailure_ne (failure : Failure) : MigrationStatus.ofFailure failure = .conflict ∨
    MigrationStatus.ofFailure failure = .quarantined := by
  cases failure with
  | layerConflict detail => exact Or.inl rfl
  | _ => exact Or.inr rfl

theorem goes_on (going : stops env layer = false) :
    (∃ status, (status = .conflict ∨ status = .quarantined) ∧
      ∀ dryRun tables, Gives env dryRun layer tables tables status) ∧
      ¬ (layer.error.getD "" = "" ∧ ∃ warnings, env.validate layer = .ok warnings) ∨ Imports env layer := by
  by_cases clean : layer.error.getD "" = ""
  · simp only [stops, clean, beq_self_eq_true, Bool.true_and, Bool.or_eq_false_iff, Bool.not_eq_false'] at going
    rcases going with ⟨caught, countable⟩
    cases validated : env.validate layer with
    | ok warnings => exact Or.inr ⟨clean, ⟨warnings, validated⟩, countable⟩
    | error failure =>
      rw [validated] at caught
      have caught : failure.isMigrationError = true := by simpa using caught
      rcases refuse_of_countable countable caught with ⟨result, reported, status⟩
      refine Or.inl ⟨⟨.ofFailure failure, ofFailure_ne failure, fun dryRun tables => ⟨result, ?_, status⟩⟩, ?_⟩
      · simp only [MigrationEnv.migrateLayer, clean, ne_eq, not_true_eq_false, if_false, validated, reported]
      · rintro ⟨-, warnings, passed⟩
        cases passed
  · refine Or.inl ⟨⟨.quarantined, Or.inr rfl, fun dryRun tables => ?_⟩, fun both => clean both.1⟩
    refine ⟨⟨layer.layerId, .quarantined, layer.source, 0, 0, 0, layer.error⟩, ?_, rfl⟩
    unfold MigrationEnv.migrateLayer
    rw [if_pos clean]

end Layers

section Growth

variable {before : DocumentStore} {earlier : List SourceLayer} {owner : Option String}

structure Grown (before store : DocumentStore) (earlier : List SourceLayer) : Prop where
  fresh : ∀ past ∈ earlier, before past.layerId = none ∧ before.Free past.productRepoId
  kept : ∀ layerId, (∀ past ∈ earlier, past.layerId ≠ layerId) → store layerId = before layerId
  added : ∀ past ∈ earlier, store past.layerId = some ⟨past.productRepoId, past.document⟩

theorem grown_nil (store : DocumentStore) : Grown store store [] := by
  refine ⟨?_, fun _ _ => rfl, ?_⟩
  · intro past member
    cases member
  · intro past member
    cases member

theorem Grown.cons (grown : Grown before store earlier) (absent : before layer.layerId = none)
    (free : before.Free layer.productRepoId) (apart : ∀ past ∈ earlier, past.layerId ≠ layer.layerId) :
    Grown before (store.put layer.layerId ⟨layer.productRepoId, layer.document⟩) (layer :: earlier) := by
  refine ⟨List.forall_mem_cons.mpr ⟨⟨absent, free⟩, grown.fresh⟩, ?_, List.forall_mem_cons.mpr ⟨?_, ?_⟩⟩
  · intro layerId others
    rcases List.forall_mem_cons.mp others with ⟨here, past⟩
    rw [DocumentStore.put, Function.update_of_ne here.symm]
    exact grown.kept layerId past
  · rw [DocumentStore.put, Function.update_self]
  · intro past member
    rw [DocumentStore.put, Function.update_of_ne (apart past member)]
    exact grown.added past member

theorem Grown.held (grown : Grown before store earlier) {layerId : String} {held : Held}
    (present : before layerId = some held) : store layerId = some held := by
  rw [grown.kept layerId, present]
  intro past member same
  rw [← same, (grown.fresh past member).1] at present
  cases present

theorem Grown.cases (grown : Grown before store earlier) (layerId : String) :
    store layerId = before layerId ∨
      ∃ past ∈ earlier, past.layerId = layerId ∧ store layerId = some ⟨past.productRepoId, past.document⟩ := by
  by_cases known : ∃ past ∈ earlier, past.layerId = layerId
  · rcases known with ⟨past, member, rfl⟩
    exact Or.inr ⟨past, member, rfl, grown.added past member⟩
  · exact Or.inl (grown.kept layerId fun past member same => known ⟨past, member, same⟩)

theorem Grown.free_iff (grown : Grown before store earlier) {name : String} :
    store.Free (some name) ↔ before.Free (some name) ∧ ∀ past ∈ earlier, past.productRepoId ≠ some name := by
  constructor
  · intro free
    refine ⟨fun owner same layerId held present => free owner same layerId held (grown.held present), ?_⟩
    intro past member
    exact free name rfl past.layerId _ (grown.added past member)
  · rintro ⟨free, untaken⟩ owner same layerId held present
    cases same
    rcases grown.cases layerId with kept | ⟨past, member, -, added⟩
    · exact free name rfl layerId held (kept.symm.trans present)
    · rw [added] at present
      cases present
      exact untaken past member

theorem HasName.some (named : HasName owner) : ∃ name, owner = some name := by
  cases owner with
  | none => exact absurd rfl named
  | some name => exact ⟨name, rfl⟩

end Growth

section Steps

variable {before : DocumentStore} {earlier : List SourceLayer} (lawful : LawfulDb env.db)
  (start : Represents env.db origin before) (standing : Represents env.db tables store)
  (grown : Grown before store earlier)

theorem isMigrationError_of_storage {failure : Failure} (storage : failure.isStorage = true) :
    failure.isMigrationError = true := by
  cases failure <;> first | rfl | cases storage

include lawful start standing grown

theorem other_step (going : stops env layer = false) (other : ¬ ToInsert env origin layer) :
    ∃ status, previewed status = status ∧ Gives env true layer origin origin status ∧
      Gives env false layer tables tables status := by
  rcases goes_on going with ⟨⟨status, refused, gives⟩, -⟩ | imports
  · refine ⟨status, ?_, gives true origin, gives false tables⟩
    rcases refused with rfl | rfl
    · rfl
    · rfl
  by_cases offered : Offered env.db layer.document layer.productRepoId
  · have conflicts {dryRun : Bool} {tables : Tables} (conflict : ∃ detail, env.db.importLayer layer.layerId
        layer.document layer.productRepoId dryRun tables = (tables, .error (.layerConflict detail))) :
        Gives env dryRun layer tables tables .conflict := by
      rcases conflict with ⟨detail, refused⟩
      exact imports.refused (isMigrationError_of_storage rfl) refused
    cases present : before layer.layerId with
    | some held =>
      by_cases same : held.document.same layer.document = true ∧ held.owner = layer.productRepoId
      · exact ⟨.skipped, rfl, imports.accepted (import_held lawful start offered present same.1 same.2),
          imports.accepted (import_held lawful standing offered (grown.held present) same.1 same.2)⟩
      · exact ⟨.conflict, rfl, conflicts (import_conflicting lawful start offered present same),
          conflicts (import_conflicting lawful standing offered (grown.held present) same)⟩
    | none =>
      have taken : ¬ before.Free layer.productRepoId := fun free =>
        other ((toInsert_iff lawful start).mpr ⟨imports.clean, imports.validated, offered, present, free⟩)
      refine ⟨.conflict, rfl, conflicts (import_owned lawful start offered present taken), conflicts ?_⟩
      rcases grown.cases layer.layerId with kept | ⟨past, member, -, added⟩
      · -- The owner that was taken before is taken still.
        rcases HasName.some offered.named with ⟨name, owned⟩
        refine import_owned lawful standing offered (kept.trans present) ?_
        rw [owned] at taken ⊢
        exact fun free => taken (grown.free_iff.mp free).1
      · -- The id has a layer by now, of an owner that was free.
        refine import_conflicting lawful standing offered added fun same => taken ?_
        rw [← same.2]
        exact (grown.fresh past member).2
  · rcases import_unoffered lawful offered with ⟨failure, storage, -, refused⟩
    refine ⟨.ofFailure failure, ?_, imports.refused (isMigrationError_of_storage storage) (refused _ true origin),
      imports.refused (isMigrationError_of_storage storage) (refused _ false tables)⟩
    rcases ofFailure_ne failure with conflict | quarantined
    · rw [conflict]
      rfl
    · rw [quarantined]
      rfl

theorem insert_step (going : stops env layer = false) (fresh : ToInsert env origin layer) :
    Gives env true layer origin origin .wouldInsert ∧
      (Insertable env layer ∧ (∀ past ∈ earlier, Unshared past layer) →
        ∃ next, Gives env false layer tables next .inserted ∧
        Represents env.db next (store.put layer.layerId ⟨layer.productRepoId, layer.document⟩) ∧
        Grown before (store.put layer.layerId ⟨layer.productRepoId, layer.document⟩) (layer :: earlier)) ∧
      (¬ (Insertable env layer ∧ ∀ past ∈ earlier, Unshared past layer) →
        ∃ status, previewed status ≠ .wouldInsert ∧ Gives env false layer tables tables status) := by
  rcases (toInsert_iff lawful start).mp fresh with ⟨clean, validated, offered, absent, free⟩
  have imports : Imports env layer := by
    rcases goes_on going with ⟨-, refused⟩ | imports
    · exact absurd ⟨clean, validated⟩ refused
    · exact imports
  rcases HasName.some offered.named with ⟨name, owned⟩
  refine ⟨imports.accepted (import_previewed lawful start offered absent free), ?_, ?_⟩
  · rintro ⟨insertable, apart⟩
    have free' : store.Free layer.productRepoId := by
      rw [owned] at free ⊢
      exact grown.free_iff.mpr ⟨free, fun past member same => (apart past member).2 (same.trans owned.symm)⟩
    have absent' : store layer.layerId = none :=
      (grown.kept layer.layerId fun past member => (apart past member).1).trans absent
    rcases import_inserted lawful standing offered absent' free' insertable.registered insertable.distinct with
      ⟨next, accepted, represents⟩
    exact ⟨next, imports.accepted accepted, represents, grown.cons absent free fun past member => (apart past member).1⟩
  · intro refused
    rcases grown.cases layer.layerId with kept | ⟨past, member, -, added⟩
    · have absent' : store layer.layerId = none := kept.trans absent
      have conflict : ∃ detail, env.db.importLayer layer.layerId layer.document layer.productRepoId false tables =
          (tables, .error (.layerConflict detail)) := by
        by_cases free' : store.Free layer.productRepoId
        · refine import_broken lawful standing offered absent' free' fun sound => refused ⟨⟨sound.1, sound.2⟩, ?_⟩
          intro past member
          refine ⟨fun same => ?_, fun same => ?_⟩
          · rw [← same, grown.added past member] at absent'
            cases absent'
          · rw [owned] at free' same
            exact (grown.free_iff.mp free').2 past member same
        · exact import_owned lawful standing offered absent' free'
      rcases conflict with ⟨detail, raised⟩
      exact ⟨.conflict, by decide, imports.refused (isMigrationError_of_storage rfl) raised⟩
    · by_cases same : past.document.same layer.document = true ∧ past.productRepoId = layer.productRepoId
      · exact ⟨.skipped, by decide, imports.accepted (import_held lawful standing offered added same.1 same.2)⟩
      · rcases import_conflicting lawful standing offered added same with ⟨detail, raised⟩
        exact ⟨.conflict, by decide, imports.refused (isMigrationError_of_storage rfl) raised⟩

end Steps

section Runs

variable {selected : Option (List String)} {layers : List SourceLayer} {next : Tables} {status : MigrationStatus}

theorem migrate_unselected (skipped : isSelected selected layer = false) :
    migrate env dryRun selected (layer :: layers) tables = migrate env dryRun selected layers tables := by
  rw [migrate, if_neg (by simp [skipped])]

theorem migrate_stopped (taken : isSelected selected layer = true) (stopping : stops env layer = true) :
    (migrate env dryRun selected (layer :: layers) tables).results = [] := by
  rcases migrateLayer_stops stopping dryRun tables with ⟨next, failure, raised⟩
  rw [migrate, if_pos taken, raised]

theorem migrate_given (taken : isSelected selected layer = true) (gives : Gives env dryRun layer tables next status)
    (layers : List SourceLayer) :
    ∃ result, (migrate env dryRun selected (layer :: layers) tables).results =
      result :: (migrate env dryRun selected layers next).results ∧ result.status = status := by
  rcases gives with ⟨result, migrated, status⟩
  refine ⟨result, ?_, status⟩
  rw [migrate, if_pos taken, migrated]

theorem reached_unselected (skipped : isSelected selected layer = false) :
    reached env selected (layer :: layers) = reached env selected layers := by
  rw [reached, List.filter_cons_of_neg (by simp [skipped]), reached]

theorem reached_stopped (taken : isSelected selected layer = true) (stopping : stops env layer = true) :
    reached env selected (layer :: layers) = [] := by
  rw [reached, List.filter_cons_of_pos taken, List.takeWhile_cons_of_neg (by simp [stopping])]

theorem reached_going (taken : isSelected selected layer = true) (going : stops env layer = false) :
    reached env selected (layer :: layers) = layer :: reached env selected layers := by
  rw [reached, List.filter_cons_of_pos taken, List.takeWhile_cons_of_pos (by simp [going]), reached]

theorem checked_fst {α : Type} {check : Outcome Unit} {rest : Tables × Outcome α} (same : rest.1 = tables) :
    (checked tables check rest).1 = tables := by
  unfold checked
  split
  · exact same
  · rfl

theorem transaction_fst {α : Type} {block : Tables → Outcome (Tables × α)}
    (same : ∀ next value, block tables = .ok (next, value) → next = tables) : (transaction tables block).1 = tables := by
  unfold transaction
  split
  · next committed result done => exact same committed result done
  · rfl

theorem importLayer_dry (db : DbEnv) (layerId : String) (document : Document) (owner : Option String)
    (tables : Tables) : (db.importLayer layerId document owner true tables).1 = tables := by
  refine checked_fst (checked_fst (transaction_fst fun next imported accepted => ?_))
  rcases bind_ok_iff.mp accepted with ⟨record, -, accepted⟩
  rcases bind_ok_iff.mp accepted with ⟨loaded, -, accepted⟩
  cases loaded with
  | some existing =>
    cases gate_passed (gate_passed accepted)
    rfl
  | none =>
    cases gate_passed accepted
    rfl

theorem migrateLayer_dry (env : MigrationEnv) (layer : SourceLayer) (tables : Tables) :
    (env.migrateLayer true layer tables).1 = tables := by
  unfold MigrationEnv.migrateLayer
  split
  · rfl
  · split
    · rfl
    · have same := importLayer_dry env.db layer.layerId layer.document layer.productRepoId tables
      split
      · next next failure imported =>
        rw [imported] at same
        exact same
      · next next value imported =>
        rw [imported] at same
        exact same

theorem migrate_dry_unchanged (layers : List SourceLayer) : (migrate env true selected layers tables).tables = tables := by
  induction layers with
  | nil => rfl
  | cons layer layers ih =>
    have same := migrateLayer_dry env layer tables
    rw [migrate]
    split
    · split
      · next next failure migrated =>
        rw [migrated] at same
        exact same
      · next next result migrated =>
        rw [migrated] at same
        cases same
        exact ih
    · exact ih

variable {before : DocumentStore} {earlier : List SourceLayer} (lawful : LawfulDb env.db)
  (start : Represents env.db origin before)

include lawful start

/-- By induction over the layers; the invariant is that the real run's store is the first one with the layers inserted
    so far. -/
theorem statuses_iff (standing : Represents env.db tables store) (grown : Grown before store earlier)
    (selected : Option (List String)) (layers : List SourceLayer) :
    (migrate env false selected layers tables).results.map (fun result => previewed result.status) =
        (migrate env true selected layers origin).results.map (fun result => result.status) ↔
      (∀ layer ∈ reached env selected layers, ToInsert env origin layer →
        Insertable env layer ∧ ∀ past ∈ earlier, Unshared past layer) ∧
      (reached env selected layers).Pairwise fun left right =>
        ToInsert env origin left → ToInsert env origin right → Unshared left right := by
  induction layers generalizing tables store earlier with
  | nil => simp [migrate, reached]
  | cons layer layers ih =>
    cases taken : isSelected selected layer with
    | false =>
      rw [migrate_unselected taken, migrate_unselected taken, reached_unselected taken]
      exact ih standing grown
    | true =>
      cases stopping : stops env layer with
      | true =>
        rw [migrate_stopped taken stopping, migrate_stopped taken stopping, reached_stopped taken stopping]
        simp
      | false =>
        rw [reached_going taken stopping, List.forall_mem_cons, List.pairwise_cons]
        by_cases fresh : ToInsert env origin layer
        · rcases insert_step lawful start standing grown stopping fresh with ⟨shown, inserts, refuses⟩
          rcases migrate_given taken shown layers with ⟨seen, preview, wouldInsert⟩
          by_cases sound : Insertable env layer ∧ ∀ past ∈ earlier, Unshared past layer
          · rcases inserts sound with ⟨next, given, represents, grown⟩
            rcases migrate_given taken given layers with ⟨result, run, inserted⟩
            rw [run, preview, List.map_cons, List.map_cons, List.cons.injEq, inserted, wouldInsert, ih represents grown]
            constructor
            · rintro ⟨-, later, apart⟩
              refine ⟨⟨fun _ => sound, fun other member toInsert => ?_⟩, fun other member _ toInsert => ?_, apart⟩
              · exact (later other member toInsert).imp_right fun apart => (List.forall_mem_cons.mp apart).2
              · exact (List.forall_mem_cons.mp (later other member toInsert).2).1
            · rintro ⟨⟨-, later⟩, first, apart⟩
              refine ⟨rfl, fun other member toInsert => ⟨(later other member toInsert).1, ?_⟩, apart⟩
              exact List.forall_mem_cons.mpr ⟨first other member fresh toInsert, (later other member toInsert).2⟩
          · rcases refuses sound with ⟨status, differs, given⟩
            rcases migrate_given taken given layers with ⟨result, run, reported⟩
            rw [run, preview, List.map_cons, List.map_cons, List.cons.injEq, reported, wouldInsert]
            exact iff_of_false (fun same => differs same.1) fun held => sound (held.1.1 fresh)
        · rcases other_step lawful start standing grown stopping fresh with ⟨status, plain, shown, given⟩
          rcases migrate_given taken shown layers with ⟨seen, preview, reported⟩
          rcases migrate_given taken given layers with ⟨result, run, same⟩
          rw [run, preview, List.map_cons, List.map_cons, List.cons.injEq, same, reported, ih standing grown]
          constructor
          · rintro ⟨-, later, apart⟩
            exact ⟨⟨fun toInsert => absurd toInsert fresh, later⟩, fun _ _ toInsert => absurd toInsert fresh, apart⟩
          · rintro ⟨⟨-, later⟩, -, apart⟩
            exact ⟨plain, later, apart⟩

theorem predicts_iff (selected : Option (List String)) (layers : List SourceLayer) :
    DryRunPredicts env selected layers origin ↔ Independent env origin (reached env selected layers) := by
  have statuses := statuses_iff lawful start start (grown_nil before) selected layers
  constructor
  · rintro ⟨same, -⟩
    rcases statuses.mp same with ⟨sound, apart⟩
    exact ⟨fun layer member toInsert => (sound layer member toInsert).1, apart⟩
  · rintro ⟨insertable, apart⟩
    refine ⟨statuses.mpr ⟨fun layer member toInsert => ⟨insertable layer member toInsert, ?_⟩, apart⟩,
      migrate_dry_unchanged layers⟩
    intro past member
    cases member

end Runs

/-- A dry run does not see the layers that the real run would have inserted by then, nor the constraints that only an
    insert meets. -/
theorem dry_run_predicts_iff (env : MigrationEnv) (lawful : LawfulDb env.db) (calls : List DbCall)
    (selected : Option (List String)) (layers : List SourceLayer) :
    DryRunPredicts env selected layers (env.db.performAll Tables.empty calls) ↔
      Independent env (env.db.performAll Tables.empty calls) (reached env selected layers) :=
  predicts_iff lawful (performAll_represents lawful represents_empty calls) selected layers

noncomputable def shelfEnv : MigrationEnv where
  db := { plainDb with registered := fun name => name = "repo-1" || name = "repo-2" }
  schemaError document := if plainDb.validate document then none else some ("type", "")
  hash := sha256
  signers := sealingSigners
  signingRequired := false
  signatureKey := none

theorem shelfEnv_lawful : LawfulDb shelfEnv.db := ⟨plainDb_lawful.roundTrip, plainDb_lawful.shaped⟩

def offer (layerId eventId owner : String) : SourceLayer :=
  ⟨layerId, scanDocument [eventId], layerId ++ ".json", none, some owner⟩

theorem dry_run_predicts_new : LawfulDb shelfEnv.db ∧
    DryRunPredicts shelfEnv none [offer "scans" "e-1" "repo-1", offer "probes" "e-2" "repo-2"]
      (shelfEnv.db.performAll Tables.empty [.create "scans" (scanDocument ["e-1"]) (some "repo-1")]) := by
  refine ⟨shelfEnv_lawful, (dry_run_predicts_iff shelfEnv shelfEnv_lawful _ none _).mpr ?_⟩
  have sublist : (reached shelfEnv none [offer "scans" "e-1" "repo-1", offer "probes" "e-2" "repo-2"]).Sublist
      [offer "scans" "e-1" "repo-1", offer "probes" "e-2" "repo-2"] :=
    (List.takeWhile_sublist _).trans List.filter_sublist
  constructor
  · intro layer member toInsert
    rcases List.mem_cons.mp (sublist.subset member) with rfl | member
    · exact ⟨by decide +kernel, by decide +kernel⟩
    · rw [List.mem_singleton.mp member]
      exact ⟨by decide +kernel, by decide +kernel⟩
  · refine List.Pairwise.sublist sublist ?_
    simp [Unshared, offer]

/-- Two new layers of one owner, and one layer of an owner that is not registered. -/
theorem dry_run_misses_conflicts :
    ¬ DryRunPredicts shelfEnv none [offer "scans" "e-1" "repo-1", offer "probes" "e-2" "repo-1"] Tables.empty ∧
      ¬ DryRunPredicts shelfEnv none [offer "scans" "e-1" "repo-9"] Tables.empty := by
  have toInsert {layer : SourceLayer} (clean : layer.error.getD "" = "") (validated : shelfEnv.validate layer = .ok 0)
      (offered : Offered shelfEnv.db layer.document layer.productRepoId) : ToInsert shelfEnv Tables.empty layer :=
    (toInsert_iff shelfEnv_lawful represents_empty).mpr
      ⟨clean, ⟨0, validated⟩, offered, rfl, fun _ _ _ _ absent => by cases absent⟩
  constructor
  · intro predicts
    have same : reached shelfEnv none [offer "scans" "e-1" "repo-1", offer "probes" "e-2" "repo-1"] =
        [offer "scans" "e-1" "repo-1", offer "probes" "e-2" "repo-1"] := by
      rw [reached_going rfl (by decide +kernel), reached_going rfl (by decide +kernel)]
      rfl
    have apart := ((predicts_iff shelfEnv_lawful represents_empty none _).mp predicts).apart
    rw [same, List.pairwise_pair] at apart
    exact (apart (toInsert rfl (by decide +kernel) (by decide +kernel))
      (toInsert rfl (by decide +kernel) (by decide +kernel))).2 rfl
  · intro predicts
    have same : reached shelfEnv none [offer "scans" "e-1" "repo-9"] = [offer "scans" "e-1" "repo-9"] := by
      rw [reached_going rfl (by decide +kernel)]
      rfl
    have insertable := ((predicts_iff shelfEnv_lawful represents_empty none _).mp predicts).insertable
    rw [same] at insertable
    have unregistered := (insertable _ List.mem_cons_self
      (toInsert rfl (by decide +kernel) (by decide +kernel))).registered
    exact absurd unregistered (by decide +kernel)

end LedgerProof
