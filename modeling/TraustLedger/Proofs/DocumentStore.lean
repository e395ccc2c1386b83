import TraustLedger.Proofs.DatabaseProofs
import Mathlib.Logic.Function.Basic

namespace LedgerProof

open Hashing Python Runs LedgerModel

structure Held where
  owner : Option String
  document : Document

/-- What the database is for: under each layer id a document and its owner. -/
abbrev DocumentStore := String → Option Held

namespace DocumentStore

variable (env : DbEnv) (store : DocumentStore)

def empty : DocumentStore := fun _ => none

def put (layerId : String) (held : Held) : DocumentStore := Function.update store layerId (some held)

def document (layerId : String) : Document := (store layerId).elim .empty fun held => held.document

def Free (owner : Option String) : Prop :=
  ∀ name, owner = some name → ∀ layerId held, store layerId = some held → held.owner ≠ some name

def Recordable (document : Document) : Prop := env.validate document = true ∧ Named document

def DistinctEvents (document : Document) : Prop := ((eventItems document).map eventIdOf).Nodup

def HasName (owner : Option String) : Prop := strip (owner.getD "") ≠ ""

instance (document : Document) : Decidable (Recordable env document) := inferInstanceAs (Decidable (_ ∧ _))

instance (document : Document) : Decidable (DistinctEvents document) := inferInstanceAs (Decidable (List.Nodup _))

instance (owner : Option String) : Decidable (HasName owner) := inferInstanceAs (Decidable (_ ≠ _))

open Classical in
/-- A new document keeps every event of the one it replaces, in its place. -/
noncomputable def write (layerId : String) (document : Document) : Option DocumentStore :=
  match store layerId with
  | some held =>
    if Recordable env document ∧ Extends held.document document then some (store.put layerId ⟨held.owner, document⟩)
    else none
  | none => none

open Classical in
noncomputable def create (layerId : String) (document : Document) (owner : Option String) : Option DocumentStore :=
  if store layerId = none ∧ HasName owner ∧ store.Free owner ∧ owner.all env.registered = true ∧
      Recordable env document ∧ DistinctEvents document then
    some (store.put layerId ⟨owner, document⟩)
  else none

open Classical in
/-- What each call makes of the store; `none` where it is refused. -/
noncomputable def step : DbCall → Option DocumentStore
  | .create layerId document owner => create env store layerId document owner
  | .store layerId document => write env store layerId document
  | .mutate layerId mutator =>
    match store layerId with
    | some held => match mutator held.document with
      | .ok document => write env store layerId document
      | .error _ => none
    | none => none
  | .importLayer layerId document owner dryRun =>
    match store layerId with
    | some held =>
      if HasName owner ∧ Recordable env document ∧ held.document.same document = true ∧ held.owner = owner then some store
      else none
    | none =>
      if dryRun then
        if HasName owner ∧ Recordable env document ∧ store.Free owner then some store else none
      else create env store layerId document owner

noncomputable def after (call : DbCall) : DocumentStore := (step env store call).getD store

noncomputable def afterAll (calls : List DbCall) : DocumentStore :=
  calls.foldl (fun store call => after env store call) store

end DocumentStore

open DocumentStore

variable {env : DbEnv} {tables next : Tables} {store : DocumentStore} {layerId : String} {owner : Option String}

theorem write_cases {document : Document} {written : DocumentStore}
    (accepted : write env store layerId document = some written) :
    ∃ held, store layerId = some held ∧ Recordable env document ∧ Extends held.document document ∧
      written = store.put layerId ⟨held.owner, document⟩ := by
  unfold write at accepted
  split at accepted
  · next held present =>
    obtain ⟨⟨recordable, grown⟩, made⟩ := Option.ite_none_right_eq_some.mp accepted
    exact ⟨held, present, recordable, grown, (Option.some.inj made).symm⟩
  · cases accepted

def LayerRepresents (env : DbEnv) (tables : Tables) (layerId : String) : Option Held → Prop
  | none => Missing tables layerId
  | some held => env.validate held.document = true ∧
      ∃ record, Splits held.document record ∧ Stored tables layerId held.owner record

def Represents (env : DbEnv) (tables : Tables) (store : DocumentStore) : Prop :=
  ∀ layerId, LayerRepresents env tables layerId (store layerId)

theorem represents_empty : Represents env Tables.empty DocumentStore.empty := fun _ => ⟨rfl, rfl⟩

theorem Represents.missing (represents : Represents env tables store) (absent : store layerId = none) :
    Missing tables layerId := by
  have here := represents layerId
  rwa [absent] at here

theorem Represents.stored (represents : Represents env tables store) {held : Held}
    (present : store layerId = some held) : env.validate held.document = true ∧
      ∃ record, Splits held.document record ∧ Stored tables layerId held.owner record := by
  have here := represents layerId
  rwa [present] at here

theorem LayerRepresents.congr {held : Option Held} {other : String} (represents : LayerRepresents env tables other held)
    (row : next.layerRow other = tables.layerRow other) (events : rowsOf next other = rowsOf tables other) :
    LayerRepresents env next other held := by
  cases held with
  | none => exact ⟨row.trans represents.row, events.trans represents.events⟩
  | some held =>
    obtain ⟨valid, record, split, stored⟩ := represents
    exact ⟨valid, record, split, row.trans stored.row, events.trans stored.events⟩

theorem Represents.put (represents : Represents env tables store) (untouched : Untouched layerId tables next)
    {held : Held} (here : LayerRepresents env next layerId (some held)) :
    Represents env next (store.put layerId held) := by
  intro other
  by_cases same : other = layerId
  · subst same
    rw [DocumentStore.put, Function.update_self]
    exact here
  · rw [DocumentStore.put, Function.update_of_ne same]
    obtain ⟨row, events⟩ := untouched other same
    exact (represents other).congr row events

theorem Represents.load (lawful : LawfulDb env) (represents : Represents env tables store) (layerId : String) :
    env.load tables layerId = .ok ((store layerId).map fun held => held.document) := by
  cases found : store layerId with
  | none => exact load_missing (represents.missing found)
  | some held =>
    obtain ⟨valid, record, split, stored⟩ := represents.stored found
    exact load_stored lawful stored (lawful.shaped _ valid) split

theorem Represents.hasLayer (represents : Represents env tables store) (layerId : String) :
    tables.hasLayer layerId = (store layerId).isSome := by
  cases found : store layerId with
  | none =>
    rw [Tables.hasLayer, (represents.missing found).row]
    rfl
  | some held =>
    obtain ⟨-, record, -, stored⟩ := represents.stored found
    rw [Tables.hasLayer, stored.row]
    rfl

theorem Represents.productRepo (represents : Represents env tables store) {held : Held}
    (found : store layerId = some held) : tables.productRepo layerId = held.owner := by
  obtain ⟨-, record, -, stored⟩ := represents.stored found
  rw [Tables.productRepo, stored.row]
  rfl

theorem Represents.free (represents : Represents env tables store) :
    store.Free owner ↔
      ∀ name, owner = some name → name ∉ tables.layers.filterMap fun row => row.productRepoId := by
  refine forall_congr' fun name => imp_congr_right fun _ => ?_
  constructor
  · intro free member
    obtain ⟨row, held, owned⟩ := List.mem_filterMap.mp member
    have found := layerRow_mem held
    cases present : store row.layerId with
    | none => cases (represents.missing present).row.symm.trans found
    | some kept =>
      obtain ⟨-, record, -, stored⟩ := represents.stored present
      have same := Option.some.inj (stored.row.symm.trans found)
      exact free row.layerId kept present (by rw [← owned, ← same])
  · intro unowned other held present owned
    obtain ⟨-, record, -, stored⟩ := represents.stored present
    exact unowned (List.mem_filterMap.mpr ⟨_, List.mem_of_find?_eq_some stored.row, owned⟩)

theorem requireUnowned_ok : requireUnowned tables owner = .ok () ↔
    ∀ name, owner = some name → name ∉ tables.layers.filterMap fun row => row.productRepoId := by
  unfold requireUnowned
  cases owner with
  | none => simp
  | some name =>
    simp only [Option.bind_some, Tables.ownedLayer, Option.some.injEq, forall_eq']
    cases found : tables.layers.find? fun row => row.productRepoId = some name with
    | none =>
      rw [List.find?_eq_none] at found
      simpa using found
    | some row =>
      have owned : row.productRepoId = some name := by simpa using List.find?_some found
      simp only [Option.map_some, reduceCtorEq, false_iff, not_not]
      exact List.mem_filterMap.mpr ⟨row, List.mem_of_find?_eq_some found, owned⟩

theorem validateLayer_ok {document : Document} : env.validateLayer document = .ok () ↔ env.validate document = true :=
  require_ok_iff

theorem recordable_iff (lawful : LawfulDb env) {document : Document} :
    Recordable env document ↔ env.validateLayer document = .ok () ∧
      ∃ record, LayerRecord.fromDocument document = .ok record := by
  constructor
  · rintro ⟨valid, named⟩
    exact ⟨validateLayer_ok.mpr valid, (fromDocument_named (lawful.shaped _ valid)).mpr named⟩
  · rintro ⟨valid, read⟩
    have valid := validateLayer_ok.mp valid
    exact ⟨valid, (fromDocument_named (lawful.shaped _ valid)).mp read⟩

theorem persist_write (lawful : LawfulDb env) (represents : Represents env tables store) {held : Held}
    (present : store layerId = some held) {document : Document} {record : LayerRecord}
    (valid : env.validate document = true) (read : LayerRecord.fromDocument document = .ok record) :
    (∀ next, env.persist layerId record none tables = .ok next →
      ∃ written, write env store layerId document = some written ∧ Represents env next written) ∧
    (∀ written, write env store layerId document = some written →
      ∃ next, env.persist layerId record none tables = .ok next) := by
  have shaped := lawful.shaped _ valid
  have split := (fromDocument_ok shaped).mp read
  have recordable : Recordable env document := ⟨valid, (fromDocument_named shaped).mp ⟨record, read⟩⟩
  obtain ⟨validHeld, before, splitHeld, stored⟩ := represents.stored present
  unfold write
  rw [present]
  constructor
  · intro next persisted
    obtain ⟨extending, -, -⟩ := persist_stored split stored splitHeld persisted
    obtain ⟨stored, untouched⟩ := stored_after stored splitHeld split persisted
    exact ⟨_, if_pos ⟨recordable, extending⟩, represents.put untouched ⟨valid, record, split, stored⟩⟩
  · intro written accepted
    obtain ⟨⟨-, extending⟩, -⟩ := Option.ite_none_right_eq_some.mp accepted
    exact persist_stored_accepts split stored splitHeld extending none

theorem persist_create (lawful : LawfulDb env) (represents : Represents env tables store)
    (absent : store layerId = none) {document : Document} {record : LayerRecord}
    (valid : env.validate document = true) (read : LayerRecord.fromDocument document = .ok record)
    (named : HasName owner) :
    (∀ next, env.persist layerId record owner tables = .ok next →
      ∃ created, create env store layerId document owner = some created ∧ Represents env next created) ∧
    (∀ created, create env store layerId document owner = some created →
      ∃ next, env.persist layerId record owner tables = .ok next) := by
  have shaped := lawful.shaped _ valid
  have split := (fromDocument_ok shaped).mp read
  have recordable : Recordable env document := ⟨valid, (fromDocument_named shaped).mp ⟨record, read⟩⟩
  have missing := represents.missing absent
  unfold create
  constructor
  · intro next persisted
    obtain ⟨distinct, unowned, registered, -, -⟩ := persist_missing split missing persisted
    obtain ⟨stored, untouched⟩ := stored_first missing split persisted
    refine ⟨_, if_pos ⟨absent, named, represents.free.mpr unowned, registered, recordable, distinct⟩, ?_⟩
    exact represents.put untouched ⟨valid, record, split, stored⟩
  · intro created accepted
    obtain ⟨⟨-, -, free, registered, -, distinct⟩, -⟩ := Option.ite_none_right_eq_some.mp accepted
    exact persist_missing_accepts split missing distinct (represents.free.mp free) registered

section Calls

variable {α : Type} {value : α} {failure : Failure}

@[simp] theorem transaction_ok {block : Tables → Outcome (Tables × α)} :
    transaction tables block = (next, .ok value) ↔ block tables = .ok (next, value) := by
  unfold transaction
  split <;> simp_all

@[simp] theorem checked_ok {check : Outcome Unit} {rest : Tables × Outcome α} :
    checked tables check rest = (next, .ok value) ↔ check = .ok () ∧ rest = (next, .ok value) := by
  unfold checked
  split <;> simp_all

theorem transaction_error {block : Tables → Outcome (Tables × α)}
    (raised : (transaction tables block).2 = .error failure) : (transaction tables block).1 = tables := by
  unfold transaction at raised ⊢
  split <;> simp_all

theorem checked_error {check : Outcome Unit} {rest : Tables × Outcome α}
    (inside : rest.2 = .error failure → rest.1 = tables)
    (raised : (checked tables check rest).2 = .error failure) : (checked tables check rest).1 = tables := by
  unfold checked at raised ⊢
  split <;> simp_all

@[simp] theorem map_rethrow_ok {caught : Failure → Bool} {thrown : String → Failure} {result : Tables × Outcome α} :
    Prod.map id (rethrow caught thrown) result = (next, .ok value) ↔ result = (next, .ok value) := by
  obtain ⟨after, outcome⟩ := result
  simp [Prod.ext_iff]

@[simp] theorem map_unit_ok {result : Tables × Outcome α} :
    Prod.map id (Functor.mapConst ()) result = (next, .ok ()) ↔ ∃ value, result = (next, .ok value) := by
  obtain ⟨after, outcome⟩ := result
  cases outcome <;> simp [Functor.mapConst, Except.map]

theorem map_pair_ok {outcome : Outcome α} : (·, ()) <$> outcome = .ok (value, ()) ↔ outcome = .ok value := by
  cases outcome <;> simp [Functor.map, Except.map]

theorem mutate_iff {mutator : Document → Outcome (Document × α)} :
    env.mutate layerId mutator tables = (next, .ok value) ↔ ∃ read written record,
      env.load tables layerId = .ok (some read) ∧ mutator read = .ok (written, value) ∧
      env.validateLayer written = .ok () ∧ LayerRecord.fromDocument written = .ok record ∧
      env.persist layerId record none tables = .ok next := by
  rw [DbEnv.mutate, transaction_ok]
  constructor
  · intro performed
    obtain ⟨loaded, loading, performed⟩ := bind_ok_iff.mp performed
    cases loaded with
    | none => cases performed
    | some read =>
      obtain ⟨⟨written, _⟩, mutated, performed⟩ := bind_ok_iff.mp performed
      obtain ⟨_, valid, performed⟩ := bind_ok_iff.mp performed
      obtain ⟨record, recorded, performed⟩ := bind_ok_iff.mp performed
      obtain ⟨committed, persisted, performed⟩ := bind_ok_iff.mp performed
      cases performed
      exact ⟨read, written, record, loading, mutated, valid, recorded, persisted⟩
  · rintro ⟨read, written, record, loading, mutated, valid, recorded, persisted⟩
    refine bind_ok_iff.mpr ⟨_, loading, bind_ok_iff.mpr ⟨_, mutated, bind_ok_iff.mpr ⟨(), valid, ?_⟩⟩⟩
    exact bind_ok_iff.mpr ⟨record, recorded, bind_ok_iff.mpr ⟨next, persisted, rfl⟩⟩

end Calls

theorem rethrow_error {α : Type} {caught : Failure → Bool} {thrown : String → Failure} {outcome : Outcome α}
    {failure : Failure} (raised : rethrow caught thrown outcome = .error failure) : ∃ cause, outcome = .error cause := by
  cases outcome with
  | ok value => cases raised
  | error cause => exact ⟨cause, rfl⟩

theorem perform_error {call : DbCall} {failure : Failure} (raised : (env.perform tables call).2 = .error failure) :
    (env.perform tables call).1 = tables := by
  cases call with
  | create layerId data productRepoId =>
    refine checked_error (fun raised => checked_error (fun raised => ?_) raised) raised
    rw [Prod.map_snd] at raised
    obtain ⟨cause, inside⟩ := rethrow_error raised
    rw [Prod.map_fst]
    exact transaction_error inside
  | store layerId data => exact checked_error transaction_error raised
  | mutate layerId mutator => exact transaction_error raised
  | importLayer layerId data productRepoId dryRun =>
    have inside : ∃ cause, (env.importLayer layerId data productRepoId dryRun tables).2 = .error cause := by
      cases outcome : (env.importLayer layerId data productRepoId dryRun tables).2 with
      | ok value =>
        rw [DbEnv.perform, Prod.map_snd, outcome] at raised
        cases raised
      | error cause => exact ⟨cause, rfl⟩
    obtain ⟨cause, inside⟩ := inside
    have restored : (env.importLayer layerId data productRepoId dryRun tables).1 = tables := by
      unfold DbEnv.importLayer at inside ⊢
      exact checked_error (checked_error transaction_error) inside
    rw [DbEnv.perform, Prod.map_fst, restored]
    rfl

theorem requireProductRepo_ok : requireProductRepo owner = .ok () ↔ HasName owner := require_ok_iff

section Performed

variable (lawful : LawfulDb env) (represents : Represents env tables store)

include lawful represents

theorem create_performed {document : Document}
    (performed : env.perform tables (.create layerId document owner) = (next, .ok ())) :
    ∃ after, step env store (.create layerId document owner) = some after ∧ Represents env next after := by
  simp only [DbEnv.perform, DbEnv.initializeLayer, checked_ok, map_rethrow_ok, transaction_ok] at performed
  obtain ⟨named, valid, performed⟩ := performed
  obtain ⟨_, free, performed⟩ := bind_ok_iff.mp performed
  obtain ⟨_, -, performed⟩ := bind_ok_iff.mp performed
  obtain ⟨record, read, performed⟩ := bind_ok_iff.mp performed
  obtain ⟨written, persisted, performed⟩ := bind_ok_iff.mp performed
  cases performed
  have absent : store layerId = none := by
    rw [require_ok_iff, represents.hasLayer] at free
    simpa using free
  exact (persist_create lawful represents absent (validateLayer_ok.mp valid) read
    (requireProductRepo_ok.mp named)).1 _ persisted

theorem store_performed {document : Document}
    (performed : env.perform tables (.store layerId document) = (next, .ok ())) :
    ∃ after, step env store (.store layerId document) = some after ∧ Represents env next after := by
  simp only [DbEnv.perform, DbEnv.store, checked_ok, transaction_ok] at performed
  obtain ⟨valid, performed⟩ := performed
  obtain ⟨_, known, performed⟩ := bind_ok_iff.mp performed
  obtain ⟨record, read, performed⟩ := bind_ok_iff.mp performed
  obtain ⟨written, persisted, performed⟩ := bind_ok_iff.mp performed
  cases performed
  rw [require_ok_iff, represents.hasLayer] at known
  obtain ⟨held, present⟩ := Option.isSome_iff_exists.mp known
  exact (persist_write lawful represents present (validateLayer_ok.mp valid) read).1 _ persisted

theorem mutate_performed {mutator : Document → Outcome Document}
    (performed : env.perform tables (.mutate layerId mutator) = (next, .ok ())) :
    ∃ after, step env store (.mutate layerId mutator) = some after ∧ Represents env next after := by
  obtain ⟨read, written, record, loading, mutated, valid, recorded, persisted⟩ := mutate_iff.mp performed
  rw [represents.load lawful] at loading
  obtain ⟨held, present, rfl⟩ := Option.map_eq_some_iff.mp (Except.ok.inj loading)
  simp only [step, present, map_pair_ok.mp mutated]
  exact (persist_write lawful represents present (validateLayer_ok.mp valid) recorded).1 _ persisted

theorem import_performed {document : Document} {dryRun : Bool}
    (performed : env.perform tables (.importLayer layerId document owner dryRun) = (next, .ok ())) :
    ∃ after, step env store (.importLayer layerId document owner dryRun) = some after ∧ Represents env next after := by
  simp only [DbEnv.perform, DbEnv.importLayer, map_unit_ok, checked_ok, transaction_ok, represents.load lawful]
    at performed
  obtain ⟨value, named, valid, performed⟩ := performed
  obtain ⟨record, read, performed⟩ := bind_ok_iff.mp performed
  obtain ⟨loaded, same, performed⟩ := bind_ok_iff.mp performed
  have named := requireProductRepo_ok.mp named
  have recordable := (recordable_iff lawful).mpr ⟨valid, record, read⟩
  have valid := validateLayer_ok.mp valid
  cases present : store layerId with
  | some held =>
    rw [present] at same
    cases same
    obtain ⟨_, equal, performed⟩ := bind_ok_iff.mp performed
    obtain ⟨_, owned, performed⟩ := bind_ok_iff.mp performed
    cases performed
    rw [require_ok_iff, represents.productRepo present] at owned
    refine ⟨store, ?_, represents⟩
    simp only [step, present]
    exact if_pos ⟨named, recordable, require_ok_iff.mp equal, owned⟩
  | none =>
    rw [present] at same
    cases same
    obtain ⟨_, unowned, performed⟩ := bind_ok_iff.mp performed
    have free := represents.free.mpr (requireUnowned_ok.mp unowned)
    simp only [step, present]
    cases dryRun with
    | true =>
      cases performed
      refine ⟨store, ?_, represents⟩
      rw [if_pos rfl, if_pos ⟨named, recordable, free⟩]
    | false =>
      obtain ⟨written, persisted, performed⟩ := bind_ok_iff.mp performed
      rw [rethrow_ok_iff] at persisted
      obtain ⟨reloaded, -, performed⟩ := bind_ok_iff.mp performed
      cases reloaded with
      | none => cases performed
      | some document =>
        obtain ⟨_, -, performed⟩ := bind_ok_iff.mp performed
        obtain ⟨_, -, performed⟩ := bind_ok_iff.mp performed
        cases performed
        exact (persist_create lawful represents present valid read named).1 _ persisted

theorem perform_ok {call : DbCall} (performed : env.perform tables call = (next, .ok ())) :
    ∃ after, step env store call = some after ∧ Represents env next after := by
  cases call with
  | create layerId document owner => exact create_performed lawful represents performed
  | store layerId document => exact store_performed lawful represents performed
  | mutate layerId mutator => exact mutate_performed lawful represents performed
  | importLayer layerId document owner dryRun => exact import_performed lawful represents performed

end Performed

section Accepted

variable (lawful : LawfulDb env) (represents : Represents env tables store) {document : Document}
  {after : DocumentStore}

include lawful represents

theorem write_persists (writing : write env store layerId document = some after) :
    ∃ held record next, store layerId = some held ∧ env.validateLayer document = .ok () ∧
      LayerRecord.fromDocument document = .ok record ∧ env.persist layerId record none tables = .ok next := by
  obtain ⟨held, present, recordable, -, -⟩ := write_cases writing
  obtain ⟨valid, record, read⟩ := (recordable_iff lawful).mp recordable
  obtain ⟨next, persisted⟩ :=
    (persist_write lawful represents present (validateLayer_ok.mp valid) read).2 _ writing
  exact ⟨held, record, next, present, valid, read, persisted⟩

theorem create_persists (creating : create env store layerId document owner = some after) :
    ∃ record next, env.validateLayer document = .ok () ∧ LayerRecord.fromDocument document = .ok record ∧
      env.persist layerId record owner tables = .ok next ∧ Represents env next after := by
  obtain ⟨⟨absent, named, -, -, recordable, -⟩, -⟩ := Option.ite_none_right_eq_some.mp creating
  obtain ⟨valid, record, read⟩ := (recordable_iff lawful).mp recordable
  obtain ⟨forward, backward⟩ := persist_create lawful represents absent (validateLayer_ok.mp valid) read named
  obtain ⟨next, persisted⟩ := backward _ creating
  obtain ⟨created, creation, standing⟩ := forward _ persisted
  rw [creating] at creation
  cases creation
  exact ⟨record, next, valid, read, persisted, standing⟩

theorem create_accepted (accepted : step env store (.create layerId document owner) = some after) :
    ∃ next, env.perform tables (.create layerId document owner) = (next, .ok ()) := by
  obtain ⟨⟨absent, named, free, -⟩, -⟩ := Option.ite_none_right_eq_some.mp accepted
  obtain ⟨record, next, valid, read, persisted, -⟩ := create_persists lawful represents accepted
  refine ⟨next, ?_⟩
  simp only [DbEnv.perform, DbEnv.initializeLayer, checked_ok, map_rethrow_ok, transaction_ok]
  refine ⟨requireProductRepo_ok.mpr named, valid, bind_ok_iff.mpr ⟨(), ?_, bind_ok_iff.mpr ⟨(), ?_, ?_⟩⟩⟩
  · rw [require_ok_iff, represents.hasLayer, absent]
    rfl
  · exact requireUnowned_ok.mpr (represents.free.mp free)
  · exact bind_ok_iff.mpr ⟨record, read, bind_ok_iff.mpr ⟨next, persisted, rfl⟩⟩

theorem store_accepted (accepted : step env store (.store layerId document) = some after) :
    ∃ next, env.perform tables (.store layerId document) = (next, .ok ()) := by
  obtain ⟨held, record, next, present, valid, read, persisted⟩ := write_persists lawful represents accepted
  refine ⟨next, ?_⟩
  simp only [DbEnv.perform, DbEnv.store, checked_ok, transaction_ok]
  refine ⟨valid, bind_ok_iff.mpr ⟨(), ?_, ?_⟩⟩
  · rw [require_ok_iff, represents.hasLayer, present]
    rfl
  · exact bind_ok_iff.mpr ⟨record, read, bind_ok_iff.mpr ⟨next, persisted, rfl⟩⟩

theorem mutate_accepted {mutator : Document → Outcome Document}
    (accepted : step env store (.mutate layerId mutator) = some after) :
    ∃ next, env.perform tables (.mutate layerId mutator) = (next, .ok ()) := by
  cases present : store layerId with
  | none =>
    simp only [step, present] at accepted
    cases accepted
  | some held =>
    cases mutation : mutator held.document with
    | error failure =>
      simp only [step, present, mutation] at accepted
      cases accepted
    | ok document =>
      simp only [step, present, mutation] at accepted
      obtain ⟨_, record, next, -, valid, read, persisted⟩ := write_persists lawful represents accepted
      have loading : env.load tables layerId = .ok (some held.document) := by
        rw [represents.load lawful, present]
        rfl
      exact ⟨next, mutate_iff.mpr
        ⟨held.document, document, record, loading, map_pair_ok.mpr mutation, valid, read, persisted⟩⟩

theorem import_accepted {dryRun : Bool}
    (accepted : step env store (.importLayer layerId document owner dryRun) = some after) :
    ∃ next, env.perform tables (.importLayer layerId document owner dryRun) = (next, .ok ()) := by
  simp only [DbEnv.perform, DbEnv.importLayer, map_unit_ok, checked_ok, transaction_ok, represents.load lawful]
  cases present : store layerId with
  | some held =>
    simp only [step, present] at accepted
    obtain ⟨⟨named, recordable, equal, owned⟩, -⟩ := Option.ite_none_right_eq_some.mp accepted
    obtain ⟨valid, record, read⟩ := (recordable_iff lawful).mp recordable
    refine ⟨tables, .skipped, requireProductRepo_ok.mpr named, valid, bind_ok_iff.mpr ⟨record, read, ?_⟩⟩
    refine bind_ok_iff.mpr ⟨_, rfl, bind_ok_iff.mpr ⟨(), require_ok_iff.mpr equal, ?_⟩⟩
    refine bind_ok_iff.mpr ⟨(), ?_, rfl⟩
    rw [require_ok_iff, represents.productRepo present]
    exact owned
  | none =>
    simp only [step, present] at accepted
    cases dryRun with
    | true =>
      obtain ⟨⟨named, recordable, free⟩, -⟩ := Option.ite_none_right_eq_some.mp accepted
      obtain ⟨valid, record, read⟩ := (recordable_iff lawful).mp recordable
      refine ⟨tables, .wouldInsert, requireProductRepo_ok.mpr named, valid, bind_ok_iff.mpr ⟨record, read, ?_⟩⟩
      exact bind_ok_iff.mpr ⟨_, rfl,
        bind_ok_iff.mpr ⟨(), requireUnowned_ok.mpr (represents.free.mp free), rfl⟩⟩
    | false =>
      have creating : create env store layerId document owner = some after := accepted
      obtain ⟨⟨-, named, free, -⟩, made⟩ := Option.ite_none_right_eq_some.mp accepted
      obtain ⟨record, next, valid, read, persisted, standing⟩ := create_persists lawful represents creating
      -- The reload the import checks itself by gives back the document that was written.
      have reloaded := standing.load lawful layerId
      rw [← Option.some.inj made, DocumentStore.put, Function.update_self] at reloaded
      refine ⟨next, .inserted, requireProductRepo_ok.mpr named, valid, bind_ok_iff.mpr ⟨record, read, ?_⟩⟩
      refine bind_ok_iff.mpr ⟨_, rfl,
        bind_ok_iff.mpr ⟨(), requireUnowned_ok.mpr (represents.free.mp free), ?_⟩⟩
      refine bind_ok_iff.mpr ⟨next, rethrow_ok_iff.mpr persisted, bind_ok_iff.mpr ⟨_, reloaded, ?_⟩⟩
      refine bind_ok_iff.mpr ⟨(), require_ok_iff.mpr (Json.pyEq_self _), bind_ok_iff.mpr ⟨(), valid, rfl⟩⟩

theorem perform_accepts {call : DbCall} (accepted : step env store call = some after) :
    ∃ next, env.perform tables call = (next, .ok ()) := by
  cases call with
  | create layerId document owner => exact create_accepted lawful represents accepted
  | store layerId document => exact store_accepted lawful represents accepted
  | mutate layerId mutator => exact mutate_accepted lawful represents accepted
  | importLayer layerId document owner dryRun => exact import_accepted lawful represents accepted

end Accepted

theorem perform_simulates (lawful : LawfulDb env) (represents : Represents env tables store) (call : DbCall) :
    Represents env (env.perform tables call).1 (after env store call) ∧
      ((env.perform tables call).2 = .ok () ↔ (step env store call).isSome = true) := by
  cases outcome : (env.perform tables call).2 with
  | ok value =>
    obtain ⟨written, accepted, standing⟩ := perform_ok lawful represents (Prod.ext rfl outcome)
    rw [after, accepted]
    exact ⟨standing, by simp⟩
  | error failure =>
    have refused : step env store call = none := by
      by_contra accepted
      obtain ⟨written, accepted⟩ := Option.ne_none_iff_exists'.mp accepted
      obtain ⟨next, performed⟩ := perform_accepts lawful represents accepted
      rw [performed] at outcome
      cases outcome
    rw [after, refused, perform_error outcome]
    exact ⟨represents, by simp⟩

theorem performAll_represents (lawful : LawfulDb env) (represents : Represents env tables store)
    (calls : List DbCall) : Represents env (env.performAll tables calls) (afterAll env store calls) :=
  List.foldl_rel represents fun call _ _ _ standing => (perform_simulates lawful standing call).1

def logOf (store : DocumentStore) (layerId : String) : List Json :=
  (store layerId).elim [] fun held => eventItems held.document

theorem store_step_cases {call : DbCall} {written : DocumentStore} (accepted : step env store call = some written) :
    written = store ∨ (∃ layerId document owner, create env store layerId document owner = some written) ∨
      ∃ layerId document, write env store layerId document = some written := by
  cases call with
  | create layerId document owner => exact Or.inr (Or.inl ⟨layerId, document, owner, accepted⟩)
  | store layerId document => exact Or.inr (Or.inr ⟨layerId, document, accepted⟩)
  | mutate layerId mutator =>
    simp only [step] at accepted
    split at accepted
    · split at accepted
      · exact Or.inr (Or.inr ⟨layerId, _, accepted⟩)
      · cases accepted
    · cases accepted
  | importLayer layerId document owner dryRun =>
    simp only [step] at accepted
    split at accepted
    · obtain ⟨-, made⟩ := Option.ite_none_right_eq_some.mp accepted
      exact Or.inl (Option.some.inj made).symm
    · split at accepted
      · obtain ⟨-, made⟩ := Option.ite_none_right_eq_some.mp accepted
        exact Or.inl (Option.some.inj made).symm
      · exact Or.inr (Or.inl ⟨layerId, document, owner, accepted⟩)

theorem write_grows {document : Document} {written : DocumentStore}
    (accepted : write env store layerId document = some written) (other : String) :
    logOf store other <+: logOf written other := by
  obtain ⟨held, present, -, ⟨grown, -⟩, rfl⟩ := write_cases accepted
  by_cases same : other = layerId
  · subst same
    simpa [logOf, DocumentStore.put, present] using grown
  · simp [logOf, DocumentStore.put, Function.update_of_ne same]

theorem create_grows {document : Document} {created : DocumentStore}
    (accepted : create env store layerId document owner = some created) (other : String) :
    logOf store other <+: logOf created other := by
  obtain ⟨⟨absent, -⟩, made⟩ := Option.ite_none_right_eq_some.mp accepted
  cases made
  by_cases same : other = layerId
  · subst same
    simp [logOf, absent]
  · simp [logOf, DocumentStore.put, Function.update_of_ne same]

theorem accepted_grows {call : DbCall} {written : DocumentStore} (accepted : step env store call = some written)
    (other : String) : logOf store other <+: logOf written other := by
  obtain rfl | ⟨layerId, document, owner, created⟩ | ⟨layerId, document, wrote⟩ := store_step_cases accepted
  · exact List.prefix_rfl
  · exact create_grows created other
  · exact write_grows wrote other

theorem afterAll_grows (store : DocumentStore) (calls : List DbCall) (layerId : String) :
    logOf store layerId <+: logOf (afterAll env store calls) layerId := by
  induction calls generalizing store with
  | nil => exact List.prefix_rfl
  | cons call calls ih =>
    refine List.IsPrefix.trans ?_ (ih (after env store call))
    rw [after]
    cases accepted : step env store call with
    | none => exact List.prefix_rfl
    | some written => exact accepted_grows accepted layerId

theorem Represents.seqs (represents : Represents env tables store) (layerId : String) :
    seqsOf (rowsOf tables layerId) = List.range (rowsOf tables layerId).length := by
  cases present : store layerId with
  | none => exact (represents.missing present).seqs
  | some held =>
    obtain ⟨-, record, split, stored⟩ := represents.stored present
    exact stored.seqs split

theorem Represents.payloads (represents : Represents env tables store) (layerId : String) :
    tables.eventPayloads layerId = (logOf store layerId).map encodeJson := by
  cases present : store layerId with
  | none => rw [(represents.missing present).payloads, logOf, present]; rfl
  | some held =>
    obtain ⟨-, record, split, stored⟩ := represents.stored present
    rw [stored.payloads split, logOf, present]
    rfl

theorem Represents.loadLayerId (lawful : LawfulDb env) (represents : Represents env tables store) (layerId : String) :
    env.loadLayerId tables layerId = .ok (store.document layerId) := by
  unfold DbEnv.loadLayerId
  rw [represents.load lawful, DocumentStore.document]
  cases present : store layerId with
  | none => rfl
  | some held =>
    refine bind_ok_iff.mpr ⟨some held.document, rfl, bind_ok_iff.mpr ⟨(), ?_, rfl⟩⟩
    exact validateLayer_ok.mpr (represents.stored present).1

/-- Whatever calls are made, the tables behave as the append-only store of documents does: they accept the same
    calls, give back the document written last, and number and keep the events of every layer. -/
theorem database_refines_store (lawful : LawfulDb env) (calls : List DbCall) (layerId : String) :
    let tables := env.performAll Tables.empty calls
    let store := afterAll env DocumentStore.empty calls
    env.loadLayerId tables layerId = .ok (store.document layerId) ∧
      (∀ call, (env.perform tables call).2 = .ok () ↔ (step env store call).isSome = true) ∧
      (∀ call failure, (env.perform tables call).2 = .error failure → (env.perform tables call).1 = tables) ∧
      (∀ later, tables.eventPayloads layerId <+: (env.performAll tables later).eventPayloads layerId) ∧
      (tables.eventRows layerId).map (fun row => row.seq) = List.range (tables.eventRows layerId).length ∧
      ((tables.eventRows layerId).map fun row => row.eventId).Nodup := by
  intro tables store
  have represents : Represents env tables store := performAll_represents lawful represents_empty calls
  refine ⟨represents.loadLayerId lawful layerId, fun call => (perform_simulates lawful represents call).2,
    fun call failure raised => perform_error raised, fun later => ?_, ?_, ?_⟩
  · have standing := performAll_represents lawful represents later
    rw [represents.payloads, standing.payloads]
    exact (afterAll_grows store later layerId).map encodeJson
  · rw [eventRows_eq (represents.seqs layerId)]
    exact represents.seqs layerId
  · rw [eventRows_eq (represents.seqs layerId)]
    exact rowsOf_ids tables layerId

/-- A database whose decoder inverts the encoder, and whose schema asks for no more than the shape. -/
noncomputable def plainDb : DbEnv where
  decode bytes := open Classical in if held : ∃ value, encodeJson value = bytes then some held.choose else none
  validate document := document.fields.all fun entry =>
    if entry.1 = "metadata" then entry.2.isObj
    else if entry.1 = "events" ∨ entry.1 = "needs_review" then isArr entry.2
    else true
  registered _ := true
  bindsInteger number := decide (-9223372036854775808 ≤ number ∧ number < 9223372036854775808)
  placeOf time := time.clock
where
  isArr : Json → Bool
    | .arr _ => true
    | _ => false

theorem plainDb_lawful : LawfulDb plainDb := by
  constructor
  · intro value
    have held : ∃ other, encodeJson other = encodeJson value := ⟨value, rfl⟩
    simp only [plainDb, dif_pos held, Option.some.injEq]
    exact dumps_injective held.choose_spec
  · intro document valid
    have each {key : String} {value : Json} (found : document.lookup key = some value) :=
      List.all_eq_true.mp valid (key, value) (Dict.lookup_mem found)
    refine ⟨fun value found => ?_, fun value found => ?_, fun value found => ?_⟩
    · have shape := each found
      cases value <;> simp_all [Json.isObj]
    · have shape := each found
      cases value <;> simp_all [plainDb.isArr]
    · have shape := each found
      cases value <;> simp_all [plainDb.isArr]

def scanDocument (ids : List String) : Document :=
  ((Document.empty.set "events" (.arr (ids.map fun id => .obj [("event_id", .str id)]))).set "metadata" (.obj [])).set
    "x-origin" (.str "import")

def scanCalls : List DbCall :=
  [.create "scans" (scanDocument ["e-1"]) (some "repo-1"), .mutate "scans" fun _ => .error .attributeError,
    .mutate "scans" fun _ => .ok (scanDocument ["e-1", "e-2"])]

theorem scanCalls_stored : (afterAll plainDb DocumentStore.empty scanCalls).document "scans" =
    scanDocument ["e-1", "e-2"] := by
  have free : DocumentStore.empty.Free (some "repo-1") := fun _ _ _ _ absent => by cases absent
  have created : create plainDb DocumentStore.empty "scans" (scanDocument ["e-1"]) (some "repo-1") =
      some (DocumentStore.empty.put "scans" ⟨some "repo-1", scanDocument ["e-1"]⟩) :=
    if_pos ⟨rfl, by decide +kernel, free, rfl, by decide +kernel, by decide +kernel⟩
  have extending : Extends (scanDocument ["e-1"]) (scanDocument ["e-1", "e-2"]) := by decide +kernel
  have recordable : Recordable plainDb (scanDocument ["e-1", "e-2"]) := by decide +kernel
  simp [afterAll, scanCalls, after, created, step, write, DocumentStore.put, DocumentStore.document, extending,
    recordable]

theorem database_refines_store_scans : LawfulDb plainDb ∧
    plainDb.loadLayerId (plainDb.performAll Tables.empty scanCalls) "scans" =
      .ok (scanDocument ["e-1", "e-2"]) := by
  refine ⟨plainDb_lawful, ?_⟩
  rw [(database_refines_store plainDb_lawful scanCalls "scans").1, scanCalls_stored]

end LedgerProof
