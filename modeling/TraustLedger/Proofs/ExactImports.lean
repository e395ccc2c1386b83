import TraustLedger.Library.Respelling
import TraustLedger.Migration
import TraustLedger.Proofs.ImportOutcomes

namespace LedgerProof

open Hashing Python Runs LedgerModel DocumentStore

variable {env : DbEnv} {tables : Tables} {store : DocumentStore} {layerId : String} {owner : Option String}
  {document : Document}

def canonicalEncoding (document : Document) : Bytes := encodeJson (.obj document.fields)

structure SameEvidence (H : HashFunction) (left right : Document) : Prop where
  leaves : left.layer.events.map canonicalEventBytes = right.layer.events.map canonicalEventBytes
  root : ∀ epoch leafFormat, computeMerkleRoot H (left.layer.events.drop epoch) leafFormat =
    computeMerkleRoot H (right.layer.events.drop epoch) leafFormat
  payload : ∀ fmt, merkleSignaturePayload H left.layer.metadata fmt = merkleSignaturePayload H right.layer.metadata fmt

/-- An import of a document over the stored one skips it exactly where the bytes are the same. -/
structure ExactImport (env : DbEnv) (tables : Tables) (layerId : String) (held document : Document)
    (owner : Option String) : Prop where
  skips : ∀ dryRun, env.importLayer layerId document owner dryRun tables = (tables, .ok .skipped) ↔
    canonicalEncoding document = canonicalEncoding held
  vouched : ∀ dryRun, env.importLayer layerId document owner dryRun tables = (tables, .ok .skipped) →
    ∀ H, SameEvidence H document held
  refuses : ∀ dryRun, canonicalEncoding document ≠ canonicalEncoding held →
    ∃ detail, env.importLayer layerId document owner dryRun tables = (tables, .error (.layerConflict detail))

/-- Two documents that differ, but only in how equal numbers are spelled. -/
def OnlyRespelled (left right : Document) : Prop :=
  left ≠ right ∧ Json.Respelled (.obj left.fields) (.obj right.fields)

theorem canonicalEncoding_inj {left right : Document} :
    canonicalEncoding left = canonicalEncoding right ↔ left = right := by
  constructor
  · intro same
    have fields := Json.obj.inj (dumps_injective same)
    rcases left with ⟨left, leftOrdered⟩
    rcases right with ⟨right, rightOrdered⟩
    cases fields
    rfl
  · rintro rfl
    rfl

section Owners

def Owned (store : DocumentStore) : Prop := ∀ layerId held, store layerId = some held → HasName held.owner

variable {after : DocumentStore}

theorem Owned.put (owned : Owned store) {held : Held} (named : HasName held.owner) :
    Owned (store.put layerId held) := by
  intro other kept present
  by_cases same : other = layerId
  · rw [same, DocumentStore.put, Function.update_self] at present
    cases present
    exact named
  · rw [DocumentStore.put, Function.update_of_ne same] at present
    exact owned other kept present

theorem create_owned (owned : Owned store) (created : create env store layerId document owner = some after) :
    Owned after := by
  rcases Option.ite_none_right_eq_some.mp created with ⟨⟨-, named, -⟩, made⟩
  cases made
  exact owned.put named

theorem write_owned (owned : Owned store) (written : write env store layerId document = some after) :
    Owned after := by
  rcases write_cases written with ⟨held, present, -, -, rfl⟩
  exact owned.put (owned layerId held present)

theorem step_owned {call : DbCall} (owned : Owned store) (accepted : step env store call = some after) :
    Owned after := by
  rcases store_step_cases accepted with rfl | ⟨layerId, document, owner, created⟩ | ⟨layerId, document, written⟩
  · exact owned
  · exact create_owned owned created
  · exact write_owned owned written

theorem afterAll_owned (owned : Owned store) (calls : List DbCall) : Owned (afterAll env store calls) := by
  induction calls generalizing store with
  | nil => exact owned
  | cons call calls ih =>
    apply ih
    change Owned ((step env store call).getD store)
    cases accepted : step env store call with
    | none => exact owned
    | some next => exact step_owned owned accepted

end Owners

theorem exact_import_iff_of_held (lawful : LawfulDb env) (represents : Represents env tables store) {held : Held}
    (present : store layerId = some held) (offered : Offered env document held.owner) :
    ExactImport env tables layerId held.document document held.owner ↔ ¬ OnlyRespelled held.document document := by
  constructor
  · rintro exactly ⟨differ, respelled⟩
    have skipped : env.importLayer layerId document held.owner false tables = (tables, .ok .skipped) :=
      import_held lawful represents offered present (Json.pyEq_iff_respelled.mpr respelled) rfl
    exact differ (canonicalEncoding_inj.mp ((exactly.skips false).mp skipped)).symm
  · intro plain
    have same : held.document.same document = true → document = held.document := by
      intro equal
      by_contra differ
      exact plain ⟨fun same => differ same.symm, Json.pyEq_iff_respelled.mp equal⟩
    have refuses (dryRun : Bool) (differ : document ≠ held.document) :
        ∃ detail, env.importLayer layerId document held.owner dryRun tables = (tables, .error (.layerConflict detail)) :=
      import_conflicting lawful represents offered present fun both => differ (same both.1)
    have skips (dryRun : Bool) : env.importLayer layerId document held.owner dryRun tables = (tables, .ok .skipped) ↔
        document = held.document := by
      constructor
      · intro skipped
        by_contra differ
        rcases refuses dryRun differ with ⟨detail, refused⟩
        rw [refused] at skipped
        cases skipped
      · rintro rfl
        exact import_held lawful represents offered present (Json.pyEq_self _) rfl
    refine ⟨fun dryRun => (skips dryRun).trans canonicalEncoding_inj.symm, fun dryRun skipped H => ?_,
      fun dryRun differ => refuses dryRun fun same => differ (canonicalEncoding_inj.mpr same)⟩
    rw [(skips dryRun).mp skipped]
    exact ⟨rfl, fun _ _ => rfl, fun _ => rfl⟩

/-- The stored document and the offered one are compared with `==`, which reads numbers by their value. -/
theorem import_exact_iff (lawful : LawfulDb env) (calls : List DbCall) {held : Document}
    (stored : env.load (env.performAll Tables.empty calls) layerId = .ok (some held))
    (owns : (env.performAll Tables.empty calls).productRepo layerId = owner)
    (valid : env.validate document = true) (identified : Named document) :
    ExactImport env (env.performAll Tables.empty calls) layerId held document owner ↔ ¬ OnlyRespelled held document := by
  have represents := performAll_represents lawful represents_empty calls
  have owned : Owned (afterAll env DocumentStore.empty calls) :=
    afterAll_owned (fun _ _ absent => by cases absent) calls
  rw [represents.load lawful] at stored
  rcases Option.map_eq_some_iff.mp (Except.ok.inj stored) with ⟨kept, present, rfl⟩
  rw [represents.productRepo present] at owns
  rw [← owns]
  exact exact_import_iff_of_held lawful represents present ⟨owned layerId kept present, valid, identified⟩

def epochDocument (epoch : Json) : Document :=
  (Document.empty.set "events" (.arr [.obj [("event_id", .str "e-1")]])).set "metadata"
    (.obj [("merkle_epoch", epoch)])

def floatZero : FloatText := ⟨"0.0", by decide +kernel, by decide +kernel⟩

def createScans : List DbCall := [.create "scans" (epochDocument (.int 0)) (some "repo-1")]

theorem createScans_held :
    afterAll plainDb DocumentStore.empty createScans "scans" = some ⟨some "repo-1", epochDocument (.int 0)⟩ := by
  have free : DocumentStore.empty.Free (some "repo-1") := fun _ _ _ _ absent => by cases absent
  have created : create plainDb DocumentStore.empty "scans" (epochDocument (.int 0)) (some "repo-1") =
      some (DocumentStore.empty.put "scans" ⟨some "repo-1", epochDocument (.int 0)⟩) :=
    if_pos ⟨rfl, by decide +kernel, free, rfl, by decide +kernel, by decide +kernel⟩
  simp [afterAll, createScans, after, step, created, DocumentStore.put]

theorem import_exact_changed : LawfulDb plainDb ∧
    plainDb.load (plainDb.performAll Tables.empty createScans) "scans" = .ok (some (epochDocument (.int 0))) ∧
    ExactImport plainDb (plainDb.performAll Tables.empty createScans) "scans" (epochDocument (.int 0))
      (epochDocument (.int 1)) (some "repo-1") := by
  have represents := performAll_represents plainDb_lawful represents_empty createScans
  have stored : plainDb.load (plainDb.performAll Tables.empty createScans) "scans" =
      .ok (some (epochDocument (.int 0))) := by
    rw [represents.load plainDb_lawful, createScans_held]
    rfl
  refine ⟨plainDb_lawful, stored, (import_exact_iff plainDb_lawful createScans stored
    (represents.productRepo createScans_held) (by decide +kernel) (by decide +kernel)).mpr ?_⟩
  rintro ⟨-, respelled⟩
  exact absurd (Json.pyEq_iff_respelled.mpr respelled) (by decide +kernel)

/-- `0` is stored, `0.0` is offered: the import skips it, though the encodings and what is signed differ. -/
theorem respelled_number_skipped :
    plainDb.load (plainDb.performAll Tables.empty createScans) "scans" = .ok (some (epochDocument (.int 0))) ∧
      plainDb.validate (epochDocument (.float floatZero)) = true ∧ Named (epochDocument (.float floatZero)) ∧
      ¬ ExactImport plainDb (plainDb.performAll Tables.empty createScans) "scans" (epochDocument (.int 0))
        (epochDocument (.float floatZero)) (some "repo-1") := by
  have represents := performAll_represents plainDb_lawful represents_empty createScans
  have identified : Named (epochDocument (.float floatZero)) := by decide +kernel
  have valid : plainDb.validate (epochDocument (.float floatZero)) = true := by decide +kernel
  refine ⟨?_, valid, identified, ?_⟩
  · rw [represents.load plainDb_lawful, createScans_held]
    rfl
  · intro exactly
    refine (exact_import_iff_of_held plainDb_lawful represents createScans_held
      ⟨by decide +kernel, valid, identified⟩).mp exactly ⟨by decide +kernel, ?_⟩
    exact Json.pyEq_iff_respelled.mp (by decide +kernel)

end LedgerProof
