import TraustLedger.Backends.Sessions
import TraustLedger.Proofs.LayerDocuments

namespace LedgerProof

open Hashing Python Runs LedgerModel DocumentStore

@[simp] theorem other_ne (side : Side) : side.other ≠ side := by cases side <;> decide

@[simp] theorem ne_other (side : Side) : side ≠ side.other := by cases side <;> decide

theorem length_schedule (schedule : List Side) :
    schedule.length = schedule.count .left + schedule.count .right := by
  induction schedule with
  | nil => rfl
  | cons side rest ih =>
    cases side <;> simp [ih] <;> omega

theorem interleaves_cases {schedule : List Side} (interleaves : Interleaves schedule) :
    ∃ first : Side, schedule = [first, first, first.other, first.other] ∨
      schedule = [first, first.other, first, first.other] ∨ schedule = [first.other, first, first, first.other] := by
  obtain ⟨left, right⟩ := interleaves
  have four := length_schedule schedule
  rw [left, right] at four
  match schedule, four with
  | [a, b, c, d], _ =>
    cases a <;> cases b <;> cases c <;> cases d <;> simp at left right
    all_goals first
      | exact ⟨.left, by decide⟩
      | exact ⟨.right, by decide⟩

section Effects

/-- The value a path of keys leads to, objects all the way. -/
def valueAt : List String → Json → Option Json
  | [], value => some value
  | key :: path, .obj fields => (List.lookup key fields).bind (valueAt path)
  | _ :: _, _ => none

inductive Effect where
  | event (payload : Json)
  | item (item : Dict)
  | entry (path : List String) (value : Json)

variable {read written document : Document} {effect : Effect}

/-- What a write made of the document it read: the events it appended, the review items it added or resolved, each
    as a whole, and the metadata entries it added at any depth, each with its value. -/
def MadeBy (read written : Document) : Effect → Prop
  | .event payload => payload ∈ (eventItems written).drop (eventItems read).length
  | .item item => .obj item ∈ queueOf written ∧ .obj item ∉ queueOf read
  | .entry path value => valueAt path (.obj (metadataOf written)) = some value ∧
      valueAt path (.obj (metadataOf read)) = none

def HoldsEffect (document : Document) : Effect → Prop
  | .event payload => payload ∈ eventItems document
  | .item item => .obj item ∈ queueOf document
  | .entry path value => valueAt path (.obj (metadataOf document)) = some value

/-- The effect may have been taken further but is not gone: the event is there, an item with the key of this one, not
    pending again if this one was not, and some value at the path. -/
def StandsIn (document : Document) : Effect → Prop
  | .event payload => payload ∈ eventItems document
  | .item item => ∃ held : Dict, .obj held ∈ queueOf document ∧
      sameKey (reviewItemKey held) (reviewItemKey item) = true ∧
      (item.get "status" ≠ .str "pending" → held.get "status" ≠ .str "pending")
  | .entry path _ => valueAt path (.obj (metadataOf document)) ≠ none

theorem MadeBy.holds (made : MadeBy read written effect) : HoldsEffect written effect := by
  cases effect with
  | event payload => exact List.mem_of_mem_drop made
  | item item => exact made.1
  | entry path value => exact made.1

theorem HoldsEffect.stands (held : HoldsEffect document effect) : StandsIn document effect := by
  cases effect with
  | event payload => exact held
  | item item => exact ⟨item, held, Json.pyEq_self _, id⟩
  | entry path value =>
    intro absent
    rw [HoldsEffect, absent] at held
    cases held

theorem MadeBy.of_holds {other : Document} (made : MadeBy read written effect)
    (grown : eventItems written <+: eventItems other) (held : HoldsEffect other effect) : MadeBy read other effect := by
  cases effect with
  | event payload =>
    obtain ⟨later, same⟩ := grown
    rw [MadeBy, ← same, List.drop_append]
    exact List.mem_append_left _ made
  | item item => exact ⟨held, made.2⟩
  | entry path value => exact ⟨held, made.2⟩

theorem MadeBy.fresh (made : MadeBy read written effect) (grown : eventItems written <+: eventItems document)
    (either : HoldsEffect document effect ∨ HoldsEffect read effect) : HoldsEffect document effect := by
  cases effect with
  | event payload => exact grown.subset made.holds
  | item item => exact either.resolve_right made.2
  | entry path value =>
    refine either.resolve_right fun held => ?_
    rw [HoldsEffect, made.2] at held
    cases held

/-- The effects of the call on this side are in the document as it made them, or the other call had read them and has
    left them standing. -/
def ContainsEffects (final : Sessions) (document : Document) (side : Side) : Prop :=
  ∃ read written seen other, final.phase side = .returned read written ∧
    final.phase side.other = .returned seen other ∧
    ∀ effect, MadeBy read written effect →
      HoldsEffect document effect ∨ (HoldsEffect seen effect ∧ StandsIn document effect)

def EffectOf (mutator : Document → Outcome Document) (document : Document) (effect : Effect) : Prop :=
  ∃ written, mutator document = .ok written ∧ MadeBy document written effect

def LeavesStanding (mutator : Document → Outcome Document) (document : Document) (effect : Effect) : Prop :=
  ∀ written, mutator document = .ok written → StandsIn written effect

end Effects

section Steps

variable {env : DbEnv} {layerId : String} {mutators : Side → Document → Outcome Document} {sessions next : Sessions}
  {side : Side} {store : DocumentStore} {held : Held}

theorem loadStep_iff {mutator : Document → Outcome Document} {tables : Tables} {read written : Document}
    {record : LayerRecord} : env.loadStep layerId mutator tables = .ok (read, written, record) ↔
      env.load tables layerId = .ok (some read) ∧ mutator read = .ok written ∧
        env.validateLayer written = .ok () ∧ LayerRecord.fromDocument written = .ok record := by
  unfold DbEnv.loadStep
  constructor
  · intro loading
    obtain ⟨loaded, found, loading⟩ := bind_ok_iff.mp loading
    cases loaded with
    | none => cases loading
    | some data =>
      obtain ⟨_, mutation, loading⟩ := bind_ok_iff.mp loading
      obtain ⟨_, valid, loading⟩ := bind_ok_iff.mp loading
      obtain ⟨_, recorded, loading⟩ := bind_ok_iff.mp loading
      cases loading
      exact ⟨found, mutation, valid, recorded⟩
  · rintro ⟨found, mutation, valid, recorded⟩
    refine bind_ok_iff.mpr ⟨_, found, bind_ok_iff.mpr ⟨written, mutation, bind_ok_iff.mpr ⟨(), valid, ?_⟩⟩⟩
    exact bind_ok_iff.mpr ⟨record, recorded, rfl⟩

theorem sessionStep_load (lawful : LawfulDb env) (represents : Represents env sessions.tables store)
    (present : store layerId = some held) (idle : sessions.phase side = .idle)
    (stepped : env.sessionStep layerId mutators sessions side = .ok next) :
    ∃ written record, mutators side held.document = .ok written ∧ env.validate written = true ∧
      LayerRecord.fromDocument written = .ok record ∧ Represents env next.tables store ∧
      next.phase = Function.update sessions.phase side (.loaded held.document written record) := by
  unfold DbEnv.sessionStep at stepped
  rw [idle] at stepped
  obtain ⟨⟨read, written, record⟩, loading, stepped⟩ := bind_ok_iff.mp stepped
  cases stepped
  obtain ⟨found, mutation, valid, recorded⟩ := loadStep_iff.mp loading
  rw [represents.load lawful, present] at found
  cases found
  exact ⟨written, record, mutation, validateLayer_ok.mp valid, recorded, represents, rfl⟩

theorem sessionStep_persist (lawful : LawfulDb env) (represents : Represents env sessions.tables store)
    (present : store layerId = some held) {read written : Document} {record : LayerRecord}
    (loaded : sessions.phase side = .loaded read written record) (valid : env.validate written = true)
    (recorded : LayerRecord.fromDocument written = .ok record)
    (stepped : env.sessionStep layerId mutators sessions side = .ok next) :
    Extends held.document written ∧ Represents env next.tables (store.put layerId ⟨held.owner, written⟩) ∧
      next.phase = Function.update sessions.phase side (.returned read written) := by
  unfold DbEnv.sessionStep at stepped
  rw [loaded] at stepped
  obtain ⟨tables, persisted, stepped⟩ := bind_ok_iff.mp stepped
  cases stepped
  obtain ⟨after, accepted, standing⟩ := (persist_write lawful represents present valid recorded).1 _ persisted
  rw [write, present] at accepted
  obtain ⟨⟨-, extending⟩, made⟩ := Option.ite_none_right_eq_some.mp accepted
  cases made
  exact ⟨extending, standing, rfl⟩

theorem sessionStep_load_accepts (lawful : LawfulDb env) (represents : Represents env sessions.tables store)
    (present : store layerId = some held) (idle : sessions.phase side = .idle) {written : Document}
    (mutation : mutators side held.document = .ok written) (recordable : Recordable env written) :
    ∃ next, env.sessionStep layerId mutators sessions side = .ok next := by
  obtain ⟨valid, record, recorded⟩ := (recordable_iff lawful).mp recordable
  unfold DbEnv.sessionStep
  rw [idle]
  refine ⟨_, bind_ok_iff.mpr ⟨(held.document, written, record), loadStep_iff.mpr ⟨?_, mutation, valid, recorded⟩, rfl⟩⟩
  rw [represents.load lawful, present]
  rfl

theorem sessionStep_persist_accepts (lawful : LawfulDb env) (represents : Represents env sessions.tables store)
    (present : store layerId = some held) {read written : Document} {record : LayerRecord}
    (loaded : sessions.phase side = .loaded read written record) (valid : env.validate written = true)
    (recorded : LayerRecord.fromDocument written = .ok record) (extending : Extends held.document written) :
    ∃ next, env.sessionStep layerId mutators sessions side = .ok next := by
  have recordable := (recordable_iff lawful).mpr ⟨validateLayer_ok.mpr valid, record, recorded⟩
  have writing : write env store layerId written = some (store.put layerId ⟨held.owner, written⟩) := by
    rw [write, present]
    exact if_pos ⟨recordable, extending⟩
  obtain ⟨tables, persisted⟩ := (persist_write lawful represents present valid recorded).2 _ writing
  unfold DbEnv.sessionStep
  rw [loaded]
  exact ⟨_, bind_ok_iff.mpr ⟨tables, persisted, rfl⟩⟩

end Steps

theorem mutate_steps {env : DbEnv} {layerId : String} {mutators : Side → Document → Outcome Document}
    {tables next : Tables} {side : Side} :
    env.mutate layerId (fun data => (·, ()) <$> mutators side data) tables = (next, .ok ()) ↔
      ∃ final, env.interleave layerId mutators [side, side] (.start tables) = .ok final ∧ final.tables = next := by
  rw [mutate_iff]
  constructor
  · rintro ⟨read, written, record, loading, mutation, valid, recorded, persisted⟩
    have load := loadStep_iff.mpr ⟨loading, map_pair_ok.mp mutation, valid, recorded⟩
    let phase := Function.update (fun _ => Phase.idle) side (.loaded read written record)
    refine ⟨⟨next, Function.update phase side (.returned read written)⟩, ?_, rfl⟩
    refine bind_ok_iff.mpr ⟨⟨tables, phase⟩, bind_ok_iff.mpr ⟨_, load, rfl⟩, bind_ok_iff.mpr ⟨_, ?_, rfl⟩⟩
    unfold DbEnv.sessionStep
    simp only [phase, Function.update_self]
    exact bind_ok_iff.mpr ⟨next, persisted, rfl⟩
  · rintro ⟨final, ran, rfl⟩
    obtain ⟨one, load, ran⟩ := bind_ok_iff.mp ran
    obtain ⟨two, persist, ran⟩ := bind_ok_iff.mp ran
    cases ran
    obtain ⟨⟨read, written, record⟩, loading, same⟩ := bind_ok_iff.mp load
    cases same
    unfold DbEnv.sessionStep at persist
    simp only [Sessions.start, Function.update_self] at persist
    obtain ⟨committed, persisted, same⟩ := bind_ok_iff.mp persist
    cases same
    obtain ⟨found, mutation, valid, recorded⟩ := loadStep_iff.mp loading
    exact ⟨read, written, record, found, map_pair_ok.mpr mutation, valid, recorded, persisted⟩

section Schedules

variable {env : DbEnv} {layerId : String} {mutators : Side → Document → Outcome Document} {tables : Tables}
  {final : Sessions} {store : DocumentStore} {held : Held} {first : Side}

def readLast (schedule : List Side) (first : Side) (held early : Document) : Document :=
  if schedule = [first, first, first.other, first.other] then early else held

/-- How two calls that both return come to leave the tables. -/
structure Outcomes (env : DbEnv) (layerId : String) (mutators : Side → Document → Outcome Document)
    (schedule : List Side) (first : Side) (held : Held) (final : Sessions) (early late : Document) : Prop where
  firstMutation : mutators first held.document = .ok early
  lastMutation : mutators first.other (readLast schedule first held.document early) = .ok late
  grown : Extends early late
  firstReturned : final.phase first = .returned held.document early
  lastReturned : final.phase first.other = .returned (readLast schedule first held.document early) late
  stored : ∃ store : DocumentStore, Represents env final.tables store ∧ store layerId = some ⟨held.owner, late⟩

theorem put_self (store : DocumentStore) (layerId : String) (held : Held) :
    store.put layerId held layerId = some held := Function.update_self ..

theorem Outcomes.containsEffects_iff (lawful : LawfulDb env) {schedule : List Side} {early late : Document}
    (outcomes : Outcomes env layerId mutators schedule first held final early late) :
    (∃ document, env.load final.tables layerId = .ok (some document) ∧ ∀ side, ContainsEffects final document side) ↔
    ∀ effect, MadeBy held.document early effect → HoldsEffect late effect ∨
      (HoldsEffect (readLast schedule first held.document early) effect ∧ StandsIn late effect) := by
  obtain ⟨store, standing, kept⟩ := outcomes.stored
  have loaded : env.load final.tables layerId = .ok (some late) := by
    rw [standing.load lawful, kept]
    rfl
  constructor
  · rintro ⟨document, found, contained⟩
    cases loaded.symm.trans found
    obtain ⟨_, _, _, _, returned, lastReturned, contains⟩ := contained first
    cases outcomes.firstReturned.symm.trans returned
    cases outcomes.lastReturned.symm.trans lastReturned
    exact contains
  · intro contains
    refine ⟨late, loaded, fun side => ?_⟩
    by_cases whose : side = first
    · subst whose
      exact ⟨_, _, _, _, outcomes.firstReturned, outcomes.lastReturned, contains⟩
    · have other : side = first.other := by cases side <;> cases first <;> simp_all [Side.other]
      subst other
      have back : first.other.other = first := by cases first <;> rfl
      exact ⟨_, _, _, _, outcomes.lastReturned, back ▸ outcomes.firstReturned, fun effect made => Or.inl made.holds⟩

section Runs

variable (lawful : LawfulDb env) (represents : Represents env tables store) (present : store layerId = some held)

include lawful represents present

theorem outcomes_serial
    (ran : env.interleave layerId mutators [first, first, first.other, first.other] (.start tables) = .ok final) :
    ∃ early late,
      Outcomes env layerId mutators [first, first, first.other, first.other] first held final early late := by
  obtain ⟨one, load, ran⟩ := bind_ok_iff.mp ran
  obtain ⟨two, persist, ran⟩ := bind_ok_iff.mp ran
  obtain ⟨three, reload, ran⟩ := bind_ok_iff.mp ran
  obtain ⟨four, again, ran⟩ := bind_ok_iff.mp ran
  cases ran
  obtain ⟨early, record, mutation, valid, recorded, standing, phase₁⟩ :=
    sessionStep_load lawful represents present rfl load
  obtain ⟨-, standing, phase₂⟩ :=
    sessionStep_persist lawful standing present (by rw [phase₁, Function.update_self]) valid recorded persist
  obtain ⟨late, record', mutation', valid', recorded', standing, phase₃⟩ :=
    sessionStep_load lawful standing (put_self ..) (by simp [phase₂, phase₁, Sessions.start]) reload
  obtain ⟨grown, standing, phase₄⟩ :=
    sessionStep_persist lawful standing (put_self ..) (by rw [phase₃, Function.update_self]) valid' recorded' again
  refine ⟨early, late, mutation, ?_, grown, ?_, ?_, _, standing, put_self ..⟩
  · simpa [readLast] using mutation'
  · simp [phase₄, phase₃, phase₂]
  · simp [phase₄, readLast]

theorem loaded_overlapped {schedule : List Side}
    (shape : schedule = [first, first.other, first, first.other] ∨ schedule = [first.other, first, first, first.other])
    (ran : env.interleave layerId mutators schedule (.start tables) = .ok final) :
    ∃ two : Sessions, ∃ early late record record',
      mutators first held.document = .ok early ∧ mutators first.other held.document = .ok late ∧
      env.validate early = true ∧ env.validate late = true ∧ LayerRecord.fromDocument early = .ok record ∧
      LayerRecord.fromDocument late = .ok record' ∧ Represents env two.tables store ∧
      two.phase first = .loaded held.document early record ∧
      two.phase first.other = .loaded held.document late record' ∧
      env.interleave layerId mutators [first, first.other] two = .ok final := by
  rcases shape with rfl | rfl
  · obtain ⟨one, load, ran⟩ := bind_ok_iff.mp ran
    obtain ⟨two, reload, ran⟩ := bind_ok_iff.mp ran
    obtain ⟨early, record, mutation, valid, recorded, standing, phase₁⟩ :=
      sessionStep_load lawful represents present rfl load
    obtain ⟨late, record', mutation', valid', recorded', standing, phase₂⟩ :=
      sessionStep_load lawful standing present (by simp [phase₁, Sessions.start]) reload
    exact ⟨two, early, late, record, record', mutation, mutation', valid, valid', recorded, recorded', standing,
      by simp [phase₂, phase₁], by simp [phase₂], ran⟩
  · obtain ⟨one, load, ran⟩ := bind_ok_iff.mp ran
    obtain ⟨two, reload, ran⟩ := bind_ok_iff.mp ran
    obtain ⟨late, record', mutation', valid', recorded', standing, phase₁⟩ :=
      sessionStep_load lawful represents present rfl load
    obtain ⟨early, record, mutation, valid, recorded, standing, phase₂⟩ :=
      sessionStep_load lawful standing present (by simp [phase₁, Sessions.start]) reload
    exact ⟨two, early, late, record, record', mutation, mutation', valid, valid', recorded, recorded', standing,
      by simp [phase₂], by simp [phase₂, phase₁], ran⟩

theorem outcomes_overlapped {schedule : List Side}
    (shape : schedule = [first, first.other, first, first.other] ∨ schedule = [first.other, first, first, first.other])
    (ran : env.interleave layerId mutators schedule (.start tables) = .ok final) :
    ∃ early late, Outcomes env layerId mutators schedule first held final early late := by
  have overlapped : readLast schedule first = fun held _ => held := by
    funext held early
    refine if_neg fun serial => ?_
    rcases shape with rfl | rfl <;> simp at serial
  obtain ⟨two, early, late, record, record', mutation, mutation', valid, valid', recorded, recorded', standing,
    readFirst, readOther, ran⟩ := loaded_overlapped lawful represents present shape ran
  obtain ⟨three, persist, ran⟩ := bind_ok_iff.mp ran
  obtain ⟨four, again, ran⟩ := bind_ok_iff.mp ran
  cases ran
  obtain ⟨-, standing, phase₃⟩ := sessionStep_persist lawful standing present readFirst valid recorded persist
  obtain ⟨grown, standing, phase₄⟩ :=
    sessionStep_persist lawful standing (put_self ..) (by simpa [phase₃] using readOther) valid' recorded' again
  refine ⟨early, late, mutation, ?_, grown, ?_, ?_, _, standing, put_self ..⟩
  · rw [overlapped]
    exact mutation'
  · simp [phase₄, phase₃]
  · simp [phase₄, overlapped]

theorem outcomes_interleaved {schedule : List Side} (interleaves : Interleaves schedule)
    (last : schedule.getLast? = some first.other)
    (ran : env.interleave layerId mutators schedule (.start tables) = .ok final) :
    ∃ early late, Outcomes env layerId mutators schedule first held final early late := by
  obtain ⟨earlier, shape⟩ := interleaves_cases interleaves
  have same : earlier = first := by
    rcases shape with rfl | rfl | rfl <;> cases earlier <;> cases first <;> simp_all [Side.other]
  subst same
  rcases shape with rfl | overlapped
  · exact outcomes_serial lawful represents present ran
  · exact outcomes_overlapped lawful represents present overlapped ran

/-- Of two calls that both return nothing is lost exactly where the last to persist reads the document of the first
    and takes nothing of it back, or has by itself every effect the first has on the document both read. -/
theorem no_lost_update_iff {schedule : List Side} (interleaves : Interleaves schedule)
    (last : schedule.getLast? = some first.other)
    (ran : env.interleave layerId mutators schedule (.start tables) = .ok final) :
    (∃ document, env.load final.tables layerId = .ok (some document) ∧ ∀ side, ContainsEffects final document side) ↔
    if schedule = [first, first, first.other, first.other] then
      ∀ early effect, mutators first held.document = .ok early → EffectOf (mutators first) held.document effect →
        LeavesStanding (mutators first.other) early effect
    else
      ∀ effect, EffectOf (mutators first) held.document effect →
        EffectOf (mutators first.other) held.document effect := by
  obtain ⟨early, late, outcomes⟩ := outcomes_interleaved lawful represents present interleaves last ran
  rw [outcomes.containsEffects_iff lawful]
  have lastMutation := outcomes.lastMutation
  split
  · next serial =>
    rw [readLast, if_pos serial] at lastMutation ⊢
    constructor
    · rintro kept _ effect mutation ⟨_, mutation', made⟩ written rewritten
      cases outcomes.firstMutation.symm.trans mutation
      cases mutation.symm.trans mutation'
      cases lastMutation.symm.trans rewritten
      rcases kept effect made with held | ⟨-, stands⟩
      · exact held.stands
      · exact stands
    · intro leaves effect made
      have stands := leaves early effect outcomes.firstMutation ⟨early, outcomes.firstMutation, made⟩ late lastMutation
      exact Or.inr ⟨made.holds, stands⟩
  · next overlapped =>
    rw [readLast, if_neg overlapped] at lastMutation ⊢
    constructor
    · rintro kept effect ⟨_, mutation, made⟩
      cases outcomes.firstMutation.symm.trans mutation
      have held := made.fresh outcomes.grown.1 ((kept effect made).imp_right And.left)
      exact ⟨late, lastMutation, made.of_holds outcomes.grown.1 held⟩
    · intro both effect made
      obtain ⟨_, mutation, again⟩ := both effect ⟨early, outcomes.firstMutation, made⟩
      cases lastMutation.symm.trans mutation
      exact Or.inl again.holds

theorem interleave_accepts {early late : Document} (mutation : mutators first held.document = .ok early)
    (mutation' : mutators first.other held.document = .ok late) (recordable : Recordable env early)
    (recordable' : Recordable env late) (grown : Extends held.document early) (grown' : Extends early late) :
    ∃ final, env.interleave layerId mutators [first, first.other, first, first.other] (.start tables) = .ok final := by
  have begun : ∃ one, env.sessionStep layerId mutators (.start tables) first = .ok one :=
    sessionStep_load_accepts lawful represents present rfl mutation recordable
  obtain ⟨one, load⟩ := begun
  obtain ⟨_, record, same, valid, recorded, standing, phase₁⟩ := sessionStep_load lawful represents present rfl load
  cases mutation.symm.trans same
  have waiting : one.phase first.other = .idle := by simp [phase₁, Sessions.start]
  have both : ∃ two, env.sessionStep layerId mutators one first.other = .ok two :=
    sessionStep_load_accepts lawful standing present waiting mutation' recordable'
  obtain ⟨two, reload⟩ := both
  obtain ⟨_, record', same', valid', recorded', standing, phase₂⟩ :=
    sessionStep_load lawful standing present waiting reload
  cases mutation'.symm.trans same'
  have readFirst : two.phase first = .loaded held.document early record := by simp [phase₂, phase₁]
  have written : ∃ three, env.sessionStep layerId mutators two first = .ok three :=
    sessionStep_persist_accepts lawful standing present readFirst valid recorded grown
  obtain ⟨three, persist⟩ := written
  obtain ⟨-, standing, phase₃⟩ := sessionStep_persist lawful standing present readFirst valid recorded persist
  have readOther : three.phase first.other = .loaded held.document late record' := by simp [phase₃, phase₂]
  have rewritten : ∃ four, env.sessionStep layerId mutators three first.other = .ok four :=
    sessionStep_persist_accepts lawful standing (put_self ..) readOther valid' recorded' grown'
  obtain ⟨four, again⟩ := rewritten
  exact ⟨four, bind_ok_iff.mpr ⟨one, load, bind_ok_iff.mpr ⟨two, reload,
    bind_ok_iff.mpr ⟨three, persist, bind_ok_iff.mpr ⟨four, again, rfl⟩⟩⟩⟩⟩

end Runs

end Schedules

def emptyReview : Document := (Document.empty.set "metadata" (.obj [])).set "needs_review" (.arr [])

def queued (quotes : List String) (document : Document) : Document :=
  let items := quotes.map fun quote => .obj [("quote", .str quote)]
  document.set "needs_review" (.arr (queueItems (queueOf document) items))

noncomputable def reviewTables : Tables :=
  plainDb.performAll Tables.empty [.create "scans" emptyReview (some "repo-1")]

noncomputable def reviewStore : DocumentStore :=
  afterAll plainDb DocumentStore.empty [.create "scans" emptyReview (some "repo-1")]

theorem reviewTables_represent : Represents plainDb reviewTables reviewStore :=
  performAll_represents plainDb_lawful represents_empty _

theorem reviewStore_scans : reviewStore "scans" = some ⟨some "repo-1", emptyReview⟩ := by
  have free : DocumentStore.empty.Free (some "repo-1") := fun _ _ _ _ absent => by cases absent
  have created : create plainDb DocumentStore.empty "scans" emptyReview (some "repo-1") =
      some (DocumentStore.empty.put "scans" ⟨some "repo-1", emptyReview⟩) :=
    if_pos ⟨rfl, by decide +kernel, free, rfl, by decide +kernel, by decide +kernel⟩
  simp [reviewStore, afterAll, after, step, created, DocumentStore.put]

def queueing (quotes : Side → List String) (side : Side) (document : Document) : Outcome Document :=
  .ok (queued (quotes side) document)

theorem queueing_returns (quotes : Side → List String)
    (recordable : ∀ side, Recordable plainDb (queued (quotes side) emptyReview))
    (grown : Extends emptyReview (queued (quotes .left) emptyReview))
    (grown' : Extends (queued (quotes .left) emptyReview) (queued (quotes .right) emptyReview)) :
    ∃ final, plainDb.interleave "scans" (queueing quotes) [.left, .right, .left, .right] (.start reviewTables) =
      .ok final := by
  exact @interleave_accepts plainDb "scans" (queueing quotes) reviewTables reviewStore _ .left plainDb_lawful
    reviewTables_represent reviewStore_scans _ _ rfl rfl (recordable .left) (recordable .right) grown grown'

theorem no_lost_update_iff_same : ∃ final,
    plainDb.interleave "scans" (queueing fun _ => ["a"]) [.left, .right, .left, .right] (.start reviewTables) =
      .ok final ∧
    ∃ document, plainDb.load final.tables "scans" = .ok (some document) ∧
      ∀ side, ContainsEffects final document side := by
  obtain ⟨final, ran⟩ := queueing_returns (fun _ => ["a"]) (fun _ => by decide +kernel) (by decide +kernel)
    (by decide +kernel)
  refine ⟨final, ran, (@no_lost_update_iff plainDb "scans" _ _ final _ _ .left plainDb_lawful reviewTables_represent
    reviewStore_scans _ (by decide) rfl ran).mpr ?_⟩
  rw [if_neg (by decide)]
  exact fun effect made => made

/-- Two overlapping calls queue one item each, and the item of the first to commit is gone. -/
theorem overlapped_item_lost : ∃ final,
    plainDb.interleave "scans" (queueing fun side => if side = .left then ["a"] else ["b"])
      [.left, .right, .left, .right] (.start reviewTables) = .ok final ∧
    ¬ ∃ document, plainDb.load final.tables "scans" = .ok (some document) ∧
      ∀ side, ContainsEffects final document side := by
  obtain ⟨final, ran⟩ := queueing_returns (fun side => if side = .left then ["a"] else ["b"])
    (fun side => by cases side <;> decide +kernel) (by decide +kernel) (by decide +kernel)
  refine ⟨final, ran, ?_⟩
  obtain ⟨early, late, outcomes⟩ := @outcomes_interleaved plainDb "scans" _ _ final _ _ .left plainDb_lawful
    reviewTables_represent reviewStore_scans _ (by decide) rfl ran
  cases outcomes.firstMutation
  cases outcomes.lastMutation
  rw [outcomes.containsEffects_iff plainDb_lawful]
  intro kept
  have made : MadeBy emptyReview (queued ["a"] emptyReview) (.item [("quote", .str "a"), ("status", .str "pending")]) :=
    ⟨by decide +kernel, List.not_mem_nil⟩
  rcases kept _ made with held | ⟨read, -⟩
  · exact absurd (List.mem_singleton.mp held) (by decide +kernel)
  · exact List.not_mem_nil read

end LedgerProof
