import TraustLedger.Batches
import TraustLedger.Proofs.ForwardProgress
import TraustLedger.Proofs.LayerIdGrammar

namespace LedgerProof

open Hashing Python Runs Sha256 LedgerModel

variable {env : Env} {moment : Moment} {actor : LayerActor} {layer : Layer} {stored : LayerStore}

def Reported (failure : Failure) : Prop := failure.isReported = true

theorem not_reported {failure : Failure} (passes : failure.isReported = false) : ¬ Reported failure := by
  rw [Reported, passes]
  decide

structure SoundLayer (env : Env) (layer : Layer) : Prop where
  readable : Readable layer.events
  epoch : ∃ n, rawEpoch layer = .int n
  distinct : env.backend = .db → DistinctIds layer.events

def WholeEpochs (env : Env) : Prop :=
  ∀ layer, env.contracts.validateLayer layer = true → ∃ n, layer.metadata.getD "merkle_epoch" (.int 0) = .int n

theorem SoundLayer.of_reachable (whole : WholeEpochs env) (reachable : Reachable env layer) : SoundLayer env layer := by
  have valid := reachable_valid reachable
  rcases reachable with ⟨layerId, shell, start, calls, created, rfl⟩
  rcases initializeLayer_ok created with ⟨empty, -⟩
  refine ⟨?_, whole _ valid, fun db => ?_⟩
  · apply run_preserves (fun _ _ _ readable accepted => step_readable accepted readable)
    rw [empty]
    intro event member
    cases member
  · apply run_preserves (fun _ _ _ distinct accepted => step_distinct db distinct accepted)
    rw [empty]
    exact ⟨rfl, List.nodup_nil⟩

theorem reachable_next {next : Layer} {call : Call} (reachable : Reachable env layer)
    (accepted : step env layer call = .ok next) : Reachable env next := by
  rcases reachable with ⟨layerId, shell, start, calls, created, rfl⟩
  refine ⟨layerId, shell, start, calls ++ [call], created, ?_⟩
  rw [run, List.foldl_append]
  exact attempt_ok accepted

section Failures

theorem raises_requireVerifiedHuman : Raises Reported (requireVerifiedHuman actor) := by
  refine Raises.bind (.require (by rfl)) fun _ _ => ?_
  exact .require (by rfl)

def InRange (env : Env) (text : String) : Prop :=
  ∀ instant, env.fromIsoFormat text = some instant → datetimeMin ≤ instant ∧ instant ≤ datetimeMax

theorem raises_requireTimestampBounds {text : String} (range : InRange env text) :
    Raises Reported (requireTimestampBounds env.fromIsoFormat moment.now text) := by
  refine Raises.bind ?_ fun _ _ => .require (by rfl)
  unfold parseRecordedAt
  split
  · exact .error (by rfl)
  · next parsed found =>
    rw [require, if_pos (range parsed found)]
    exact .ok parsed

theorem raises_requireRestatementAuthority (block : Dict) : Raises Reported (requireRestatementAuthority block) := by
  refine Raises.bind (.require (by rfl)) fun _ _ => ?_
  refine Raises.bind (.require (by rfl)) fun _ _ => ?_
  refine Raises.bind (.require (by rfl)) fun _ _ => ?_
  exact .require (by rfl)

theorem raises_restatementTarget {block : Dict} (plain : hashable (block.get "target") = true) :
    Raises Reported (restatementTarget block) := by
  unfold restatementTarget
  cases target : block.get "target" with
  | str text =>
    simp only
    split
    · exact .ok text
    · exact .error (by rfl)
  | arr items =>
    rw [target] at plain
    cases plain
  | obj fields =>
    rw [target] at plain
    cases plain
  | _ => exact .error (by rfl)

theorem raises_buildRestatementEvent {block : Dict} {rationale recordedAt : String} {findingRef : Json} :
    Raises Reported (buildRestatementEvent env.hash block rationale actor recordedAt findingRef) := by
  refine Raises.bind (.require (by rfl)) fun _ _ => ?_
  cases findingRef with
  | str ref => exact .ok _
  | _ => exact .error (by rfl)

theorem raises_dumpEvent (event : LayerEvent) : Raises Reported (dumpEvent env event) := by
  unfold dumpEvent
  split
  · exact .ok _
  · exact .error (by rfl)

theorem raises_requireValidEpoch (epoch : ∃ n, rawEpoch layer = .int n) :
    Raises Reported (requireValidEpoch layer) := by
  unfold requireValidEpoch
  split
  · exact .ok ()
  · dsimp only
    refine Raises.bind (.require (by rfl)) fun _ present => ?_
    rcases epoch with ⟨n, whole⟩
    have held : layer.metadata.get "merkle_epoch" = .int n := by
      rw [← whole, rawEpoch, getD_eq_get (require_ok_iff.mp present)]
    rw [held]
    exact .bind (.ok n) fun _ _ => .require (by rfl)

theorem raises_requireSomethingToRestate (block : Dict) (actual : Json) :
    Raises Reported (requireSomethingToRestate block actual) := by
  unfold requireSomethingToRestate
  dsimp only
  split
  · exact .require (by rfl)
  · exact .error (by rfl)
  · exact .require (by rfl)

theorem raises_requireFreshRestatement (block : Dict) (actual : Json) :
    Raises Reported (requireFreshRestatement block actual) := by
  unfold requireFreshRestatement
  split
  · exact .require (by rfl)
  · exact .require (by rfl)

theorem raises_requireMonotonicRestatement {events : List Dict} (readable : Readable events) (block : Dict) :
    Raises Reported (requireMonotonicRestatement block events) := by
  have read : ∀ field key, Raises Reported (retiredValues events field key) := by
    intro field key
    rw [retiredValues_readable readable]
    exact .ok _
  unfold requireMonotonicRestatement
  dsimp only
  split
  · refine Raises.bind (Raises.filterM (fun item => ?_) _) fun _ _ => .require (by rfl)
    exact .bind (read _ _) fun retired _ => .ok _
  · exact .bind (read _ _) fun _ _ => .require (by rfl)

theorem raises_restatementGates (sound : SoundLayer env layer) (block : Dict) (target : String) :
    Raises Reported (restatementGates block target layer) := by
  refine Raises.bind (raises_requireValidEpoch sound.epoch) fun _ _ => ?_
  refine Raises.bind (raises_requireSomethingToRestate _ _) fun _ _ => ?_
  refine Raises.bind (raises_requireFreshRestatement _ _) fun _ _ => ?_
  exact raises_requireMonotonicRestatement sound.readable block

theorem raises_requireStampableEpoch (epoch : Int) (count : Nat) :
    Raises Reported (requireStampableEpoch epoch count) := by
  refine Raises.bind (.require (by rfl)) fun _ _ => ?_
  split
  · exact .require (by rfl)
  · exact .require (by rfl)

theorem raises_finalizeLayer {layerId : String} (epoch : ∃ n, rawEpoch layer = .int n) :
    Raises Reported (finalizeLayer env moment layerId layer) := by
  rcases epoch with ⟨n, whole⟩
  have raw : (layer.metadata.setDefault "merkle_epoch" (.int 0)).get "merkle_epoch" = .int n := by
    rw [← whole, get_setDefault, if_pos rfl, rawEpoch]
  refine Raises.bind ?_ fun _ _ => .bind (.require (by rfl)) fun _ _ => .ok _
  unfold stampMerkleMetadata
  dsimp only
  rw [raw]
  refine Raises.bind (.ok n) fun _ _ => ?_
  refine Raises.bind (raises_requireStampableEpoch _ _) fun _ _ => ?_
  rw [computeMerkleRoot_current]
  refine Raises.bind (.ok _) fun _ _ => ?_
  split
  · exact .ok _
  · exact .ok _

def PassesEarly (moment : Moment) (actor : LayerActor) (rationale : String) : Prop :=
  requireSigningConfigured moment.config = .ok () ∧ requireVerifiedHuman actor = .ok () ∧
    requireRationaleLength rationale = .ok ()

/-- What the later gates take for granted: the time is a text for an instant in range, and a target that passed for
    one can be looked up in a set. -/
def TakenForGranted (env : Env) (moment : Moment) (block : Dict) : Json → Prop
  | .str text => InRange env text ∧ (requireTimestampBounds env.fromIsoFormat moment.now text = .ok () →
      requireRestatementAuthority block = .ok () → hashable (block.get "target") = true)
  | _ => False

theorem raises_restatementEvent {block : Dict} {rationale text : String}
    (granted : PassesEarly moment actor rationale → TakenForGranted env moment block (.str text)) :
    Raises Reported (restatementEvent env moment block rationale actor text) := by
  refine Raises.bind (.require (by rfl)) fun _ configured => ?_
  refine Raises.bind raises_requireVerifiedHuman fun _ human => ?_
  refine Raises.bind (.require (by rfl)) fun _ reason => ?_
  rcases granted ⟨configured, human, reason⟩ with ⟨range, plain⟩
  refine Raises.bind (raises_requireTimestampBounds range) fun _ bounded => ?_
  refine Raises.bind (raises_requireRestatementAuthority block) fun _ authority => ?_
  refine Raises.bind (raises_restatementTarget (plain bounded authority)) fun _ _ => ?_
  refine Raises.bind raises_buildRestatementEvent fun _ _ => ?_
  exact .bind (raises_dumpEvent _) fun _ _ => .ok _

theorem restatementEvent_built {block event : Dict} {rationale text target : String}
    (gated : restatementEvent env moment block rationale actor text = .ok (target, event)) :
    ∃ built, buildRestatementEvent env.hash (block.remove "finding_ref") rationale actor text
      (restatedFindingRef block) = .ok built ∧ env.contracts.eventToDict built = some event := by
  unfold restatementEvent at gated
  replace gated := gate_passed (gate_passed (gate_passed (gate_passed (gate_passed gated))))
  rcases bind_ok_iff.mp gated with ⟨_, -, gated⟩
  rcases bind_ok_iff.mp gated with ⟨built, building, gated⟩
  rcases bind_ok_iff.mp gated with ⟨dumped, dumping, gated⟩
  cases gated
  exact ⟨built, building, dumpEvent_ok dumping⟩

theorem raises_mutate {α : Type} {layerId : String} {mutator : Layer → Outcome (Layer × α)}
    (inner : Raises Reported (mutator layer))
    (distinct : env.backend = .db → ∀ mutated value, mutator layer = .ok (mutated, value) →
      DistinctIds mutated.events) : Raises Reported (mutate env layerId mutator layer) := by
  unfold mutate
  split
  · refine Raises.bind (.require (by rfl)) fun _ _ => ?_
    refine Raises.bind inner fun _ _ => ?_
    exact .bind (.require (by rfl)) fun _ _ => .ok _
  · next db =>
    refine Raises.bind inner fun result mutation => ?_
    rcases result with ⟨mutated, value⟩
    have apart := (distinct db mutated value mutation).distinct
    refine Raises.bind (.require (by rfl)) fun _ _ => ?_
    refine Raises.bind (.require (by rfl)) fun _ _ => ?_
    refine Raises.bind ?_ fun _ _ => ?_
    · refine Raises.bind (.require (by rfl)) fun _ _ => ?_
      exact .bind (.require (by rfl)) fun _ _ => .ok _
    · rw [require, if_pos apart]
      exact .ok _

theorem raises_applyRestatement {layerId rationale text : String} {block : Dict} (sound : SoundLayer env layer)
    (granted : PassesEarly moment actor rationale → TakenForGranted env moment block (.str text)) :
    Raises Reported (applyRestatement env moment layerId block rationale actor text layer) := by
  refine Raises.bind (raises_restatementEvent granted) fun gate gated => ?_
  rcases gate with ⟨target, event⟩
  rcases restatementEvent_ok gated with ⟨targeted, signed, -⟩
  rcases restatementEvent_built gated with ⟨built, building, dump⟩
  rcases @appendRestatement_built env layer block event rationale text target actor built targeted building dump with
    ⟨changed, id, appending⟩
  have after : (block.remove "finding_ref").get "after" = block.get "after" := by
    rw [Dict.get_remove, if_neg (by decide)]
  have epoch : ∃ n, rawEpoch changed = .int n := by
    rw [rawEpoch_appendRestatement signed appending]
    exact sound.epoch
  dsimp only
  apply raises_mutate
  · refine Raises.bind (raises_restatementGates sound _ _) fun _ _ => ?_
    rw [after, appending]
    refine Raises.bind (.ok (changed, id)) fun result same => ?_
    cases same
    exact .bind (raises_finalizeLayer epoch) fun _ _ => .ok _
  · intro db mutated receipt mutation
    replace mutation := gate_passed mutation
    rw [after, appending] at mutation
    rcases bind_ok_iff.mp mutation with ⟨_, same, mutation⟩
    cases same
    rcases bind_ok_iff.mp mutation with ⟨⟨finalized, root⟩, finalizing, mutation⟩
    cases mutation
    rw [(finalizeLayer_ok finalizing).1]
    exact (kept_appendRestatement (sound.distinct db) appending).2

end Failures

/-- The items the loop can report on: an object, and one that does not get past the early gates with a time or a target
    of a kind the later ones take for granted. -/
def Reportable (env : Env) (moment : Moment) (actor : LayerActor) (item : Json) : Prop :=
  item.isObj = true ∧ ∀ layerId rationale block recordedAt,
    splitItem item = .ok (layerId, rationale, block, recordedAt) → PassesEarly moment actor rationale →
      TakenForGranted env moment block (recordedOrNow moment recordedAt)

theorem raises_splitItem {item : Json} (object : item.isObj = true) : Raises Reported (splitItem item) := by
  cases item with
  | obj fields =>
    refine Raises.bind (.require (by rfl)) fun _ _ => ?_
    exact .bind (.require (by rfl)) fun _ _ => .ok _
  | _ => cases object

theorem raises_restateItem {item : Json} (sound : ∀ name layer, stored name = some layer → SoundLayer env layer)
    (reportable : Reportable env moment actor item) : Raises Reported (restateItem env moment actor item stored) := by
  refine Raises.bind (raises_splitItem reportable.1) fun parts split => ?_
  rcases parts with ⟨layerId, rationale, block, recordedAt⟩
  have granted := reportable.2 layerId rationale block recordedAt split
  dsimp only
  cases time : recordedOrNow moment recordedAt with
  | str text =>
    rw [time] at granted
    refine Raises.bind (raises_restatementEvent granted) fun _ _ => ?_
    refine Raises.bind (.bind (.require (by rfl)) fun _ _ => .bind (.require (by rfl)) fun _ _ => .ok _) fun key _ => ?_
    cases held : stored key with
    | none => exact .error (by rfl)
    | some layer => exact .bind (raises_applyRestatement (sound key layer held) granted) fun _ _ => .ok _
  | _ =>
    rw [time] at granted
    refine Raises.bind (.require (by rfl)) fun _ configured => ?_
    refine Raises.bind raises_requireVerifiedHuman fun _ human => ?_
    refine Raises.bind (.require (by rfl)) fun _ reason => ?_
    exact (granted ⟨configured, human, reason⟩).elim

theorem restatementEvent_uncaught {block : Dict} {rationale text : String} (early : PassesEarly moment actor rationale)
    (strange : ¬ TakenForGranted env moment block (.str text)) :
    ∃ failure, restatementEvent env moment block rationale actor text = .error failure ∧ ¬ Reported failure := by
  rcases early with ⟨configured, human, reason⟩
  by_cases range : InRange env text
  · have late : requireTimestampBounds env.fromIsoFormat moment.now text = .ok () ∧
        requireRestatementAuthority block = .ok () ∧ hashable (block.get "target") = false := by
      by_contra plain
      refine strange ⟨range, fun bounded authority => ?_⟩
      by_contra unhashable
      exact plain ⟨bounded, authority, by simpa using unhashable⟩
    rcases late with ⟨bounded, authority, unhashable⟩
    have target : restatementTarget block = .error .typeError := by
      unfold restatementTarget
      cases held : block.get "target" with
      | arr items => rfl
      | obj fields => rfl
      | _ =>
        rw [held] at unhashable
        cases unhashable
    refine ⟨.typeError, ?_, not_reported rfl⟩
    simp only [restatementEvent, configured, human, reason, bounded, authority, target, bind, Except.bind]
  · have outside : ∃ instant, env.fromIsoFormat text = some instant ∧
        ¬ (datetimeMin ≤ instant ∧ instant ≤ datetimeMax) := by
      by_contra inside
      apply range
      intro instant found
      by_contra out
      exact inside ⟨instant, found, out⟩
    rcases outside with ⟨instant, found, out⟩
    refine ⟨.overflowError, ?_, not_reported rfl⟩
    simp only [restatementEvent, configured, human, reason, requireTimestampBounds, parseRecordedAt, found, require,
      out, if_false, bind, Except.bind]

theorem restateItem_uncaught {item : Json} (strange : ¬ Reportable env moment actor item) :
    ∃ failure, restateItem env moment actor item stored = .error failure ∧ ¬ Reported failure := by
  by_cases object : item.isObj = true
  · have parts : ∃ layerId rationale block recordedAt, splitItem item = .ok (layerId, rationale, block, recordedAt) ∧
        PassesEarly moment actor rationale ∧
        ¬ TakenForGranted env moment block (recordedOrNow moment recordedAt) := by
      by_contra none
      refine strange ⟨object, fun layerId rationale block recordedAt split early => ?_⟩
      by_contra missed
      exact none ⟨layerId, rationale, block, recordedAt, split, early, missed⟩
    rcases parts with ⟨layerId, rationale, block, recordedAt, split, early, missed⟩
    unfold restateItem
    rw [split]
    dsimp only [bind, Except.bind]
    cases time : recordedOrNow moment recordedAt with
    | str text =>
      rw [time] at missed
      rcases restatementEvent_uncaught early missed with ⟨failure, raised, unreported⟩
      refine ⟨failure, ?_, unreported⟩
      simp only [restateLayer, raised, bind, Except.bind]
    | _ =>
      refine ⟨.typeError, ?_, not_reported rfl⟩
      simp only [early.1, early.2.1, early.2.2]
  · cases item with
    | obj fields => exact absurd rfl object
    | _ => exact ⟨.attributeError, rfl, not_reported rfl⟩

section Loop

variable {clock : Nat → Moment} {index : Nat} {item : Json} {items : List Json}

def itemLeaves (env : Env) (moment : Moment) (actor : LayerActor) (item : Json) (stored : LayerStore) : LayerStore :=
  match restateItem env moment actor item stored with
  | .ok (next, _) => next
  | .error _ => stored

def itemsLeave (env : Env) (clock : Nat → Moment) (actor : LayerActor) : Nat → LayerStore → List Json → LayerStore
  | _, stored, [] => stored
  | index, stored, item :: items =>
    itemsLeave env clock actor (index + 1) (itemLeaves env (clock index) actor item stored) items

def itemOutcome (env : Env) (moment : Moment) (actor : LayerActor) (index : Nat) (item : Json) (stored : LayerStore) :
    Except BatchFailure RestatementResponse :=
  match restateItem env moment actor item stored with
  | .ok (_, response) => .ok response
  | .error failure => .error ⟨index, failedLayer item, failure.detail⟩

def itemOutcomes (env : Env) (clock : Nat → Moment) (actor : LayerActor) :
    Nat → LayerStore → List Json → List (Except BatchFailure RestatementResponse)
  | _, _, [] => []
  | index, stored, item :: items => itemOutcome env (clock index) actor index item stored ::
      itemOutcomes env clock actor (index + 1) (itemLeaves env (clock index) actor item stored) items

def failureOf : Except BatchFailure RestatementResponse → Option BatchFailure
  | .ok _ => none
  | .error failure => some failure

theorem length_itemOutcomes : (itemOutcomes env clock actor index stored items).length = items.length := by
  induction items generalizing index stored with
  | nil => rfl
  | cons item items ih => rw [itemOutcomes, List.length_cons, List.length_cons, ih]

theorem getElem_itemOutcomes {turn : Nat} (found : items[turn]? = some item) :
    (itemOutcomes env clock actor index stored items)[turn]? =
      some (itemOutcome env (clock (index + turn)) actor (index + turn) item
        (itemsLeave env clock actor index stored (items.take turn))) := by
  induction items generalizing index stored turn with
  | nil => cases found
  | cons head items ih =>
    cases turn with
    | zero =>
      cases found
      rfl
    | succ turn =>
      have shifted : index + (turn + 1) = index + 1 + turn := by omega
      rw [itemOutcomes, List.getElem?_cons_succ, ih found, shifted]
      rfl

theorem itemsLeave_append (more : List Json) : itemsLeave env clock actor index stored (items ++ more) =
    itemsLeave env clock actor (index + items.length) (itemsLeave env clock actor index stored items) more := by
  induction items generalizing index stored with
  | nil => rfl
  | cons item items ih =>
    have shifted : index + (items.length + 1) = index + 1 + items.length := by omega
    rw [List.cons_append, itemsLeave, ih, List.length_cons, shifted]
    rfl

theorem itemsLeave_succ {turn : Nat} (found : items[turn]? = some item) :
    itemsLeave env clock actor index stored (items.take (turn + 1)) =
      itemLeaves env (clock (index + turn)) actor item (itemsLeave env clock actor index stored (items.take turn)) := by
  have inside : turn < items.length := (List.getElem?_eq_some_iff.mp found).1
  have taken : items.take (turn + 1) = items.take turn ++ [item] := by
    rw [List.take_add_one, found]
    rfl
  rw [taken, itemsLeave_append, List.length_take, Nat.min_eq_left (Nat.le_of_lt inside)]
  rfl

def touches (item : Json) : Option String :=
  match splitItem item with
  | .ok (layerId, _) => some layerId
  | .error _ => none

theorem restateItem_ok {next : LayerStore} {response : RestatementResponse}
    (accepted : restateItem env moment actor item stored = .ok (next, response)) :
    ∃ layerId layer changed, touches item = some layerId ∧ stored layerId = some layer ∧
      next = stored.put layerId changed ∧ (∃ call, step env layer call = .ok changed) ∧
      ∀ other : LayerStore, other layerId = some layer →
        restateItem env moment actor item other = .ok (other.put layerId changed, response) := by
  unfold restateItem at accepted
  rcases bind_ok_iff.mp accepted with ⟨⟨layerId, rationale, block, recordedAt⟩, split, accepted⟩
  dsimp only at accepted
  split at accepted
  · next text time =>
    unfold restateLayer at accepted
    rcases bind_ok_iff.mp accepted with ⟨⟨target, event⟩, gated, accepted⟩
    rcases bind_ok_iff.mp accepted with ⟨key, resolved, accepted⟩
    have same := (layerKey_ok_iff.mp resolved).2.2
    subst same
    dsimp only at accepted
    split at accepted
    · cases accepted
    · next layer held =>
      rcases bind_ok_iff.mp accepted with ⟨⟨changed, receipt⟩, applied, accepted⟩
      cases accepted
      refine ⟨key, layer, changed, by rw [touches, split], held, rfl, ?_, fun other holds => ?_⟩
      · refine ⟨.restate moment key block rationale actor text, ?_⟩
        simp only [step, applied]
        rfl
      · simp only [restateItem, split, time, restateLayer, gated, resolved, holds, applied, bind, Except.bind, pure,
          Except.pure]
  · replace accepted := gate_passed (gate_passed (gate_passed accepted))
    cases accepted

theorem itemLeaves_apart {name : String} (apart : touches item ≠ some name) :
    itemLeaves env moment actor item stored name = stored name := by
  unfold itemLeaves
  cases outcome : restateItem env moment actor item stored with
  | error failure => rfl
  | ok result =>
    rcases result with ⟨next, response⟩
    rcases restateItem_ok outcome with ⟨layerId, layer, changed, routed, -, rfl, -⟩
    have other : name ≠ layerId := by
      intro same
      rw [same] at apart
      exact apart routed
    exact if_neg other

theorem itemOutcome_failed {failure : BatchFailure}
    (failed : itemOutcome env moment actor index item stored = .error failure) :
    failure.index = index ∧ itemLeaves env moment actor item stored = stored := by
  unfold itemOutcome at failed
  unfold itemLeaves
  cases outcome : restateItem env moment actor item stored with
  | ok result =>
    rw [outcome] at failed
    cases failed
  | error raised =>
    rw [outcome] at failed
    cases failed
    exact ⟨rfl, rfl⟩

theorem itemsLeave_apart {name : String} (apart : ∀ item ∈ items, touches item ≠ some name) :
    itemsLeave env clock actor index stored items name = stored name := by
  induction items generalizing index stored with
  | nil => rfl
  | cons item items ih =>
    rw [List.forall_mem_cons] at apart
    rw [itemsLeave, ih apart.2, itemLeaves_apart apart.1]

end Loop

def SystemStored (env : Env) (stored : LayerStore) : Prop :=
  ∀ name layer, stored name = some layer → Reachable env layer

theorem SystemStored.itemLeaves {item : Json} (own : SystemStored env stored) :
    SystemStored env (itemLeaves env moment actor item stored) := by
  unfold LedgerProof.itemLeaves
  cases outcome : restateItem env moment actor item stored with
  | error failure => exact own
  | ok result =>
    rcases result with ⟨next, response⟩
    rcases restateItem_ok outcome with ⟨layerId, layer, changed, -, held, rfl, ⟨call, accepted⟩, -⟩
    intro name found holds
    dsimp only [LayerStore.put] at holds
    split at holds
    · cases holds
      exact reachable_next (own layerId layer held) accepted
    · exact own name found holds

section Report

variable {clock : Nat → Moment} {index : Nat} {items : List Json}

theorem restateItems_reports (whole : WholeEpochs env) {report : BatchReport} (own : SystemStored env stored)
    (all : ∀ turn item, items[turn]? = some item → Reportable env (clock (index + turn)) actor item) :
    restateItems env clock actor index stored report items = (itemsLeave env clock actor index stored items,
      .ok ⟨report.applied ++ (itemOutcomes env clock actor index stored items).filterMap Except.toOption,
        report.failed ++ (itemOutcomes env clock actor index stored items).filterMap failureOf⟩) := by
  induction items generalizing index stored report with
  | nil => simp [restateItems, itemsLeave, itemOutcomes]
  | cons item items ih =>
    have later : ∀ turn item, items[turn]? = some item → Reportable env (clock (index + 1 + turn)) actor item := by
      intro turn item found
      have shifted : index + 1 + turn = index + (turn + 1) := by omega
      rw [shifted]
      exact all (turn + 1) item found
    have sound : ∀ name layer, stored name = some layer → SoundLayer env layer :=
      fun name layer held => .of_reachable whole (own name layer held)
    have caught := raises_restateItem sound (all 0 item rfl)
    have kept : SystemStored env (itemLeaves env (clock index) actor item stored) := own.itemLeaves
    have next := fun {report : BatchReport} => @ih _ (index + 1) report kept later
    cases outcome : restateItem env (clock index) actor item stored with
    | ok result =>
      rcases result with ⟨changed, response⟩
      have leaves : itemLeaves env (clock index) actor item stored = changed := by rw [itemLeaves, outcome]
      have entered : itemOutcome env (clock index) actor index item stored = .ok response := by
        rw [itemOutcome, outcome]
      rw [leaves] at next
      rw [restateItems, outcome, itemsLeave, itemOutcomes, leaves, entered]
      dsimp only
      rw [next]
      simp [List.filterMap_cons, failureOf, Except.toOption]
    | error failure =>
      have leaves : itemLeaves env (clock index) actor item stored = stored := by rw [itemLeaves, outcome]
      have entered : itemOutcome env (clock index) actor index item stored =
          .error ⟨index, failedLayer item, failure.detail⟩ := by rw [itemOutcome, outcome]
      have known : failure.isReported = true := caught failure outcome
      rw [leaves] at next
      rw [restateItems, outcome, itemsLeave, itemOutcomes, leaves, entered]
      dsimp only
      rw [if_pos known, next]
      simp [List.filterMap_cons, failureOf, Except.toOption]

theorem reportable_of_restateItems {report result : BatchReport} {final : LayerStore}
    (ended : restateItems env clock actor index stored report items = (final, .ok result)) {turn : Nat} {item : Json}
    (found : items[turn]? = some item) : Reportable env (clock (index + turn)) actor item := by
  induction items generalizing index stored report turn with
  | nil => cases found
  | cons head items ih =>
    rw [restateItems] at ended
    have later : ∀ {left : LayerStore} {more : BatchReport},
        restateItems env clock actor (index + 1) left more items = (final, .ok result) → ∀ {turn : Nat},
        items[turn]? = some item → Reportable env (clock (index + (turn + 1))) actor item := by
      intro left more ended turn found
      have shifted : index + (turn + 1) = index + 1 + turn := by omega
      rw [shifted]
      exact ih ended found
    have first : Reportable env (clock index) actor head := by
      by_contra strange
      rcases @restateItem_uncaught env (clock index) actor stored head strange with ⟨failure, raised, unreported⟩
      rw [raised] at ended
      dsimp only at ended
      have passes : ¬ failure.isReported = true := unreported
      rw [if_neg passes] at ended
      cases ended
    cases turn with
    | zero =>
      cases found
      exact first
    | succ turn =>
      cases outcome : restateItem env (clock index) actor head stored with
      | ok changed =>
        rw [outcome] at ended
        exact later ended found
      | error failure =>
        rw [outcome] at ended
        dsimp only at ended
        split at ended
        · exact later ended found
        · cases ended

end Report

/-- What a batch promises. Each index has one outcome, and the report lists the outcomes; an item that would be
    accepted by itself, on a layer no other item is routed to, is applied; a failed item changes no layer. -/
structure BatchReported (env : Env) (clock : Nat → Moment) (actor : LayerActor) (items : List Json)
    (stored final : LayerStore) (report : BatchReport) (outcomes : List (Except BatchFailure RestatementResponse)) :
    Prop where
  returns : applyRestatementBatch env clock items actor stored = (final, .ok report)
  each : outcomes.length = items.length
  applied : report.applied = outcomes.filterMap Except.toOption
  failed : report.failed = outcomes.filterMap failureOf
  indexed : ∀ index (failure : BatchFailure), outcomes[index]? = some (.error failure) → failure.index = index
  unharmed : ∀ index item next response, items[index]? = some item →
    restateItem env (clock index) actor item stored = .ok (next, response) →
    (∀ other rival, items[other]? = some rival → other ≠ index → touches rival ≠ touches item) →
      outcomes[index]? = some (.ok response) ∧ ∀ name, touches item = some name → final name = next name
  unchanged : ∀ index (failure : BatchFailure), outcomes[index]? = some (.error failure) →
    (applyRestatementBatch env clock (items.take (index + 1)) actor stored).1 =
      (applyRestatementBatch env clock (items.take index) actor stored).1

section Batch

variable {clock : Nat → Moment} {items : List Json}

theorem batch_leaves (whole : WholeEpochs env) (own : SystemStored env stored)
    (all : ∀ index item, items[index]? = some item → Reportable env (clock index) actor item) :
    (applyRestatementBatch env clock items actor stored).1 = itemsLeave env clock actor 0 stored items := by
  unfold applyRestatementBatch
  split
  · next empty =>
    rw [empty]
    rfl
  · rw [restateItems_reports whole own]
    intro turn item found
    rw [Nat.zero_add]
    exact all turn item found

theorem getElem_of_take {bound index : Nat} {item : Json} (found : (items.take bound)[index]? = some item) :
    index < bound ∧ items[index]? = some item := by
  rw [List.getElem?_take] at found
  split at found
  · next below => exact ⟨below, found⟩
  · cases found

theorem getElem_of_drop {bound : Nat} {item : Json} (member : item ∈ items.drop bound) :
    ∃ index, bound ≤ index ∧ items[index]? = some item := by
  rcases List.mem_iff_getElem?.mp member with ⟨offset, found⟩
  rw [List.getElem?_drop] at found
  exact ⟨bound + offset, by omega, found⟩

theorem failed_item {index : Nat} {failure : BatchFailure}
    (failed : (itemOutcomes env clock actor 0 stored items)[index]? = some (.error failure)) :
    ∃ item, items[index]? = some item ∧ itemOutcome env (clock index) actor index item
      (itemsLeave env clock actor 0 stored (items.take index)) = .error failure := by
  have inside := (List.getElem?_eq_some_iff.mp failed).1
  rw [length_itemOutcomes] at inside
  have found := List.getElem?_eq_getElem inside
  rw [getElem_itemOutcomes found, Nat.zero_add, Option.some.injEq] at failed
  exact ⟨_, found, failed⟩

theorem unharmed_alone {index : Nat} {item : Json} {next : LayerStore} {response : RestatementResponse}
    (found : items[index]? = some item)
    (accepted : restateItem env (clock index) actor item stored = .ok (next, response))
    (alone : ∀ other rival, items[other]? = some rival → other ≠ index → touches rival ≠ touches item) :
    (itemOutcomes env clock actor 0 stored items)[index]? = some (.ok response) ∧
      ∀ name, touches item = some name → itemsLeave env clock actor 0 stored items name = next name := by
  rcases restateItem_ok accepted with ⟨layerId, layer, changed, routed, held, rfl, -, anywhere⟩
  have earlier : ∀ rival ∈ items.take index, touches rival ≠ some layerId := by
    intro rival member
    rcases List.mem_iff_getElem?.mp member with ⟨other, before⟩
    rcases getElem_of_take before with ⟨below, here⟩
    rw [← routed]
    exact alone other rival here (by omega)
  have later : ∀ rival ∈ items.drop (index + 1), touches rival ≠ some layerId := by
    intro rival member
    rcases getElem_of_drop member with ⟨other, beyond, here⟩
    rw [← routed]
    exact alone other rival here (by omega)
  have reached : itemsLeave env clock actor 0 stored (items.take index) layerId = some layer := by
    rw [itemsLeave_apart earlier, held]
  have turn := anywhere _ reached
  constructor
  · rw [getElem_itemOutcomes found, Nat.zero_add, itemOutcome, turn]
  · intro name named
    rw [routed] at named
    cases named
    rw [← List.take_append_drop (index + 1) items, itemsLeave_append, itemsLeave_apart later, itemsLeave_succ found,
      Nat.zero_add, itemLeaves, turn]
    simp [LayerStore.put]

end Batch

def isWhole : Json → Bool
  | .int _ => true
  | _ => false

def wholeContracts : Contracts :=
  { referenceContracts with
    validateLayer := fun layer => acceptsLayer layer && isWhole (layer.metadata.getD "merkle_epoch" (.int 0))
    parse_dump := fun event dump stored layer accepted same held valid =>
      referenceContracts.parse_dump event dump stored layer accepted same held (Bool.and_eq_true_iff.mp valid).1
    audit_report_scalar := fun layer accepted =>
      referenceContracts.audit_report_scalar layer (Bool.and_eq_true_iff.mp accepted).1 }

def wholeEnv : Env := { referenceEnv with contracts := wholeContracts }

theorem wholeEnv_epochs : WholeEpochs wholeEnv := by
  intro layer valid
  have whole := (Bool.and_eq_true_iff.mp valid).2
  cases held : layer.metadata.getD "merkle_epoch" (.int 0) with
  | int n => exact ⟨n, rfl⟩
  | _ =>
    rw [held] at whole
    cases whole

def acmeStored : LayerStore := fun name => if name = "acme" then some oneClaim else none

theorem acmeStored_own : SystemStored wholeEnv acmeStored := by
  intro name layer held
  unfold acmeStored at held
  split at held
  · cases held
    exact ⟨"acme", oneClaim, oneClaim, [], rfl, rfl⟩
  · cases held

def moveItem (layerId : String) (recordedAt : Json) : Json :=
  .obj (Dict.ofList ([("layer", .str layerId), ("rationale", .str "the digest was wrong"),
    ("recorded_at", recordedAt)] ++ moveOne))

theorem moveItem_reportable {layerId : String} (split : splitItem (moveItem layerId (.str sampleInstant)) =
    .ok (layerId, "the digest was wrong", moveOne, .str sampleInstant)) :
    Reportable wholeEnv unsigned verifiedAdmin (moveItem layerId (.str sampleInstant)) := by
  refine ⟨rfl, fun name rationale block recordedAt parts _ => ?_⟩
  rw [split] at parts
  cases parts
  refine ⟨fun instant found => ?_, fun _ _ => rfl⟩
  have known : instant = 1772600767000000 := by
    cases found
    rfl
  rw [known]
  decide

end LedgerProof
