import TraustLedger.Proofs.PagedFindings
import TraustLedger.Proofs.ForwardProgress
import TraustLedger.Proofs.LayerIdGrammar
import TraustLedger.Proofs.HumanDecisions
import Mathlib.Order.Bounds.Defs

namespace LedgerProof

open Hashing Python Runs Pagination LedgerModel

variable {env : Env} {nowText : String} {layer next : Layer} {stored : Snapshot} {limit : Nat}

def isWrite : Call → Bool
  | .submitEvent .. | .submitBatch .. | .restate .. => true
  | _ => false

def epochNumber (layer : Layer) : Option Int := (rawEpoch layer).pyInt

def Gained (stored next : Snapshot) (layerId : String) : Prop :=
  ∃ before after, stored.entries.lookup layerId = some before ∧ next.entries.lookup layerId = some after ∧
    before.events.length < after.events.length

def seenEpochs (pages : List BulkFindings) : List Int :=
  pages.flatMap fun page => page.layers.filterMap fun layer => layer.merkleEpoch

section Epochs

theorem epoch_finalized {moment : Moment} {layerId root : String} {draft : Layer}
    (accepted : finalizeLayer env moment layerId draft = .ok (next, root)) : rawEpoch next = rawEpoch draft := by
  have final := stamped_of_finalize accepted
  unfold finalizeLayer at accepted
  rcases bind_ok_iff.mp accepted with ⟨⟨stamped, dropped⟩, stamp, accepted⟩
  replace accepted := gate_passed accepted
  have frame : ∀ key, key ∉ signatureKeys → next.metadata.get key = stamped.metadata.get key := by
    cases accepted
    exact (signIfConfigured_frame env.signers _ stamped).2
  rw [final.rawEpoch, frame "merkle_epoch" (by decide), ← (stamped_of_stamp stamp).rawEpoch, rawEpoch_stamped stamp]

/-- What a write leaves of the epoch: its value, and a value that can be read where the log has changed. -/
structure EpochKept (before after : Layer) : Prop where
  raw : rawEpoch after = rawEpoch before
  stamped : after.events = before.events ∨ ∃ epoch, (after.metadata.get "merkle_epoch").pyInt = some epoch

theorem EpochKept.refl (layer : Layer) : EpochKept layer layer := ⟨rfl, Or.inl rfl⟩

theorem step_epochKept {call : Call} (write : isWrite call = true) (accepted : step env layer call = .ok next) :
    rawEpoch next = rawEpoch layer ∧
      ((next.metadata = layer.metadata ∧ next.events = layer.events) ∨
        ∃ epoch, (next.metadata.get "merkle_epoch").pyInt = some epoch) := by
  cases step_written accepted with
  | finalized drafted finalizing =>
    refine ⟨?_, Or.inr ⟨_, (stamped_of_finalize finalizing).epoch⟩⟩
    rw [epoch_finalized finalizing]
    cases drafted with
    | restate gated appending => exact rawEpoch_appendRestatement (restatementEvent_ok gated).2.1 appending
    | submitEvent submitted appending =>
      rcases appendOne_ok appending with ⟨prepared, _, rfl⟩
      rfl
    | submitBatch appending =>
      rcases appendMany_ok appending with ⟨added, rfl, _⟩
      rfl
    | _ => cases write
  | queued metadata events => exact ⟨by rw [rawEpoch, rawEpoch, metadata], Or.inl ⟨metadata, events⟩⟩
  | _ => cases write

theorem EpochKept.step {before : Layer} {call : Call} (kept : EpochKept before layer) (write : isWrite call = true)
    (accepted : step env layer call = .ok next) : EpochKept before next := by
  rcases step_epochKept write accepted with ⟨raw, unchanged | stamped⟩
  · refine ⟨raw.trans kept.raw, ?_⟩
    rw [unchanged.1, unchanged.2]
    exact kept.stamped
  · exact ⟨raw.trans kept.raw, Or.inr stamped⟩

end Epochs

section Stores

theorem lookup_of_load {layerId : String} (loaded : stored.load env.backend layerId = .ok layer) :
    stored.entries.lookup layerId = some layer := by
  rcases bind_ok_iff.mp loaded with ⟨key, named, loaded⟩
  rcases layerKey_ok_iff.mp named with ⟨-, -, rfl⟩
  split at loaded
  · next layer found =>
    cases loaded
    exact found
  · cases loaded

theorem lookup_store (stored : Snapshot) (layerId name : String) (layer : Layer) :
    (stored.store layerId layer).entries.lookup name =
      if name = layerId then (stored.entries.lookup name).map fun _ => layer else stored.entries.lookup name := by
  unfold Snapshot.store
  simp only
  induction stored.entries with
  | nil => simp
  | cons entry entries ih =>
    rcases entry with ⟨held, value⟩
    rw [List.map_cons, List.lookup_cons, List.lookup_cons]
    by_cases own : held = layerId
    · subst own
      by_cases same : name = held
      · simp [same]
      · simp [same, ih, beq_eq_false_iff_ne.mpr same]
    · rw [if_neg own]
      by_cases same : name = held
      · simp [same, own]
      · simp only [beq_eq_false_iff_ne.mpr same, ih]

def StoreKept (stored next : Snapshot) : Prop :=
  ∀ layerId after, next.entries.lookup layerId = some after →
    ∃ before, stored.entries.lookup layerId = some before ∧ EpochKept before after

theorem callStep_kept {held : Snapshot} {call : Call} (kept : StoreKept stored held) (write : isWrite call = true)
    {result : Snapshot} (accepted : callStep env held call = .ok result) : StoreKept stored result := by
  rcases bind_ok_iff.mp accepted with ⟨layer, loaded, accepted⟩
  rcases bind_ok_iff.mp accepted with ⟨written, stepped, accepted⟩
  cases accepted
  have found := lookup_of_load loaded
  intro layerId after present
  rw [lookup_store] at present
  split at present
  · next same =>
    rw [same, found, Option.map_some, Option.some.injEq] at present
    rcases kept (callLayerId call) layer found with ⟨before, held, epoch⟩
    exact ⟨before, same ▸ held, present ▸ epoch.step write stepped⟩
  · exact kept layerId after present

theorem run_kept {calls : List Call} (writes : ∀ call ∈ calls, isWrite call = true) (stored : Snapshot) :
    StoreKept stored (run (callStep env) stored calls) := by
  have start : StoreKept stored stored := fun layerId after present => ⟨after, present, .refl after⟩
  have along : ∀ held, StoreKept stored held → StoreKept stored (run (callStep env) held calls) := by
    intro held kept
    induction calls generalizing held with
    | nil => exact kept
    | cons call calls ih =>
      rw [List.forall_mem_cons] at writes
      refine ih writes.2 _ (attempt_preserves kept ?_)
      intro result accepted
      exact callStep_kept kept writes.1 accepted
  exact along stored start

end Stores

section Polling

variable {sinceEpoch : Option Int} {cursor : Option String}

theorem exists_poll (positive : 0 < limit) (listable : Listable env nowText stored sinceEpoch) :
    ∃ pages, followCursor env nowText limit sinceEpoch none
        (List.replicate (stored.listLayerIds.length + 1) stored) = .ok (pages, true) := by
  rcases followCursor_reads positive (pagesAlong_start limit listable (stored.listLayerIds.length + 1)) with
    ⟨pages, finished, followed, reads⟩
  have reached : finished = true := by
    refine reads.finishes stored.listLayerIds ?_ (by simp)
    intro members listed layerId member
    rcases List.mem_map.mp listed with ⟨shot, copy, rfl⟩
    rw [List.eq_of_mem_replicate copy] at member
    exact List.mem_of_mem_filter member
  rw [reached] at followed
  exact ⟨pages, followed⟩

theorem poll_ids (positive : 0 < limit) (listable : Listable env nowText stored sinceEpoch) {requests : Nat}
    {pages : List BulkFindings}
    (read : followCursor env nowText limit sinceEpoch none (List.replicate requests stored) = .ok (pages, true))
    (layerId : String) : layerId ∈ pages.flatMap pageIds ↔ layerId ∈ matchingIds stored sinceEpoch := by
  rcases followCursor_reads positive (pagesAlong_start limit listable requests) with
    ⟨others, finished, followed, reads⟩
  rw [read, Except.ok.injEq, Prod.mk.injEq] at followed
  rcases followed with ⟨rfl, rfl⟩
  have each : ∀ members ∈ (List.replicate requests stored).map fun shot => matchingIds shot sinceEpoch,
      members = matchingIds stored sinceEpoch := by
    intro members listed
    rcases List.mem_map.mp listed with ⟨shot, copy, rfl⟩
    rw [List.eq_of_mem_replicate copy]
  constructor
  · intro member
    rcases reads.within member with ⟨members, listed, held⟩
    rwa [← each members listed]
  · intro member
    refine reads.complete ?_ rfl ?_ (by simp)
    · intro members listed
      rw [each members listed]
      exact matchingIds_sorted stored sinceEpoch
    · intro members listed
      rwa [each members listed]

def ResolvedFrom (env : Env) (nowText : String) (stored : Snapshot) (entry : LayerFindings) : Prop :=
  ∃ layer, stored.entries.lookup entry.layerId = some layer ∧ layerFindings env nowText entry.layerId layer = .ok entry

theorem scanLayers_resolves {layerIds : List String} {scanned : Nat} {layers : List LayerFindings}
    (scanning : scanLayers env nowText stored limit sinceEpoch scanned layerIds = .ok layers) :
    ∀ entry ∈ layers, ResolvedFrom env nowText stored entry := by
  induction layerIds generalizing scanned layers with
  | nil =>
    cases scanning
    simp
  | cons layerId layerIds ih =>
    rw [scanLayers] at scanning
    split at scanning
    · cases scanning
      simp
    · rcases bind_ok_iff.mp scanning with ⟨layer, loaded, scanning⟩
      rcases bind_ok_iff.mp scanning with ⟨answer, _, scanning⟩
      split at scanning
      · exact ih scanning
      · rcases bind_ok_iff.mp scanning with ⟨entry, resolving, scanning⟩
        rcases bind_ok_iff.mp scanning with ⟨entries, rest, scanning⟩
        cases scanning
        rw [List.forall_mem_cons]
        have own := layerFindings_layerId resolving
        refine ⟨⟨layer, ?_, ?_⟩, ih rest⟩
        · rw [own]
          exact lookup_of_load loaded
        · rw [own]
          exact resolving

theorem followCursor_resolves {requests : Nat} {pages : List BulkFindings} {finished : Bool}
    (read : followCursor env nowText limit sinceEpoch cursor (List.replicate requests stored) = .ok (pages, finished)) :
    ∀ page ∈ pages, ∀ entry ∈ page.layers, ResolvedFrom env nowText stored entry := by
  induction requests generalizing cursor pages finished with
  | zero =>
    cases read
    simp
  | succ requests ih =>
    rw [List.replicate_succ] at read
    rcases bind_ok_iff.mp read with ⟨page, resolved, read⟩
    have own : ∀ entry ∈ page.layers, ResolvedFrom env nowText stored entry := by
      rcases bind_ok_iff.mp resolved with ⟨layers, scanning, resolved⟩
      cases resolved
      exact scanLayers_resolves scanning
    split at read
    · cases read
      simpa using own
    · rcases bind_ok_iff.mp read with ⟨⟨later, answer⟩, followed, read⟩
      cases read
      rw [List.forall_mem_cons]
      exact ⟨own, ih followed⟩

end Polling

section Delta

/-- The epoch of the layer is the largest, or the layer has none yet and zero is no smaller. -/
def HasEpoch (largest : Int) (layer : Layer) : Prop :=
  (layer.metadata.has "merkle_epoch" = true ∧ epochNumber layer = some largest) ∨
    (layer.metadata.has "merkle_epoch" = false ∧ largest ≤ 0)

theorem pyInt_of_norm {value : Json} {n : Int} (same : value.norm = .int n) : value.pyInt = some n := by
  cases value with
  | bool b =>
    simp only [Json.norm, Json.int.injEq] at same
    rw [Json.pyInt, same]
  | int m =>
    simp only [Json.norm, Json.int.injEq] at same
    rw [Json.pyInt, same]
  | float x =>
    simp only [Json.norm, Json.normFloat, FloatText.integral] at same
    split at same
    · simp only [Option.elim_some, Json.int.injEq] at same
      rw [Json.pyInt, same]
    · cases same
  | null => cases same
  | str text => cases same
  | arr items => simp [Json.norm] at same
  | obj fields => simp [Json.norm] at same

theorem listed_of_lookup {layerId : String} (found : stored.entries.lookup layerId = some layer) :
    layerId ∈ stored.listLayerIds := by
  rw [mem_listLayerIds]
  rcases List.lookup_eq_some_iff.mp found with ⟨before, after, split, _⟩
  rw [split]
  simp

theorem matching_gained {held : Snapshot} {before after : Layer} {layerId : String} {sinceEpoch : Int}
    (kept : EpochKept before after) (found : held.entries.lookup layerId = some after)
    (grown : before.events.length < after.events.length) :
    layerId ∈ matchingIds held (some sinceEpoch) ↔ ∃ epoch, epochNumber before = some epoch ∧ sinceEpoch ≤ epoch := by
  have stamped : ∃ epoch, (after.metadata.get "merkle_epoch").pyInt = some epoch := by
    rcases kept.stamped with same | stamped
    · rw [same] at grown
      exact absurd grown (Nat.lt_irrefl _)
    · exact stamped
  rcases stamped with ⟨epoch, read⟩
  have present := get_ne_null_of_pyInt read
  have number : epochNumber before = some epoch := by
    rw [epochNumber, ← kept.raw, rawEpoch, getD_eq_get present, read]
  have converted : toInt (after.metadata.get "merkle_epoch") = .ok epoch := by
    simp [toInt, read]
  have included : isMatching held (some sinceEpoch) layerId = decide (sinceEpoch ≤ epoch) := by
    simp [isMatching, found, isIncluded, layerHasEventsSince, present, converted, okAnd, bind, Except.bind, pure,
      Except.pure]
  rw [matchingIds, List.mem_filter, included, decide_eq_true_eq]
  constructor
  · intro both
    exact ⟨epoch, number, both.2⟩
  · intro covered
    rcases covered with ⟨other, same, enough⟩
    rw [number, Option.some.injEq] at same
    exact ⟨listed_of_lookup found, same ▸ enough⟩

theorem seen_epoch (positive : 0 < limit) (listable : Listable env nowText stored none) {requests : Nat}
    {pages : List BulkFindings}
    (read : followCursor env nowText limit none none (List.replicate requests stored) = .ok (pages, true))
    {layerId : String} (found : stored.entries.lookup layerId = some layer) {epoch : Int}
    (present : layer.metadata.has "merkle_epoch" = true) (number : epochNumber layer = some epoch) :
    epoch ∈ seenEpochs pages := by
  have returned : layerId ∈ pages.flatMap pageIds := by
    rw [poll_ids positive listable read, matchingIds, List.mem_filter]
    refine ⟨listed_of_lookup found, ?_⟩
    rw [isMatching, found]
    rfl
  rcases List.mem_flatMap.mp returned with ⟨page, paged, member⟩
  rcases List.mem_map.mp member with ⟨entry, listed, rfl⟩
  rcases followCursor_resolves read page paged entry listed with ⟨held, same, resolving⟩
  rw [found, Option.some.injEq] at same
  subst same
  rcases bind_ok_iff.mp resolving with ⟨_, _, resolving⟩
  rcases bind_ok_iff.mp resolving with ⟨_, _, resolving⟩
  rcases bind_ok_iff.mp resolving with ⟨field, stated, resolving⟩
  have raw : rawEpoch layer = layer.metadata.get "merkle_epoch" := by
    rcases (Dict.has_iff_lookup _ _).mp present with ⟨value, held⟩
    rw [rawEpoch, Dict.getD, Dict.get, held]
    rfl
  rw [epochNumber, raw] at number
  have shown : field = some epoch := by
    unfold epochField at stated
    split at stated
    · next absent =>
      cases value : layer.metadata.get "merkle_epoch" with
      | null =>
        rw [value] at number
        cases number
      | float x =>
        rw [value, Json.norm, Json.normFloat] at absent
        cases whole : x.integral with
        | none =>
          rw [whole] at absent
          cases absent
        | some m =>
          rw [whole] at absent
          cases absent
      | _ =>
        rw [value] at absent
        simp [Json.norm] at absent
    · next m same =>
      rw [pyInt_of_norm same, Option.some.injEq] at number
      cases stated
      rw [number]
    · cases stated
  have own : entry.merkleEpoch = some epoch := by
    rw [← shown]
    exact (congrArg LayerFindings.merkleEpoch (Except.ok.inj resolving)).symm
  refine List.mem_flatMap.mpr ⟨page, paged, List.mem_filterMap.mpr ⟨entry, listed, own⟩⟩

theorem hasEpoch_iff {largest : Int}
    (bounded : ∀ epoch, layer.metadata.has "merkle_epoch" = true → epochNumber layer = some epoch → epoch ≤ largest) :
    HasEpoch largest layer ↔ ∃ epoch, epochNumber layer = some epoch ∧ largest ≤ epoch := by
  cases present : layer.metadata.has "merkle_epoch" with
  | false =>
    have zero : epochNumber layer = some 0 := by
      have absent : layer.metadata.lookup "merkle_epoch" = none := by
        simpa [Dict.has] using present
      rw [epochNumber, rawEpoch, Dict.getD, absent]
      rfl
    simp [HasEpoch, present, zero]
  | true =>
    rw [HasEpoch, present]
    constructor
    · intro either
      rcases either with ⟨_, number⟩ | ⟨absent, _⟩
      · exact ⟨largest, number, Int.le_refl _⟩
      · cases absent
    · intro covered
      rcases covered with ⟨epoch, number, enough⟩
      have same := Int.le_antisymm (bounded epoch present number) enough
      exact Or.inl ⟨rfl, same ▸ number⟩

/-- A poll from the largest epoch seen returns every layer that gained events exactly where each of them has that
    epoch. -/
theorem poll_returns_iff (env : Env) (nowText : String) (limit requests : Nat) (stored : Snapshot) (calls : List Call)
    (pages : List BulkFindings) (largest : Int) (positive : 0 < limit) (listable : Listable env nowText stored none)
    (read : followCursor env nowText limit none none (List.replicate requests stored) = .ok (pages, true))
    (greatest : IsGreatest {epoch | epoch ∈ seenEpochs pages} largest) (writes : ∀ call ∈ calls, isWrite call = true)
    (pollable : Listable env nowText (run (callStep env) stored calls) (some largest)) :
    ∃ polled, followCursor env nowText limit (some largest) none
        (List.replicate ((run (callStep env) stored calls).listLayerIds.length + 1) (run (callStep env) stored calls)) =
          .ok (polled, true) ∧
      ((∀ layerId, Gained stored (run (callStep env) stored calls) layerId → layerId ∈ polled.flatMap pageIds) ↔
        ∀ layerId before, Gained stored (run (callStep env) stored calls) layerId →
          stored.entries.lookup layerId = some before → HasEpoch largest before) := by
  rcases exists_poll positive pollable with ⟨polled, followed⟩
  refine ⟨polled, followed, ?_⟩
  have each : ∀ layerId before, Gained stored (run (callStep env) stored calls) layerId →
      stored.entries.lookup layerId = some before →
        (layerId ∈ polled.flatMap pageIds ↔ HasEpoch largest before) := by
    intro layerId before gained found
    rcases gained with ⟨held, after, same, present, grown⟩
    rw [found, Option.some.injEq] at same
    subst same
    rcases run_kept writes stored layerId after present with ⟨other, same, kept⟩
    rw [found, Option.some.injEq] at same
    subst same
    rw [poll_ids positive pollable followed, matching_gained kept present grown, hasEpoch_iff]
    intro epoch stamped number
    exact greatest.2 (seen_epoch positive listable read found stamped number)
  constructor
  · intro all layerId before gained found
    exact (each layerId before gained found).mp (all layerId gained)
  · intro all layerId gained
    rcases gained with ⟨before, after, found, present, grown⟩
    have gained : Gained stored (run (callStep env) stored calls) layerId := ⟨before, after, found, present, grown⟩
    exact (each layerId before gained found).mpr (all layerId before gained found)

end Delta

section Samples

def laterEpoch : Layer := run (step clockEnv) (shellOf [("merkle_epoch", .int 1)])
  [.submitBatch late "beta" ⟨"scan-1", morning, ["FIND-1", "FIND-2"].map fun findingRef =>
    Dict.ofList [("finding_ref", .str findingRef), ("recorded_at", .str morning), ("disposition", .obj []),
      ("source", .obj [("ref", .str "scan-1"), ("type", .str "scan")])], []⟩ scannerAccount]

def evenShelf : Snapshot := ⟨[("acme", oneClaim), ("beta", shellOf [("merkle_epoch", .int 0)])], by decide⟩

def unevenShelf : Snapshot := ⟨[("acme", oneClaim), ("beta", laterEpoch)], by decide⟩

def betweenPolls : List Call := [countersign "keep_open" noon]

def eventCount (stored : Snapshot) (layerId : String) : Nat :=
  (stored.entries.lookup layerId).elim 0 fun layer => layer.events.length

theorem gained_of_count {held : Snapshot} {layerId : String} (listed : (stored.entries.lookup layerId).isSome = true)
    (grown : eventCount stored layerId < eventCount held layerId) : Gained stored held layerId := by
  rcases Option.isSome_iff_exists.mp listed with ⟨before, found⟩
  unfold eventCount at grown
  rw [found] at grown
  cases after : held.entries.lookup layerId with
  | none =>
    rw [after] at grown
    cases grown
  | some layer =>
    rw [after] at grown
    exact ⟨before, layer, found, after, grown⟩

theorem poll_returns_even : ∃ pages polled,
    followCursor clockEnv evening 10 none none (List.replicate 1 evenShelf) = .ok (pages, true) ∧
      IsGreatest {epoch | epoch ∈ seenEpochs pages} 0 ∧
      followCursor clockEnv evening 10 (some 0) none
        (List.replicate ((run (callStep clockEnv) evenShelf betweenPolls).listLayerIds.length + 1)
          (run (callStep clockEnv) evenShelf betweenPolls)) = .ok (polled, true) ∧
      Gained evenShelf (run (callStep clockEnv) evenShelf betweenPolls) "acme" ∧ "acme" ∈ polled.flatMap pageIds := by
  have first : okAnd (followCursor clockEnv evening 10 none none (List.replicate 1 evenShelf))
      (fun answer => answer.2 && decide (seenEpochs answer.1 = [0])) = true := by
    decide +kernel
  rcases okAnd_iff.mp first with ⟨⟨pages, finished⟩, read, seen⟩
  rw [Bool.and_eq_true, decide_eq_true_eq] at seen
  rcases seen with ⟨rfl, seen⟩
  have greatest : IsGreatest {epoch | epoch ∈ seenEpochs pages} (0 : Int) := by
    simp only at seen
    rw [seen]
    exact ⟨List.mem_singleton_self _, fun epoch member => (List.mem_singleton.mp member).le⟩
  rcases poll_returns_iff clockEnv evening 10 1 evenShelf betweenPolls pages 0 (by decide)
    (listable_of_all (by decide +kernel)) read greatest (by decide) (listable_of_all (by decide +kernel)) with
    ⟨polled, followed, exactly⟩
  have gained : Gained evenShelf (run (callStep clockEnv) evenShelf betweenPolls) "acme" :=
    gained_of_count (by decide +kernel) (by decide +kernel)
  refine ⟨pages, polled, read, greatest, followed, gained, exactly.mpr ?_ "acme" gained⟩
  intro layerId before _ found
  have either : before ∈ evenShelf.entries.map Prod.snd := by
    rcases List.lookup_eq_some_iff.mp found with ⟨left, right, split, _⟩
    rw [split]
    simp
  simp only [evenShelf, List.map_cons, List.map_nil, List.mem_cons, List.not_mem_nil, or_false] at either
  rcases either with rfl | rfl
  · exact Or.inr (by decide +kernel)
  · exact Or.inl (by decide +kernel)

/-- A layer with a smaller epoch than another gains an event, and the poll from the largest epoch passes it by. -/
theorem poll_misses_uneven : ∃ pages polled,
    followCursor clockEnv evening 10 none none (List.replicate 1 unevenShelf) = .ok (pages, true) ∧
      IsGreatest {epoch | epoch ∈ seenEpochs pages} 1 ∧
      Gained unevenShelf (run (callStep clockEnv) unevenShelf betweenPolls) "acme" ∧
      followCursor clockEnv evening 10 (some 1) none
        (List.replicate 1 (run (callStep clockEnv) unevenShelf betweenPolls)) = .ok (polled, true) ∧
      polled.flatMap pageIds = ["beta"] := by
  have first : okAnd (followCursor clockEnv evening 10 none none (List.replicate 1 unevenShelf))
      (fun answer => answer.2 && decide (seenEpochs answer.1 = [1])) = true := by
    decide +kernel
  have second : okAnd (followCursor clockEnv evening 10 (some 1) none
      (List.replicate 1 (run (callStep clockEnv) unevenShelf betweenPolls)))
      (fun answer => answer.2 && decide (answer.1.flatMap pageIds = ["beta"])) = true := by
    decide +kernel
  rcases okAnd_iff.mp first with ⟨⟨pages, finished⟩, read, seen⟩
  rcases okAnd_iff.mp second with ⟨⟨polled, ended⟩, followed, ids⟩
  rw [Bool.and_eq_true, decide_eq_true_eq] at seen ids
  rcases seen with ⟨rfl, seen⟩
  rcases ids with ⟨rfl, ids⟩
  refine ⟨pages, polled, read, ?_, gained_of_count (by decide +kernel) (by decide +kernel), followed, ids⟩
  simp only at seen
  rw [seen]
  exact ⟨List.mem_singleton_self _, fun epoch member => (List.mem_singleton.mp member).le⟩

end Samples

end LedgerProof
