import TraustLedger.Pages
import TraustLedger.Library.Pagination
import TraustLedger.Proofs.FingerprintParts
import TraustLedger.Proofs.ReferenceEnv

namespace LedgerProof

open Hashing Python Runs Pagination LedgerModel

def textBefore (left right : String) : Prop := Dict.precedes (chars left) (chars right) = true

instance (left right : String) : Decidable (textBefore left right) :=
  inferInstanceAs (Decidable (_ = true))

instance : DecidableRel textBefore := fun left right => inferInstanceAs (Decidable (textBefore left right))

instance : IsTrans String textBefore := ⟨fun _ _ _ => Dict.precedes_trans⟩

instance : Std.Irrefl textBefore := ⟨fun text loop => by
  rw [textBefore, Dict.precedes_irrefl] at loop
  cases loop⟩

theorem textBefore_or_eq {left right : String} (listed : textOrder left right) : left = right ∨ textBefore left right := by
  by_cases same : left = right
  · exact Or.inl same
  · rcases Dict.precedes_total (fun equal => same (chars_injective equal)) with first | second
    · exact Or.inr first
    · rw [textOrder, second] at listed
      cases listed

variable {env : Env} {nowText : String} {stored : Snapshot} {limit : Nat} {sinceEpoch : Option Int}
  {cursor : Option String}

def isMatching (stored : Snapshot) (sinceEpoch : Option Int) (layerId : String) : Bool :=
  match stored.entries.lookup layerId with
  | some layer => okAnd (isIncluded sinceEpoch layer) id
  | none => false

def matchingIds (stored : Snapshot) (sinceEpoch : Option Int) : List String :=
  stored.listLayerIds.filter (isMatching stored sinceEpoch)

def Listable (env : Env) (nowText : String) (stored : Snapshot) (sinceEpoch : Option Int) : Prop :=
  ∀ entry ∈ stored.entries, layerKey env.backend entry.1 = .ok entry.1 ∧ ∃ answer,
    isIncluded sinceEpoch entry.2 = .ok answer ∧
      (answer = true → ∃ found, layerFindings env nowText entry.1 entry.2 = .ok found)

/-- A cursor that is not listed any more has no layer to be returned before it. -/
def CursorHolds (stored : Snapshot) (sinceEpoch : Option Int) (cursor : Option String) : Prop :=
  ∀ held ∈ cursor, held ∉ stored.listLayerIds → ∀ layerId ∈ matchingIds stored sinceEpoch, textBefore held layerId

/-- Where the layers that are left to return fill the page exactly, no layer that is left is filtered out. -/
def NothingFiltered (stored : Snapshot) (limit : Nat) (sinceEpoch : Option Int) (cursor : Option String) : Prop :=
  ((idsAfter stored.listLayerIds cursor).filter (isMatching stored sinceEpoch)).length = limit →
    (idsAfter stored.listLayerIds cursor).length ≤ limit

def pageIds (page : BulkFindings) : List String := page.layers.map fun layer => layer.layerId

/-- The page has the next layers after the cursor, and promises more exactly where there are more. -/
structure ExactPage (stored : Snapshot) (limit : Nat) (sinceEpoch : Option Int) (cursor : Option String)
    (page : BulkFindings) : Prop where
  read : PageOf textBefore limit (matchingIds stored sinceEpoch) cursor (pageIds page) page.hasMore
  more : page.hasMore = true → limit < (beyond textBefore cursor (matchingIds stored sinceEpoch)).length

section Listing

theorem mem_listLayerIds {layerId : String} :
    layerId ∈ stored.listLayerIds ↔ layerId ∈ stored.entries.map Prod.fst := by
  rw [Snapshot.listLayerIds, List.mem_insertionSort]

theorem listLayerIds_sorted (stored : Snapshot) : stored.listLayerIds.Pairwise textBefore := by
  have ordered : stored.listLayerIds.Pairwise textOrder := List.pairwise_insertionSort textOrder _
  have distinct : stored.listLayerIds.Nodup := by
    rw [Snapshot.listLayerIds]
    exact ((List.perm_insertionSort _ _).nodup_iff).mpr stored.distinct
  refine (ordered.and distinct).imp ?_
  intro left right both
  exact (textBefore_or_eq both.1).resolve_left both.2

theorem matchingIds_sorted (stored : Snapshot) (sinceEpoch : Option Int) :
    (matchingIds stored sinceEpoch).Pairwise textBefore :=
  (listLayerIds_sorted stored).sublist List.filter_sublist

theorem lookup_of_stored (stored : Snapshot) {entry : String × Layer} (member : entry ∈ stored.entries) :
    stored.entries.lookup entry.1 = some entry.2 := by
  have held : (stored.entries.lookup entry.1).isSome = true := by
    rw [List.lookup_isSome_iff]
    exact ⟨entry, member, by simp⟩
  rcases Option.isSome_iff_exists.mp held with ⟨layer, held⟩
  rcases List.lookup_eq_some_iff.mp held with ⟨before, after, split, -⟩
  have also : (entry.1, layer) ∈ stored.entries := by
    rw [split]
    simp
  have same := List.inj_on_of_nodup_map stored.distinct also member rfl
  rw [held, ← same]

theorem exists_listed {layerId : String} (listed : layerId ∈ stored.listLayerIds) :
    ∃ layer, (layerId, layer) ∈ stored.entries ∧ stored.entries.lookup layerId = some layer := by
  rw [mem_listLayerIds] at listed
  rcases List.mem_map.mp listed with ⟨entry, member, rfl⟩
  exact ⟨entry.2, member, lookup_of_stored stored member⟩

theorem mem_idsAfter {layerId : String} (member : layerId ∈ idsAfter stored.listLayerIds cursor) :
    layerId ∈ stored.listLayerIds := by
  unfold idsAfter at member
  split at member
  · exact member
  · split at member
    · exact member
    · split at member
      · exact List.mem_of_mem_drop member
      · exact member

end Listing

section Scanning

theorem layerFindings_layerId {layerId : String} {layer : Layer} {entry : LayerFindings}
    (resolving : layerFindings env nowText layerId layer = .ok entry) : entry.layerId = layerId := by
  rcases bind_ok_iff.mp resolving with ⟨_, _, resolving⟩
  rcases bind_ok_iff.mp resolving with ⟨_, _, resolving⟩
  rcases bind_ok_iff.mp resolving with ⟨_, _, resolving⟩
  cases resolving
  rfl

theorem scanLayers_ok (limit : Nat) (listable : Listable env nowText stored sinceEpoch) {layerIds : List String}
    (listed : ∀ layerId ∈ layerIds, layerId ∈ stored.listLayerIds) (scanned : Nat) :
    ∃ layers, scanLayers env nowText stored limit sinceEpoch scanned layerIds = .ok layers ∧
      layers.map (fun layer => layer.layerId) =
        (layerIds.filter (isMatching stored sinceEpoch)).take (limit - scanned) := by
  induction layerIds generalizing scanned with
  | nil => exact ⟨[], rfl, by simp⟩
  | cons layerId layerIds ih =>
    rw [List.forall_mem_cons] at listed
    rw [scanLayers]
    split
    · next full => exact ⟨[], rfl, by rw [Nat.sub_eq_zero_of_le full, List.take_zero, List.map_nil]⟩
    · next room =>
      rcases exists_listed listed.1 with ⟨layer, member, found⟩
      rcases listable _ member with ⟨named, answer, included, resolved⟩
      have loaded : stored.load env.backend layerId = .ok layer := by
        simp [Snapshot.load, named, found, bind, Except.bind, pure, Except.pure]
      have answered : isMatching stored sinceEpoch layerId = answer := by
        simp [isMatching, found, included, okAnd]
      simp only [loaded, included, bind, Except.bind]
      cases answer with
      | false =>
        rw [List.filter_cons_of_neg (by simp [answered])]
        exact ih listed.2 scanned
      | true =>
        rcases resolved rfl with ⟨entry, resolving⟩
        rcases ih listed.2 (scanned + 1) with ⟨layers, scanning, ids⟩
        have own := layerFindings_layerId resolving
        refine ⟨entry :: layers, by simp [resolving, scanning, pure, Except.pure], ?_⟩
        have room' : limit - scanned = limit - (scanned + 1) + 1 := by omega
        rw [List.filter_cons_of_pos answered, room', List.take_succ_cons, List.map_cons, own, ids]

end Scanning

section Pages

theorem matching_beyond (cursor : Option String) :
    (beyond textBefore cursor stored.listLayerIds).filter (isMatching stored sinceEpoch) =
      beyond textBefore cursor (matchingIds stored sinceEpoch) := by
  rw [beyond, beyond, matchingIds, List.filter_filter, List.filter_filter]
  refine List.filter_congr ?_
  intro layerId _
  exact Bool.and_comm _ _

theorem listed_ne_empty (listable : Listable env nowText stored sinceEpoch) {layerId : String}
    (listed : layerId ∈ stored.listLayerIds) : layerId ≠ "" := by
  rcases exists_listed listed with ⟨layer, member, _⟩
  rcases bind_ok_iff.mp (listable _ member).1 with ⟨_, named, _⟩
  exact require_ok_iff.mp named

theorem textBefore_empty {text : String} (filled : text ≠ "") : textBefore "" text := by
  have least : textOrder "" text := by
    rw [textOrder]
    cases chars text <;> rfl
  rcases textBefore_or_eq least with same | first
  · exact absurd same.symm filled
  · exact first

theorem idsAfter_matching (listable : Listable env nowText stored sinceEpoch)
    (holds : CursorHolds stored sinceEpoch cursor) :
    (idsAfter stored.listLayerIds cursor).filter (isMatching stored sinceEpoch) =
      beyond textBefore cursor (matchingIds stored sinceEpoch) := by
  have all : (∀ held ∈ cursor, ∀ layerId ∈ matchingIds stored sinceEpoch, textBefore held layerId) →
      beyond textBefore cursor (matchingIds stored sinceEpoch) = matchingIds stored sinceEpoch := by
    intro after
    rw [beyond, List.filter_eq_self]
    intro layerId member
    cases cursor with
    | none => rfl
    | some held => simpa using after held rfl layerId member
  cases cursor with
  | none =>
    rw [beyond_none]
    rfl
  | some held =>
    rw [idsAfter]
    split
    · next empty =>
      rw [all, matchingIds]
      intro other same layerId member
      rw [Option.mem_some] at same
      rw [← same, empty]
      exact textBefore_empty (listed_ne_empty listable (List.mem_of_mem_filter member))
    · split
      · next known =>
        rw [drop_idxOf (listLayerIds_sorted stored) (List.contains_iff_mem.mp known), matching_beyond]
      · next gone =>
        rw [all, matchingIds]
        intro other same
        rw [Option.mem_some] at same
        rw [← same]
        exact holds held rfl (by simpa using gone)

theorem resolveAllFindings_ok (listable : Listable env nowText stored sinceEpoch) (cursor : Option String)
    (limit : Nat) : ∃ page, resolveAllFindings env nowText stored cursor limit sinceEpoch = .ok page ∧
      pageIds page = ((idsAfter stored.listLayerIds cursor).filter (isMatching stored sinceEpoch)).take limit ∧
      (page.hasMore = true ↔ (pageIds page).length = limit ∧ limit < (idsAfter stored.listLayerIds cursor).length) ∧
      page.nextCursor = if page.hasMore then (pageIds page).getLast? else none := by
  have listed : ∀ layerId ∈ idsAfter stored.listLayerIds cursor, layerId ∈ stored.listLayerIds :=
    fun _ member => mem_idsAfter member
  rcases scanLayers_ok limit listable listed 0 with ⟨layers, scanning, ids⟩
  rw [Nat.sub_zero] at ids
  simp only [resolveAllFindings, scanning, bind, Except.bind, pure, Except.pure]
  refine ⟨_, rfl, ids, ?_, ?_⟩
  · simp only [pageIds, List.length_map, Bool.and_eq_true, beq_iff_eq, bne_iff_ne]
    refine and_congr_right ?_
    intro full
    rw [full, Ne, List.drop_eq_nil_iff, Nat.not_le]
  · simp only [pageIds, List.getLast?_map]

theorem pageOf_ok (limit : Nat) (listable : Listable env nowText stored sinceEpoch)
    (holds : CursorHolds stored sinceEpoch cursor) :
    ∃ page, resolveAllFindings env nowText stored cursor limit sinceEpoch = .ok page ∧
      PageOf textBefore limit (matchingIds stored sinceEpoch) cursor (pageIds page) page.hasMore ∧
      page.nextCursor = if page.hasMore then (pageIds page).getLast? else none := by
  rcases resolveAllFindings_ok listable cursor limit with ⟨page, resolved, ids, more, next⟩
  rw [idsAfter_matching listable holds] at ids
  refine ⟨page, resolved, ⟨ids, fun promised => (more.mp promised).1, ?_⟩, next⟩
  intro last
  by_contra longer
  rw [Nat.not_le] at longer
  have full : (pageIds page).length = limit := by
    rw [ids, List.length_take]
    omega
  have within : (beyond textBefore cursor (matchingIds stored sinceEpoch)).length ≤
      (idsAfter stored.listLayerIds cursor).length := by
    rw [← idsAfter_matching listable holds]
    exact List.length_filter_le _ _
  have promised := more.mpr ⟨full, by omega⟩
  rw [last] at promised
  cases promised

theorem exactPage_iff (positive : 0 < limit) (listable : Listable env nowText stored sinceEpoch) :
    (∃ page, resolveAllFindings env nowText stored cursor limit sinceEpoch = .ok page ∧
      ExactPage stored limit sinceEpoch cursor page) ↔
      CursorHolds stored sinceEpoch cursor ∧ NothingFiltered stored limit sinceEpoch cursor := by
  rcases resolveAllFindings_ok listable cursor limit with ⟨page, resolved, ids, more, _⟩
  constructor
  · intro given
    rcases given with ⟨other, same, exactPage⟩
    rw [resolved, Except.ok.injEq] at same
    subst same
    have holds : CursorHolds stored sinceEpoch cursor := by
      intro held given gone layerId member
      by_cases empty : held = ""
      · rw [empty]
        exact textBefore_empty (listed_ne_empty listable (List.mem_of_mem_filter member))
      · have restarted : idsAfter stored.listLayerIds cursor = stored.listLayerIds := by
          rw [Option.mem_def.mp given, idsAfter, if_neg empty, if_neg (by simpa using gone)]
        rw [restarted, ← matchingIds] at ids
        cases first : matchingIds stored sinceEpoch with
        | nil =>
          rw [first] at member
          cases member
        | cons least others =>
          have sorted := matchingIds_sorted stored sinceEpoch
          rw [first, List.pairwise_cons] at sorted
          have onPage : least ∈ pageIds page := by
            rw [ids, first, ← Nat.succ_pred_eq_of_pos positive, List.take_succ_cons]
            exact List.mem_cons_self
          have after := (mem_beyond.mp (exactPage.read.mem_beyond onPage)).2 held given
          rw [first] at member
          rcases List.mem_cons.mp member with same | later
          · rwa [same]
          · exact IsTrans.trans _ _ _ after (sorted.1 layerId later)
    refine ⟨holds, ?_⟩
    intro exactly
    by_contra longer
    have full : (pageIds page).length = limit := by
      rw [ids, List.length_take, exactly, Nat.min_self]
    have further := exactPage.more (more.mpr ⟨full, by omega⟩)
    rw [← idsAfter_matching listable holds, exactly] at further
    exact absurd further (Nat.lt_irrefl _)
  · intro condition
    rcases pageOf_ok limit listable condition.1 with ⟨other, same, read, _⟩
    rw [resolved, Except.ok.injEq] at same
    subst same
    refine ⟨page, resolved, read, ?_⟩
    intro promised
    rcases more.mp promised with ⟨full, longer⟩
    rw [← idsAfter_matching listable condition.1]
    have enough : limit ≤ ((idsAfter stored.listLayerIds cursor).filter (isMatching stored sinceEpoch)).length := by
      rw [← full, ids]
      exact List.length_take_le' _ _
    refine Nat.lt_of_le_of_ne enough ?_
    intro exactly
    exact absurd (condition.2 exactly.symm) (Nat.not_le.mpr longer)

end Pages

section Following

def PagesAlong (env : Env) (nowText : String) (limit : Nat) (sinceEpoch : Option Int)
    (allowed : Snapshot → Option String → Prop) : Option String → List Snapshot → Prop
  | _, [] => True
  | cursor, stored :: later => allowed stored cursor ∧ ∀ page next,
      resolveAllFindings env nowText stored cursor limit sinceEpoch = .ok page → page.nextCursor = some next →
        PagesAlong env nowText limit sinceEpoch allowed (some next) later

theorem PagesAlong.mono {allowed stronger : Snapshot → Option String → Prop}
    (weaker : ∀ stored cursor, stronger stored cursor → allowed stored cursor) {shots : List Snapshot}
    (along : PagesAlong env nowText limit sinceEpoch stronger cursor shots) :
    PagesAlong env nowText limit sinceEpoch allowed cursor shots := by
  induction shots generalizing cursor with
  | nil => trivial
  | cons stored later ih =>
    refine ⟨weaker stored cursor along.1, ?_⟩
    intro page next resolved following
    exact ih (along.2 page next resolved following)

theorem followCursor_reads (positive : 0 < limit) {shots : List Snapshot}
    (along : PagesAlong env nowText limit sinceEpoch
      (fun stored cursor => Listable env nowText stored sinceEpoch ∧ CursorHolds stored sinceEpoch cursor) cursor shots) :
    ∃ pages finished, followCursor env nowText limit sinceEpoch cursor shots = .ok (pages, finished) ∧
      PageRun textBefore limit cursor (shots.map fun stored => matchingIds stored sinceEpoch) (pages.flatMap pageIds)
        finished := by
  induction shots generalizing cursor with
  | nil => exact ⟨[], false, rfl, .unfinished⟩
  | cons stored later ih =>
    rcases along with ⟨⟨listable, holds⟩, rest⟩
    rcases pageOf_ok limit listable holds with ⟨page, resolved, read, next⟩
    cases promised : page.hasMore with
    | false =>
      rw [promised] at read next
      refine ⟨[page], true, ?_, ?_⟩
      · simp only [followCursor, resolved, bind, Except.bind, next, Bool.false_eq_true, if_false, pure, Except.pure]
      · simpa using PageRun.last read
    | true =>
      rw [promised, if_pos rfl] at next
      rw [promised] at read
      have filled : pageIds page ≠ [] := by
        intro none
        have full := read.full rfl
        rw [none, List.length_nil] at full
        omega
      rw [List.getLast?_eq_some_getLast filled] at next
      rcases ih (rest page _ resolved next) with ⟨pages, finished, followed, reads⟩
      refine ⟨page :: pages, finished, ?_, ?_⟩
      · simp only [followCursor, resolved, bind, Except.bind, next, followed, pure, Except.pure]
      · rw [List.flatMap_cons]
        exact .more read (List.getLast?_eq_some_getLast filled) reads

theorem followCursor_exact (positive : 0 < limit) {shots : List Snapshot} {pages : List BulkFindings} {finished : Bool}
    (along : PagesAlong env nowText limit sinceEpoch (fun stored cursor => Listable env nowText stored sinceEpoch ∧
      CursorHolds stored sinceEpoch cursor ∧ NothingFiltered stored limit sinceEpoch cursor) cursor shots)
    (followed : followCursor env nowText limit sinceEpoch cursor shots = .ok (pages, finished)) :
    List.Forall₂ (fun stored page => ∃ cursor, ExactPage stored limit sinceEpoch cursor page)
      (shots.take pages.length) pages := by
  induction shots generalizing cursor pages finished with
  | nil =>
    cases followed
    exact .nil
  | cons stored later ih =>
    rcases along with ⟨⟨listable, condition⟩, rest⟩
    rcases (exactPage_iff positive listable).mpr condition with ⟨page, resolved, exactPage⟩
    simp only [followCursor, resolved, bind, Except.bind] at followed
    cases next : page.nextCursor with
    | none =>
      rw [next] at followed
      cases followed
      exact .cons ⟨cursor, exactPage⟩ .nil
    | some following =>
      simp only [next] at followed
      cases continued : followCursor env nowText limit sinceEpoch (some following) later with
      | error failure =>
        rw [continued] at followed
        cases followed
      | ok answer =>
        rw [continued] at followed
        cases followed
        rw [List.length_cons, List.take_succ_cons]
        exact .cons ⟨cursor, exactPage⟩ (ih (rest page following resolved next) continued)

theorem pagesAlong_unchanged (listable : Listable env nowText stored sinceEpoch)
    (known : ∀ held ∈ cursor, held ∈ stored.listLayerIds) (requests : Nat) :
    PagesAlong env nowText limit sinceEpoch
      (fun stored cursor => Listable env nowText stored sinceEpoch ∧ CursorHolds stored sinceEpoch cursor) cursor
      (List.replicate requests stored) := by
  induction requests generalizing cursor with
  | zero => trivial
  | succ requests ih =>
    rw [List.replicate_succ]
    have holds : CursorHolds stored sinceEpoch cursor := by
      intro held given gone
      exact absurd (known held given) gone
    refine ⟨⟨listable, holds⟩, ?_⟩
    intro page next resolved following
    refine ih ?_
    intro held given
    rw [Option.mem_some] at given
    rcases pageOf_ok limit listable holds with ⟨other, same, read, tail⟩
    rw [resolved, Except.ok.injEq] at same
    rw [← same, following] at tail
    split at tail
    · have onPage := List.mem_of_getLast? tail.symm
      rw [← same] at read
      rw [← given]
      exact List.mem_of_mem_filter (mem_beyond.mp (read.mem_beyond onPage)).1
    · cases tail

theorem pagesAlong_start (limit : Nat) (listable : Listable env nowText stored sinceEpoch) (requests : Nat) :
    PagesAlong env nowText limit sinceEpoch
      (fun stored cursor => Listable env nowText stored sinceEpoch ∧ CursorHolds stored sinceEpoch cursor) none
      (List.replicate requests stored) :=
  pagesAlong_unchanged listable (by simp) requests

/-- What following the cursor comes to: the layers that match throughout once each, in the order of their ids, pages
    that promise no empty page, and an end. -/
structure ExactRun (limit : Nat) (sinceEpoch : Option Int) (shots : List Snapshot) (pages : List BulkFindings)
    (finished : Bool) : Prop where
  increasing : (pages.flatMap pageIds).Pairwise textBefore
  complete : finished = true → ∀ layerId, (∀ stored ∈ shots, layerId ∈ matchingIds stored sinceEpoch) →
    (pages.flatMap pageIds).count layerId = 1
  sound : ∀ layerId ∈ pages.flatMap pageIds, ∃ stored ∈ shots, layerId ∈ matchingIds stored sinceEpoch
  each : List.Forall₂ (fun stored page => ∃ cursor, ExactPage stored limit sinceEpoch cursor page)
    (shots.take pages.length) pages
  terminates : ∀ known : List String, (∀ stored ∈ shots, ∀ layerId ∈ stored.listLayerIds, layerId ∈ known) →
    known.length < shots.length → finished = true

/-- Pagination is exact page by page exactly where each cursor holds and no full last page leaves a filtered layer
    behind, and in a run of such requests it is exact as a whole. -/
theorem pages_exact_iff (env : Env) (nowText : String) (limit : Nat) (sinceEpoch : Option Int) (positive : 0 < limit) :
    (∀ stored cursor, Listable env nowText stored sinceEpoch →
      ((∃ page, resolveAllFindings env nowText stored cursor limit sinceEpoch = .ok page ∧
        ExactPage stored limit sinceEpoch cursor page) ↔
          CursorHolds stored sinceEpoch cursor ∧ NothingFiltered stored limit sinceEpoch cursor)) ∧
      ∀ shots, PagesAlong env nowText limit sinceEpoch (fun stored cursor => Listable env nowText stored sinceEpoch ∧
          CursorHolds stored sinceEpoch cursor ∧ NothingFiltered stored limit sinceEpoch cursor) none shots →
        ∃ pages finished, followCursor env nowText limit sinceEpoch none shots = .ok (pages, finished) ∧
          ExactRun limit sinceEpoch shots pages finished := by
  refine ⟨fun stored cursor listable => exactPage_iff positive listable, ?_⟩
  intro shots along
  have weaker : PagesAlong env nowText limit sinceEpoch (fun stored cursor => Listable env nowText stored sinceEpoch ∧
      CursorHolds stored sinceEpoch cursor) none shots :=
    along.mono fun stored cursor condition => ⟨condition.1, condition.2.1⟩
  rcases followCursor_reads positive weaker with ⟨pages, finished, followed, reads⟩
  have sorted : ∀ members ∈ shots.map fun stored => matchingIds stored sinceEpoch, members.Pairwise textBefore := by
    intro members listed
    rcases List.mem_map.mp listed with ⟨stored, _, rfl⟩
    exact matchingIds_sorted stored sinceEpoch
  have increasing := (reads.increasing sorted).1
  refine ⟨pages, finished, followed, increasing, ?_, ?_, followCursor_exact positive along followed, ?_⟩
  · intro reached layerId throughout
    have member : layerId ∈ pages.flatMap pageIds := by
      refine reads.complete sorted reached ?_ (by simp)
      intro members listed
      rcases List.mem_map.mp listed with ⟨stored, shot, rfl⟩
      exact throughout stored shot
    have distinct : (pages.flatMap pageIds).Nodup := by
      refine increasing.imp ?_
      intro left right first same
      rw [same] at first
      exact irrefl right first
    exact List.count_eq_one_of_mem distinct member
  · intro layerId member
    rcases reads.within member with ⟨members, listed, held⟩
    rcases List.mem_map.mp listed with ⟨stored, shot, rfl⟩
    exact ⟨stored, shot, held⟩
  · intro known among enough
    refine reads.finishes known ?_ (by simpa using enough)
    intro members listed layerId member
    rcases List.mem_map.mp listed with ⟨stored, shot, rfl⟩
    exact among stored shot layerId (List.mem_of_mem_filter member)

end Following

section Samples

theorem nothingFiltered_all (stored : Snapshot) (limit : Nat) (cursor : Option String) :
    NothingFiltered stored limit none cursor := by
  intro exactly
  have all : (idsAfter stored.listLayerIds cursor).filter (isMatching stored none) =
      idsAfter stored.listLayerIds cursor := by
    rw [List.filter_eq_self]
    intro layerId member
    rcases exists_listed (mem_idsAfter member) with ⟨layer, _, found⟩
    rw [isMatching, found]
    rfl
  rw [all] at exactly
  exact Nat.le_of_eq exactly

theorem listable_of_all (read : stored.entries.all (fun entry => okAnd (layerKey env.backend entry.1) (· == entry.1) &&
    okAnd (isIncluded sinceEpoch entry.2) fun answer => !answer || (layerFindings env nowText entry.1 entry.2).isOk) =
      true) : Listable env nowText stored sinceEpoch := by
  intro entry member
  have both := List.all_eq_true.mp read entry member
  rw [Bool.and_eq_true, okAnd_iff, okAnd_iff] at both
  rcases both with ⟨⟨key, named, same⟩, answer, included, resolved⟩
  refine ⟨by rw [named, eq_of_beq same], answer, included, ?_⟩
  intro yes
  rw [yes] at resolved
  exact exists_of_isOk resolved

def threeLayers : Snapshot := ⟨[("c", shellOf []), ("a", shellOf []), ("b", shellOf [])], by decide⟩

def withoutSecond : Snapshot := ⟨[("a", shellOf []), ("c", shellOf [])], by decide⟩

def unstampedFirst : Snapshot := ⟨[("a", shellOf []), ("b", shellOf [("merkle_epoch", .int 0)])], by decide⟩

theorem pages_exact_three : ∃ pages finished,
    followCursor referenceEnv sampleInstant 2 none none [threeLayers, threeLayers] = .ok (pages, finished) ∧
      ExactRun 2 none [threeLayers, threeLayers] pages finished := by
  have listable : Listable referenceEnv sampleInstant threeLayers none := listable_of_all (by decide +kernel)
  refine (pages_exact_iff referenceEnv sampleInstant 2 none (by decide)).2 [threeLayers, threeLayers] ?_
  refine (pagesAlong_start 2 listable 2).mono ?_
  intro stored cursor condition
  exact ⟨condition.1, condition.2, nothingFiltered_all stored 2 cursor⟩

/-- The layer named by the cursor is removed, and the listing starts again; and a page promises more where only filtered
    layers are left. -/
theorem removed_cursor_repeats :
    (∃ pages, followCursor referenceEnv sampleInstant 1 none none
        [threeLayers, threeLayers, withoutSecond, withoutSecond] = .ok (pages, true) ∧
      pages.flatMap pageIds = ["a", "b", "a", "c"] ∧
      (∀ stored ∈ [threeLayers, threeLayers, withoutSecond, withoutSecond], "a" ∈ matchingIds stored none) ∧
      ¬ ExactRun 1 none [threeLayers, threeLayers, withoutSecond, withoutSecond] pages true) ∧
    ∃ page further, resolveAllFindings referenceEnv sampleInstant unstampedFirst none 1 (some 1) = .ok page ∧
      page.hasMore = true ∧ page.nextCursor = some "a" ∧
      resolveAllFindings referenceEnv sampleInstant unstampedFirst (some "a") 1 (some 1) = .ok further ∧
      pageIds further = [] := by
  constructor
  · have run : okAnd (followCursor referenceEnv sampleInstant 1 none none
        [threeLayers, threeLayers, withoutSecond, withoutSecond])
        (fun answer => answer.2 && decide (answer.1.flatMap pageIds = ["a", "b", "a", "c"])) = true := by
      decide +kernel
    rcases okAnd_iff.mp run with ⟨⟨pages, finished⟩, followed, read⟩
    rw [Bool.and_eq_true, decide_eq_true_eq] at read
    rcases read with ⟨reached, ids⟩
    simp only at reached ids
    rw [reached] at followed
    have throughout : ∀ stored ∈ [threeLayers, threeLayers, withoutSecond, withoutSecond],
        "a" ∈ matchingIds stored none := by
      simp only [List.forall_mem_cons]
      decide +kernel
    refine ⟨pages, followed, ids, throughout, ?_⟩
    intro exactRun
    have once := exactRun.complete rfl "a" throughout
    rw [ids] at once
    revert once
    decide
  · have first : okAnd (resolveAllFindings referenceEnv sampleInstant unstampedFirst none 1 (some 1))
        (fun page => page.hasMore && decide (page.nextCursor = some "a")) = true := by
      decide +kernel
    have second : okAnd (resolveAllFindings referenceEnv sampleInstant unstampedFirst (some "a") 1 (some 1))
        (fun page => decide (pageIds page = [])) = true := by
      decide +kernel
    rcases okAnd_iff.mp first with ⟨page, resolved, promised⟩
    rcases okAnd_iff.mp second with ⟨further, following, empty⟩
    rw [Bool.and_eq_true, decide_eq_true_eq] at promised
    exact ⟨page, further, resolved, promised.1, promised.2, following, of_decide_eq_true empty⟩

end Samples

end LedgerProof
