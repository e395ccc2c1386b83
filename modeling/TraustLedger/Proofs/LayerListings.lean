import TraustLedger.Queries
import TraustLedger.Proofs.DocumentStore
import TraustLedger.Proofs.LayerFilters
import TraustLedger.Proofs.PagedFindings

namespace LedgerProof

open Hashing Python Runs LedgerModel DocumentStore

variable {env : DbEnv} {tables : Tables} {store : DocumentStore} {updatedAt : String → Int}
  {filters : List Filter} {includeReviews : Bool} {entry : LayerEntry}

def heldColumn (updatedAt : String → Int) (layerId : String) (held : Held) : Column → Option Cell
  | .productRepoId => held.owner.map .text
  | .layerId => some (.text layerId)
  | .merkleEpoch => (optionalInteger ((metadataOf held.document).get "merkle_epoch")).map .integer
  | .updatedAt => some (.time (updatedAt layerId))

def shownItems (filters : List Filter) (held : Held) : List Json :=
  matchingItems (itemFilters filters) (queueOf held.document)

/-- What a listing of the store is to have: each layer that meets every filter on a column, with the items of its queue
    that meet every filter on an item where these are asked for, and then only where there is one. -/
structure Listed (env : DbEnv) (store : DocumentStore) (updatedAt : String → Int) (filters : List Filter)
    (includeReviews : Bool) (entry : LayerEntry) (held : Held) : Prop where
  stored : store entry.layerId = some held
  owner : entry.productRepoId = held.owner
  columns : ∀ f ∈ filters, ∀ column, f.target = .column column →
    env.columnCompare f.op (heldColumn updatedAt entry.layerId held column) f.value = true
  reviews : if wantsReviews filters includeReviews = true then
      entry.needsReview = some (shownItems filters held) ∧ shownItems filters held ≠ []
    else entry.needsReview = none

section Payloads

theorem utf8_length (text : List Char) : text.length ≤ (utf8 text).length := by
  induction text with
  | nil => exact Nat.le_refl 0
  | cons c text ih =>
    rw [utf8, List.flatMap_cons, ← utf8, List.length_append, List.length_cons]
    have one : 0 < (String.utf8EncodeChar c).length := by
      rw [String.length_utf8EncodeChar]
      exact Char.utf8Size_pos c
    omega

theorem queue_payload_short (items : List Json) : 2 < (encodeJson (.arr items)).length ↔ items ≠ [] := by
  cases items with
  | nil => decide
  | cons item items =>
    refine ⟨fun _ => List.cons_ne_nil _ _, fun _ => ?_⟩
    have shape : text true (.arr (item :: items)) = '[' :: (text true item ++ textItems true items) := rfl
    have first : 0 < (text true item).length := by
      apply List.length_pos_of_ne_nil
      intro nothing
      cases atom : isAtom item with
      | true => exact atom_ne_nil atom nothing
      | false =>
        rcases @compound_head true item atom with ⟨c, rest, known, -⟩
        rw [nothing] at known
        cases known
    have last : 0 < (textItems true items).length := by
      apply List.length_pos_of_ne_nil
      cases items <;> simp [textItems]
    have whole := utf8_length (text true (.arr (item :: items)))
    rw [encodeJson, dumps]
    rw [shape, List.length_cons, List.length_append] at whole
    rw [shape]
    omega

end Payloads

section Rows

structure RowOf (store : DocumentStore) (row : LayerRow) (held : Held) (record : LayerRecord) : Prop where
  stored : store row.layerId = some held
  owner : row.productRepoId = held.owner
  values : row.values = record.layerValues
  splits : Splits held.document record

theorem Represents.rowOf (represents : Represents env tables store) {row : LayerRow} (member : row ∈ tables.layers) :
    ∃ held record, RowOf store row held record := by
  have found := layerRow_mem member
  cases known : store row.layerId with
  | none =>
    rw [(represents.missing known).row] at found
    cases found
  | some held =>
    rcases represents.stored known with ⟨-, record, split, stored⟩
    rw [stored.row] at found
    have same := Option.some.inj found
    exact ⟨held, record, known, by rw [← same], by rw [← same], split⟩

theorem Represents.row_mem (represents : Represents env tables store) {layerId : String} {held : Held}
    (known : store layerId = some held) :
    ∃ row ∈ tables.layers, ∃ record, row.layerId = layerId ∧ RowOf store row held record := by
  rcases represents.stored known with ⟨-, record, split, stored⟩
  exact ⟨_, List.mem_of_find?_eq_some stored.row, record, rfl, known, rfl, rfl, split⟩

variable {row : LayerRow} {held : Held} {record : LayerRecord}

theorem RowOf.columnOf (lawful : LawfulDb env) (rowOf : RowOf store row held record) (column : Column) :
    env.columnOf updatedAt row column = heldColumn updatedAt row.layerId held column := by
  cases column with
  | productRepoId => rw [DbEnv.columnOf, heldColumn, rowOf.owner]
  | layerId => rfl
  | merkleEpoch =>
    rw [DbEnv.columnOf, heldColumn, rowOf.values, LayerRecord.layerValues, lawful.roundTrip, rowOf.splits.metadata]
  | updatedAt => rfl

theorem RowOf.rowMatches (lawful : LawfulDb env) (rowOf : RowOf store row held record) :
    env.rowMatches updatedAt filters row = true ↔ ∀ f ∈ filters, ∀ column, f.target = .column column →
      env.columnCompare f.op (heldColumn updatedAt row.layerId held column) f.value = true := by
  rw [DbEnv.rowMatches, List.all_eq_true]
  refine forall₂_congr fun f _ => ?_
  cases f.target with
  | item field => simp
  | column column =>
    simp only [FilterTarget.column.injEq, forall_eq']
    rw [rowOf.columnOf lawful]

theorem RowOf.queue (lawful : LawfulDb env) (rowOf : RowOf store row held record) :
    env.queueItems row.values.needsReviewPayload = .ok ((queueOf held.document).filter Json.isObj) := by
  rw [DbEnv.queueItems, rowOf.values, LayerRecord.layerValues, lawful.roundTrip, rowOf.splits.needsReview]
  rfl

theorem RowOf.long (rowOf : RowOf store row held record) :
    2 < row.values.needsReviewPayload.length ↔ queueOf held.document ≠ [] := by
  rw [rowOf.values, LayerRecord.layerValues, rowOf.splits.needsReview]
  exact queue_payload_short _

def entryFor (filters : List Filter) (wanted : Bool) (row : LayerRow) (held : Held) : Option LayerEntry :=
  if wanted = false then some ⟨row.layerId, row.productRepoId, none⟩
  else if shownItems filters held = [] then none
  else some ⟨row.layerId, row.productRepoId, some (shownItems filters held)⟩

theorem RowOf.entryOf (lawful : LawfulDb env) (rowOf : RowOf store row held record) (filters : List Filter)
    (wanted : Bool) : env.entryOf filters wanted row = .ok (entryFor filters wanted row held) := by
  unfold DbEnv.entryOf entryFor
  split_ifs
  · rfl
  · rw [rowOf.queue lawful]
    simp only [bind, Except.bind, pure, Except.pure]
    rw [if_pos (by assumption)]
  · rw [rowOf.queue lawful]
    simp only [bind, Except.bind, pure, Except.pure]
    rw [if_neg (by assumption)]
    rfl

/-- The prefilter on the length of the payload only leaves out rows that have nothing to show. -/
theorem RowOf.listed_iff (lawful : LawfulDb env) (rowOf : RowOf store row held record) :
    (env.rowMatches updatedAt filters row && (!wantsReviews filters includeReviews ||
        decide (2 < row.values.needsReviewPayload.length))) = true ∧
      entryFor filters (wantsReviews filters includeReviews) row held = some entry ↔
    entry.layerId = row.layerId ∧ Listed env store updatedAt filters includeReviews entry held := by
  have shown : shownItems filters held ≠ [] → queueOf held.document ≠ [] := by
    intro some_item nothing
    rw [shownItems, nothing] at some_item
    exact some_item rfl
  rw [Bool.and_eq_true, rowOf.rowMatches lawful, Bool.or_eq_true, decide_eq_true_eq, rowOf.long, entryFor]
  constructor
  · rintro ⟨⟨columns, -⟩, made⟩
    split_ifs at made with unwanted none
    · cases made
      refine ⟨rfl, rowOf.stored, rowOf.owner, columns, ?_⟩
      rw [if_neg (by simp [unwanted])]
    · cases made
      refine ⟨rfl, rowOf.stored, rowOf.owner, columns, ?_⟩
      rw [if_pos (by simpa using unwanted)]
      exact ⟨rfl, none⟩
  · rintro ⟨same, stored, owner, columns, reviews⟩
    rcases entry with ⟨layerId, productRepoId, needsReview⟩
    dsimp only at same owner reviews columns
    subst same
    rw [rowOf.owner, ← owner]
    by_cases wanted : wantsReviews filters includeReviews = true
    · rw [if_pos wanted] at reviews
      refine ⟨⟨columns, .inr (shown reviews.2)⟩, ?_⟩
      rw [if_neg (by simp [wanted]), if_neg reviews.2, reviews.1]
    · rw [if_neg wanted] at reviews
      refine ⟨⟨columns, .inl (by simpa using wanted)⟩, ?_⟩
      rw [if_pos (by simpa using wanted), reviews]

end Rows

section Listings

def rowEntry (store : DocumentStore) (filters : List Filter) (wanted : Bool) (row : LayerRow) : Option LayerEntry :=
  (store row.layerId).bind fun held => entryFor filters wanted row held

theorem entryFor_layerId {wanted : Bool} {row : LayerRow} {held : Held}
    (made : entryFor filters wanted row held = some entry) : entry.layerId = row.layerId := by
  unfold entryFor at made
  split_ifs at made <;> cases made <;> rfl

theorem sorted_rows {rows : List LayerRow} (distinct : (rows.map fun row => row.layerId).Nodup) :
    (rows.insertionSort fun left right => Dict.precedes (chars right.layerId) (chars left.layerId) = false).Pairwise
      fun left right => textBefore left.layerId right.layerId := by
  have total : Std.Total fun left right : LayerRow =>
      Dict.precedes (chars right.layerId) (chars left.layerId) = false :=
    ⟨fun left right => Dict.not_precedes_total (chars left.layerId) (chars right.layerId)⟩
  have trans : IsTrans LayerRow fun left right =>
      Dict.precedes (chars right.layerId) (chars left.layerId) = false := ⟨fun _ _ _ => Dict.not_precedes_trans⟩
  have apart : (rows.insertionSort fun left right => Dict.precedes (chars right.layerId) (chars left.layerId) = false)
      |>.Pairwise fun left right => left.layerId ≠ right.layerId := by
    have moved := (((List.perm_insertionSort (fun left right : LayerRow =>
      Dict.precedes (chars right.layerId) (chars left.layerId) = false) rows).map fun row => row.layerId).nodup_iff).mpr
      distinct
    exact List.pairwise_map.mp moved
  refine ((List.pairwise_insertionSort _ rows).and apart).imp ?_
  intro left right given
  exact (textBefore_or_eq given.1).resolve_left given.2

theorem queryLayers_unbound (unbound : ¬ ∀ f ∈ filters, env.bindsFilter f = true) :
    env.queryLayers updatedAt filters includeReviews tables = .error .overflowError := by
  unfold DbEnv.queryLayers
  rw [require_error_iff.mpr ⟨unbound, rfl⟩]
  rfl

theorem queryLayers_represents (lawful : LawfulDb env) (represents : Represents env tables store)
    (updatedAt : String → Int) (filters : List Filter) (includeReviews : Bool)
    (bound : ∀ f ∈ filters, env.bindsFilter f = true) :
    ∃ entries, env.queryLayers updatedAt filters includeReviews tables = .ok entries ∧
      entries.Pairwise (fun left right => textBefore left.layerId right.layerId) ∧
      ∀ entry, entry ∈ entries ↔ ∃ held, Listed env store updatedAt filters includeReviews entry held := by
  let wanted := wantsReviews filters includeReviews
  let selected := tables.layers.filter fun row =>
    env.rowMatches updatedAt filters row && (!wanted || decide (2 < row.values.needsReviewPayload.length))
  let ordered := selected.insertionSort fun left right =>
    Dict.precedes (chars right.layerId) (chars left.layerId) = false
  have members : ∀ row ∈ ordered, row ∈ tables.layers := by
    intro row member
    exact (List.mem_filter.mp ((List.mem_insertionSort _).mp member)).1
  have mapped : ordered.mapM (env.entryOf filters wanted) = .ok (ordered.map (rowEntry store filters wanted)) := by
    rw [mapM_ok_iff, List.forall₂_map_right_iff, List.forall₂_same]
    intro row member
    rcases represents.rowOf (members row member) with ⟨held, record, rowOf⟩
    rw [rowOf.entryOf lawful, rowEntry, rowOf.stored]
    rfl
  have listing : env.queryLayers updatedAt filters includeReviews tables =
      .ok (ordered.filterMap (rowEntry store filters wanted)) := by
    unfold DbEnv.queryLayers
    refine bind_ok_iff.mpr ⟨(), require_ok_iff.mpr bound, ?_⟩
    refine bind_ok_iff.mpr ⟨_, mapped, ?_⟩
    rw [List.filterMap_map]
    rfl
  refine ⟨_, listing, ?_, ?_⟩
  · have distinct : (selected.map fun row => row.layerId).Nodup :=
      tables.layerKeys.sublist (List.filter_sublist.map _)
    rw [List.pairwise_filterMap]
    refine (sorted_rows distinct).imp ?_
    intro left right before entry made other made'
    rcases Option.bind_eq_some_iff.mp made with ⟨held, -, first⟩
    rcases Option.bind_eq_some_iff.mp made' with ⟨_, -, second⟩
    rw [entryFor_layerId first, entryFor_layerId second]
    exact before
  · intro entry
    rw [List.mem_filterMap]
    constructor
    · rintro ⟨row, member, made⟩
      rcases List.mem_filter.mp ((List.mem_insertionSort _).mp member) with ⟨stored, passes⟩
      rcases represents.rowOf stored with ⟨held, record, rowOf⟩
      rw [rowEntry, rowOf.stored, Option.bind_some] at made
      exact ⟨held, ((rowOf.listed_iff lawful).mp ⟨passes, made⟩).2⟩
    · rintro ⟨held, listed⟩
      rcases represents.row_mem listed.stored with ⟨row, stored, record, same, rowOf⟩
      rcases (rowOf.listed_iff lawful).mpr ⟨same.symm, listed⟩ with ⟨passes, made⟩
      refine ⟨row, (List.mem_insertionSort _).mpr (List.mem_filter.mpr ⟨stored, passes⟩), ?_⟩
      rw [rowEntry, rowOf.stored, Option.bind_some]
      exact made

end Listings

/-- After any calls the database lists the layers the store has by then, as the filters ask, once each and in order;
    it fails where the driver cannot bind one of the values it is asked for, and only there. -/
theorem database_lists_store (env : DbEnv) (lawful : LawfulDb env) (calls : List DbCall) (updatedAt : String → Int)
    (filters : List Filter) (includeReviews : Bool) :
    ((∀ f ∈ filters, env.bindsFilter f = true) →
      ∃ entries, env.queryLayers updatedAt filters includeReviews (env.performAll Tables.empty calls) = .ok entries ∧
        entries.Pairwise (fun left right => textBefore left.layerId right.layerId) ∧
        ∀ entry, entry ∈ entries ↔ ∃ held,
          Listed env (afterAll env DocumentStore.empty calls) updatedAt filters includeReviews entry held) ∧
    ((∃ f ∈ filters, env.bindsFilter f = false) →
      env.queryLayers updatedAt filters includeReviews (env.performAll Tables.empty calls) =
        .error .overflowError) := by
  have represents := performAll_represents lawful represents_empty calls
  refine ⟨queryLayers_represents lawful represents updatedAt filters includeReviews, ?_⟩
  rintro ⟨f, member, unbound⟩
  refine queryLayers_unbound fun bound => ?_
  rw [bound f member] at unbound
  cases unbound

def lateFilter : Filter := ⟨"merkle_epoch", .column .merkleEpoch, .gte, .one (.integer 9223372036854775808)⟩

theorem database_lists_store_scans : LawfulDb plainDb ∧
    (∃ entries, plainDb.queryLayers (fun _ => 0) [statusFilter] false (plainDb.performAll Tables.empty scanCalls) =
        .ok entries ∧
      entries.Pairwise (fun left right => textBefore left.layerId right.layerId) ∧
      ∀ entry, entry ∈ entries ↔ ∃ held,
        Listed plainDb (afterAll plainDb DocumentStore.empty scanCalls) (fun _ => 0) [statusFilter] false entry held) ∧
    plainDb.queryLayers (fun _ => 0) [statusFilter, lateFilter] false (plainDb.performAll Tables.empty scanCalls) =
      .error .overflowError := by
  have bound : ∀ f ∈ [statusFilter], plainDb.bindsFilter f = true := by simp [statusFilter, DbEnv.bindsFilter]
  have unbound : ∃ f ∈ [statusFilter, lateFilter], plainDb.bindsFilter f = false := by
    refine ⟨lateFilter, by simp, ?_⟩
    simp [lateFilter, DbEnv.bindsFilter, DbEnv.binds, plainDb]
  exact ⟨plainDb_lawful,
    (database_lists_store plainDb plainDb_lawful scanCalls (fun _ => 0) [statusFilter] false).1 bound,
    (database_lists_store plainDb plainDb_lawful scanCalls (fun _ => 0) [statusFilter, lateFilter] false).2 unbound⟩

section Files

variable {stored : Snapshot} {parseDatetime : String → Except String Datetime} {raw : List String}

def FileFilter (f : Filter) : Prop :=
  (f.target = .column .layerId ∧ fileSupportedColumnFilters.contains f.key = true ∧
      ((f.op = .eq ∧ ∃ text, f.value = .one (.text text)) ∨
        (f.op = .isIn ∧ ∃ texts : List String, f.value = .many (texts.map .text)))) ∨
    ∃ field, f.target = .item field

theorem fileFilter_of_parsed {text : String} {f : Filter} (parsed : parseFilter parseDatetime text = .ok f)
    (supported : f.key ∉ ["product_repo_id", "merkle_epoch", "updated_at"]) : FileFilter f := by
  rcases parseFilter_ok_iff.mp parsed with ⟨value, definition, -, found, target, allowed, valued⟩
  have member : (f.key, definition) ∈ filterRegistry := by
    rcases List.lookup_eq_some_iff.mp found with ⟨before, after, split, -⟩
    rw [split]
    simp
  simp only [List.mem_cons, List.not_mem_nil, or_false, not_or] at supported
  simp only [filterRegistry, List.mem_cons, Prod.mk.injEq, List.not_mem_nil, or_false] at member
  rcases member with ⟨key, rfl⟩ | ⟨key, rfl⟩ | ⟨key, rfl⟩ | ⟨key, rfl⟩ | ⟨key, rfl⟩ | ⟨key, rfl⟩
  · exact absurd key supported.1
  · refine .inl ⟨target, by rw [key]; decide, ?_⟩
    simp only [List.mem_cons, List.not_mem_nil, or_false] at allowed
    rcases allowed with isEq | isIn
    · rw [isEq, parseValue_text rfl value (by decide)] at valued
      exact .inl ⟨isEq, _, (Except.ok.inj valued).symm⟩
    · rw [isIn] at valued
      refine .inr ⟨isIn, ((value.splitOn ',').filter (· ≠ [])).map String.ofList, ?_⟩
      rw [(parseValue_isIn rfl valued).2, List.map_map]
      rfl
  · exact absurd key supported.2.1
  · exact absurd key supported.2.2
  · exact .inr ⟨_, target⟩
  · exact .inr ⟨_, target⟩

theorem FileFilter.bindsFilter (env : DbEnv) {f : Filter} (file : FileFilter f) : env.bindsFilter f = true := by
  rcases file with ⟨target, -, ⟨-, text, given⟩ | ⟨-, texts, given⟩⟩ | ⟨field, target⟩
  · rw [DbEnv.bindsFilter, target, given]
    rfl
  · rw [DbEnv.bindsFilter, target, given]
    simp [DbEnv.binds]
  · rw [DbEnv.bindsFilter, target]

theorem forM_passes {α ε : Type} {items : List α} {check : α → Except ε PUnit}
    (each : ∀ item ∈ items, check item = .ok ⟨⟩) : items.forM check = .ok ⟨⟩ := by
  induction items with
  | nil => rfl
  | cons item items ih =>
    rw [List.forall_mem_cons] at each
    rw [List.forM_eq_forM, List.forM_cons, each.1]
    exact ih each.2

theorem columnFiltersMatch_iff {layerId : String} {held : Held} (files : ∀ f ∈ filters, FileFilter f) :
    Snapshot.columnFiltersMatch filters layerId = true ↔ ∀ f ∈ filters, ∀ column, f.target = .column column →
      env.columnCompare f.op (heldColumn updatedAt layerId held column) f.value = true := by
  rw [Snapshot.columnFiltersMatch, List.all_eq_true]
  refine forall₂_congr fun f member => ?_
  rcases files f member with ⟨target, -, ⟨isEq, value, given⟩ | ⟨isIn, values, given⟩⟩ | ⟨field, target⟩
  · simp [target, isEq, given, heldColumn, DbEnv.columnCompare, DbEnv.cellOf]
  · simp [target, isIn, given, heldColumn, DbEnv.columnCompare, DbEnv.cellOf]
  · simp [target]

def Mirrors (stored : Snapshot) (store : DocumentStore) : Prop :=
  ∀ layerId, (stored.entries.lookup layerId).map (fun layer => layer.needsReview) =
    (store layerId).map fun held => queueOf held.document

theorem Mirrors.queueOf (mirrors : Mirrors stored store) {layerId : String} {held : Held}
    (known : store layerId = some held) : stored.queueOf layerId = LedgerProof.queueOf held.document := by
  rw [Snapshot.queueOf, mirrors layerId, known]
  rfl

theorem Mirrors.listed (mirrors : Mirrors stored store) {layerId : String} :
    layerId ∈ stored.listLayerIds ↔ ∃ held, store layerId = some held := by
  have present : layerId ∈ stored.listLayerIds ↔ (stored.entries.lookup layerId).isSome = true := by
    rw [mem_listLayerIds, List.lookup_isSome_iff, List.mem_map]
    refine exists_congr fun entry => and_congr_right fun _ => ?_
    rw [beq_iff_eq, eq_comm]
  have same := congrArg Option.isSome (mirrors layerId)
  rw [Option.isSome_map, Option.isSome_map] at same
  rw [present, same, Option.isSome_iff_exists]

def unowned (entry : LayerEntry) : LayerEntry := { entry with productRepoId := none }

theorem fileQuery_ok (mirrors : Mirrors stored store) (updatedAt : String → Int) (includeReviews : Bool)
    (files : ∀ f ∈ filters, FileFilter f) :
    ∃ entries, stored.queryLayers filters includeReviews = .ok entries ∧
      entries.Pairwise (fun left right => textBefore left.layerId right.layerId) ∧
      ∀ entry, entry ∈ entries ↔ ∃ owned held, Listed env store updatedAt filters includeReviews owned held ∧
        unowned owned = entry := by
  have accepted : filters.forM Snapshot.requireSupported = .ok ⟨⟩ := by
    refine forM_passes fun f member => ?_
    rcases files f member with ⟨target, known, -⟩ | ⟨field, target⟩
    · rw [Snapshot.requireSupported, target]
      exact require_ok_iff.mpr known
    · rw [Snapshot.requireSupported, target]
      rfl
  have ordered := (listLayerIds_sorted stored).sublist
    (@List.filter_sublist _ (Snapshot.columnFiltersMatch filters) _)
  have chosen : ∀ layerId, layerId ∈ stored.listLayerIds.filter (Snapshot.columnFiltersMatch filters) ↔
      ∃ held, store layerId = some held ∧ ∀ f ∈ filters, ∀ column, f.target = .column column →
        env.columnCompare f.op (heldColumn updatedAt layerId held column) f.value = true := by
    intro layerId
    rw [List.mem_filter, mirrors.listed]
    constructor
    · rintro ⟨⟨held, known⟩, matching⟩
      exact ⟨held, known, (columnFiltersMatch_iff files).mp matching⟩
    · rintro ⟨held, known, columns⟩
      exact ⟨⟨held, known⟩, (columnFiltersMatch_iff files).mpr columns⟩
  unfold Snapshot.queryLayers
  rw [accepted]
  by_cases wanted : wantsReviews filters includeReviews = false
  · refine ⟨_, by simp only [bind, Except.bind, if_pos wanted]; rfl, List.pairwise_map.mpr ordered, ?_⟩
    intro entry
    rw [List.mem_map]
    constructor
    · rintro ⟨layerId, member, rfl⟩
      rcases (chosen layerId).mp member with ⟨held, known, columns⟩
      refine ⟨⟨layerId, held.owner, none⟩, held, ⟨known, rfl, columns, ?_⟩, rfl⟩
      rw [if_neg (by simp [wanted])]
    · rintro ⟨owned, held, listed, rfl⟩
      have reviews := listed.reviews
      rw [if_neg (by simp [wanted])] at reviews
      refine ⟨owned.layerId, (chosen _).mpr ⟨held, listed.stored, listed.columns⟩, ?_⟩
      rw [unowned, reviews]
  · refine ⟨_, by simp only [bind, Except.bind, if_neg wanted]; rfl, ?_, ?_⟩
    · rw [List.pairwise_filterMap]
      refine ordered.imp ?_
      intro left right before entry made other made'
      split_ifs at made made'
      cases made
      cases made'
      exact before
    · intro entry
      rw [List.mem_filterMap]
      constructor
      · rintro ⟨layerId, member, made⟩
        rcases (chosen layerId).mp member with ⟨held, known, columns⟩
        rw [mirrors.queueOf known] at made
        split_ifs at made with nothing
        cases made
        refine ⟨⟨layerId, held.owner, some (shownItems filters held)⟩, held, ⟨known, rfl, columns, ?_⟩, rfl⟩
        rw [if_pos (by simpa using wanted)]
        exact ⟨rfl, nothing⟩
      · rintro ⟨owned, held, listed, rfl⟩
        have reviews := listed.reviews
        rw [if_pos (by simpa using wanted)] at reviews
        refine ⟨owned.layerId, (chosen _).mpr ⟨held, listed.stored, listed.columns⟩, ?_⟩
        rw [mirrors.queueOf listed.stored, unowned, reviews.1]
        exact if_neg reviews.2

end Files

theorem listing_ext {left right : List LayerEntry}
    (leftSorted : left.Pairwise fun first second => textBefore first.layerId second.layerId)
    (rightSorted : right.Pairwise fun first second => textBefore first.layerId second.layerId)
    (same : ∀ entry, entry ∈ left ↔ entry ∈ right) : left = right := by
  have apart : ∀ first second : LayerEntry, textBefore first.layerId second.layerId → first ≠ second := by
    rintro first _ before rfl
    exact irrefl first.layerId before
  have leftDistinct : left.Nodup := leftSorted.imp fun before => apart _ _ before
  have rightDistinct : right.Nodup := rightSorted.imp fun before => apart _ _ before
  refine List.Perm.eq_of_pairwise ?_ leftSorted rightSorted
    ((List.perm_ext_iff_of_nodup leftDistinct rightDistinct).mpr same)
  intro first second _ _ before after
  exact absurd (IsTrans.trans _ _ _ before after) (irrefl first.layerId)

/-- Where the files hold the layers of the database, both list the same layers with the same items for every request
    that filters on ids and reviews; only the owners are not in the files. -/
theorem backends_list_alike (env : DbEnv) (lawful : LawfulDb env) (calls : List DbCall) (stored : Snapshot)
    (mirrors : Mirrors stored (afterAll env DocumentStore.empty calls)) (updatedAt : String → Int)
    (parseDatetime : String → Except String Datetime) (raw : List String) (filters : List Filter)
    (parsed : parseFilters parseDatetime raw = .ok filters)
    (supported : ∀ f ∈ filters, f.key ∉ ["product_repo_id", "merkle_epoch", "updated_at"]) (includeReviews : Bool) :
    ∃ entries, env.queryLayers updatedAt filters includeReviews (env.performAll Tables.empty calls) = .ok entries ∧
      stored.queryLayers filters includeReviews = .ok (entries.map unowned) := by
  have files : ∀ f ∈ filters, FileFilter f := by
    intro f member
    rcases mem_of_mapM parsed member with ⟨text, -, read⟩
    exact fileFilter_of_parsed read (supported f member)
  rcases queryLayers_represents lawful (performAll_represents lawful represents_empty calls) updatedAt filters
    includeReviews (fun f member => (files f member).bindsFilter env) with ⟨entries, listing, sorted, exact⟩
  rcases fileQuery_ok mirrors updatedAt includeReviews files with ⟨others, fileListing, fileSorted, fileExact⟩
  refine ⟨entries, listing, fileListing.trans (congrArg _ ?_)⟩
  refine listing_ext fileSorted (List.pairwise_map.mpr sorted) fun entry => ?_
  rw [fileExact, List.mem_map]
  constructor
  · rintro ⟨owned, held, listed, rfl⟩
    exact ⟨owned, (exact owned).mpr ⟨held, listed⟩, rfl⟩
  · rintro ⟨owned, member, rfl⟩
    rcases (exact owned).mp member with ⟨held, listed⟩
    exact ⟨owned, held, listed, rfl⟩

def queuedDocument : Document :=
  (scanDocument ["e-1"]).set "needs_review" (.arr [.obj [("status", .str "open:2026")], .null])

def queuedFile : Snapshot :=
  ⟨[("scans", ⟨[], [], [.obj [("status", .str "open:2026")], .null]⟩)], List.nodup_singleton _⟩

theorem queuedFile_mirrors : Mirrors queuedFile
    (afterAll plainDb DocumentStore.empty [.create "scans" queuedDocument (some "repo-1")]) := by
  have free : DocumentStore.empty.Free (some "repo-1") := fun _ _ _ _ absent => by cases absent
  have created : create plainDb DocumentStore.empty "scans" queuedDocument (some "repo-1") =
      some (DocumentStore.empty.put "scans" ⟨some "repo-1", queuedDocument⟩) :=
    if_pos ⟨rfl, by decide +kernel, free, rfl, by decide +kernel, by decide +kernel⟩
  have whole : afterAll plainDb DocumentStore.empty [.create "scans" queuedDocument (some "repo-1")] =
      DocumentStore.empty.put "scans" ⟨some "repo-1", queuedDocument⟩ := by
    simp [afterAll, after, DocumentStore.step, created]
  rw [whole]
  intro layerId
  by_cases here : layerId = "scans"
  · subst here
    rw [DocumentStore.put, Function.update_self]
    decide +kernel
  · rw [DocumentStore.put, Function.update_of_ne here, queuedFile, List.lookup_cons, beq_eq_false_iff_ne.mpr here]
    rfl

theorem backends_list_alike_queued : LawfulDb plainDb ∧
    ∃ entries, plainDb.queryLayers (fun _ => 0) [statusFilter] false
        (plainDb.performAll Tables.empty [.create "scans" queuedDocument (some "repo-1")]) = .ok entries ∧
      queuedFile.queryLayers [statusFilter] false = .ok (entries.map unowned) := by
  have parsed : parseFilters (fun _ => .error "") ["review_status:eq:open:2026"] = .ok [statusFilter] := by
    decide +kernel
  exact ⟨plainDb_lawful, backends_list_alike plainDb plainDb_lawful _ queuedFile queuedFile_mirrors (fun _ => 0)
    (fun _ => .error "") _ _ parsed (by decide) false⟩

section Sets

variable {others : List Filter}

theorem mem_itemFilters {field : String} {f : Filter} :
    (field, f) ∈ itemFilters filters ↔ f ∈ filters ∧ f.target = .item field := by
  rw [itemFilters, List.mem_filterMap]
  constructor
  · rintro ⟨other, member, made⟩
    split at made
    · next target =>
      cases made
      exact ⟨member, target⟩
    · cases made
  · rintro ⟨member, target⟩
    exact ⟨f, member, by rw [target]⟩

theorem itemFilters_subset (more : ∀ f ∈ filters, f ∈ others) :
    ∀ entry ∈ itemFilters filters, entry ∈ itemFilters others := by
  rintro ⟨field, f⟩ member
  rcases mem_itemFilters.mp member with ⟨listed, target⟩
  exact mem_itemFilters.mpr ⟨more f listed, target⟩

theorem wantsReviews_mono (more : ∀ f ∈ filters, f ∈ others) (wanted : wantsReviews filters includeReviews = true) :
    wantsReviews others includeReviews = true := by
  rw [wantsReviews, Bool.or_eq_true] at wanted ⊢
  refine wanted.imp_right fun filled => ?_
  rw [Bool.not_eq_true', List.isEmpty_eq_false_iff] at filled ⊢
  rcases List.exists_mem_of_ne_nil _ filled with ⟨entry, member⟩
  exact List.ne_nil_of_mem (itemFilters_subset more entry member)

theorem itemMatches_anti (more : ∀ f ∈ filters, f ∈ others) {item : Json}
    (matching : itemMatches (itemFilters others) item = true) : itemMatches (itemFilters filters) item = true := by
  cases item with
  | obj fields =>
    rw [itemMatches, List.all_eq_true] at matching ⊢
    exact fun entry member => matching entry (itemFilters_subset more entry member)
  | _ => cases matching

theorem rowMatches_anti (more : ∀ f ∈ filters, f ∈ others) {row : LayerRow}
    (matching : env.rowMatches updatedAt others row = true) : env.rowMatches updatedAt filters row = true := by
  rw [DbEnv.rowMatches, List.all_eq_true] at matching ⊢
  exact fun f member => matching f (more f member)

theorem mem_queryLayers {entries : List LayerEntry}
    (listing : env.queryLayers updatedAt filters includeReviews tables = .ok entries) :
    (∀ row ∈ tables.layers, env.rowMatches updatedAt filters row = true →
      (wantsReviews filters includeReviews = true → 2 < row.values.needsReviewPayload.length) →
      ∃ made, env.entryOf filters (wantsReviews filters includeReviews) row = .ok made ∧
        ∀ entry, made = some entry → entry ∈ entries) ∧
    ∀ entry ∈ entries, ∃ row ∈ tables.layers, env.rowMatches updatedAt filters row = true ∧
      (wantsReviews filters includeReviews = true → 2 < row.values.needsReviewPayload.length) ∧
      env.entryOf filters (wantsReviews filters includeReviews) row = .ok (some entry) := by
  unfold DbEnv.queryLayers at listing
  rcases bind_ok_iff.mp (gate_passed listing) with ⟨made, mapped, result⟩
  cases result
  have chosen : ∀ row, row ∈ (tables.layers.filter fun row => env.rowMatches updatedAt filters row &&
      (!wantsReviews filters includeReviews || decide (2 < row.values.needsReviewPayload.length))).insertionSort
        (fun left right => Dict.precedes (chars right.layerId) (chars left.layerId) = false) ↔
      row ∈ tables.layers ∧ env.rowMatches updatedAt filters row = true ∧
        (wantsReviews filters includeReviews = true → 2 < row.values.needsReviewPayload.length) := by
    intro row
    rw [List.mem_insertionSort, List.mem_filter, Bool.and_eq_true, Bool.or_eq_true, decide_eq_true_eq]
    cases wantsReviews filters includeReviews <;> simp
  refine ⟨?_, ?_⟩
  · intro row stored matching long
    rcases mapM_of_mem mapped ((chosen row).mpr ⟨stored, matching, long⟩) with ⟨held, member, computed⟩
    refine ⟨held, computed, ?_⟩
    rintro entry rfl
    exact List.mem_filterMap.mpr ⟨_, member, rfl⟩
  · intro entry member
    rcases List.mem_filterMap.mp member with ⟨held, known, same⟩
    rw [id] at same
    subst same
    rcases mem_of_mapM mapped known with ⟨row, listed, computed⟩
    rcases (chosen row).mp listed with ⟨stored, matching, long⟩
    exact ⟨row, stored, matching, long, computed⟩

theorem entryOf_some {row : LayerRow} {wanted : Bool} (made : env.entryOf filters wanted row = .ok (some entry)) :
    entry.layerId = row.layerId ∧ entry.productRepoId = row.productRepoId ∧
      (wanted = true → ∃ items, env.queueItems row.values.needsReviewPayload = .ok items ∧
        entry.needsReview = some (items.filter (itemMatches (itemFilters filters))) ∧
        items.filter (itemMatches (itemFilters filters)) ≠ []) := by
  unfold DbEnv.entryOf at made
  split_ifs at made with unwanted
  · cases made
    refine ⟨rfl, rfl, ?_⟩
    rw [unwanted]
    intro wrong
    cases wrong
  · rcases bind_ok_iff.mp made with ⟨items, decoded, result⟩
    simp only [pure, Except.pure, Except.ok.injEq] at result
    split_ifs at result with nothing
    cases result
    exact ⟨rfl, rfl, fun _ => ⟨items, decoded, rfl, nothing⟩⟩

end Sets

/-- Only the set of the filters counts, not their order or how often one is given; and more filters only take layers
    and items away. -/
theorem filters_narrow (env : DbEnv) (tables : Tables) (updatedAt : String → Int) (includeReviews : Bool)
    (filters others : List Filter) (more : ∀ f ∈ filters, f ∈ others) :
    ((∀ f ∈ others, f ∈ filters) → env.queryLayers updatedAt filters includeReviews tables =
      env.queryLayers updatedAt others includeReviews tables) ∧
    ∀ many few, env.queryLayers updatedAt filters includeReviews tables = .ok many →
      env.queryLayers updatedAt others includeReviews tables = .ok few →
      ∀ entry ∈ few, ∃ wider ∈ many, wider.layerId = entry.layerId ∧ wider.productRepoId = entry.productRepoId ∧
        ∀ shown, wider.needsReview = some shown → ∃ items, entry.needsReview = some items ∧ items.Sublist shown := by
  refine ⟨?_, ?_⟩
  · intro back
    have wanted : wantsReviews filters includeReviews = wantsReviews others includeReviews :=
      Bool.eq_iff_iff.mpr ⟨wantsReviews_mono more, wantsReviews_mono back⟩
    have items : itemMatches (itemFilters filters) = itemMatches (itemFilters others) :=
      funext fun item => Bool.eq_iff_iff.mpr ⟨itemMatches_anti back, itemMatches_anti more⟩
    have rows : env.rowMatches updatedAt filters = env.rowMatches updatedAt others :=
      funext fun row => Bool.eq_iff_iff.mpr ⟨rowMatches_anti back, rowMatches_anti more⟩
    have made : env.entryOf filters = env.entryOf others := by
      funext wanted row
      rw [DbEnv.entryOf, DbEnv.entryOf, items]
    have bound : (∀ f ∈ filters, env.bindsFilter f = true) ↔ ∀ f ∈ others, env.bindsFilter f = true :=
      ⟨fun each f member => each f (back f member), fun each f member => each f (more f member)⟩
    unfold DbEnv.queryLayers
    rw [wanted, rows, made]
    simp only [bound]
  · intro many few manyListed fewListed entry member
    rcases (mem_queryLayers fewListed).2 entry member with ⟨row, stored, matching, long, made⟩
    rcases entryOf_some made with ⟨sameId, sameOwner, narrow⟩
    rcases (mem_queryLayers manyListed).1 row stored (rowMatches_anti more matching)
      (fun wanted => long (wantsReviews_mono more wanted)) with ⟨found, computed, listed⟩
    by_cases wanted : wantsReviews filters includeReviews = true
    · rcases narrow (wantsReviews_mono more wanted) with ⟨items, decoded, shown, filled⟩
      have within : (items.filter (itemMatches (itemFilters others))).Sublist
          (items.filter (itemMatches (itemFilters filters))) :=
        List.monotone_filter_right items fun item => itemMatches_anti more
      have filledToo : items.filter (itemMatches (itemFilters filters)) ≠ [] := by
        intro nothing
        rw [nothing, List.sublist_nil] at within
        exact filled within
      have result : env.entryOf filters (wantsReviews filters includeReviews) row =
          .ok (some ⟨row.layerId, row.productRepoId, some (items.filter (itemMatches (itemFilters filters)))⟩) := by
        unfold DbEnv.entryOf
        rw [if_neg (by simp [wanted]), decoded]
        simp only [bind, Except.bind, pure, Except.pure]
        rw [if_neg filledToo]
      rw [result] at computed
      cases computed
      refine ⟨_, listed _ rfl, sameId.symm, sameOwner.symm, ?_⟩
      intro others same
      cases same
      exact ⟨_, shown, within⟩
    · have result : env.entryOf filters (wantsReviews filters includeReviews) row =
          .ok (some ⟨row.layerId, row.productRepoId, none⟩) := by
        unfold DbEnv.entryOf
        rw [if_pos (by simpa using wanted)]
        rfl
      rw [result] at computed
      cases computed
      refine ⟨_, listed _ rfl, sameId.symm, sameOwner.symm, ?_⟩
      intro others same
      cases same

theorem filters_narrow_repeated : (∀ f ∈ [statusFilter], f ∈ [statusFilter, statusFilter]) ∧
    plainDb.queryLayers (fun _ => 0) [statusFilter] false (plainDb.performAll Tables.empty scanCalls) =
      plainDb.queryLayers (fun _ => 0) [statusFilter, statusFilter] false (plainDb.performAll Tables.empty scanCalls) :=
  ⟨by simp, (filters_narrow plainDb (plainDb.performAll Tables.empty scanCalls) (fun _ => 0) false [statusFilter]
    [statusFilter, statusFilter] (by simp)).1 (by simp)⟩

section Owners

def ownerFilter (owner : String) : Filter := ⟨"product_repo_id", .column .productRepoId, .eq, .one (.text owner)⟩

theorem owned_rows {rows : List LayerRow} (unique : (rows.filterMap fun row => row.productRepoId).Nodup)
    (owner : String) : rows.filter (fun row => row.productRepoId = some owner) =
      (rows.find? fun row => row.productRepoId = some owner).toList := by
  induction rows with
  | nil => rfl
  | cons row rows ih =>
    rw [List.filter_cons, List.find?_cons]
    by_cases here : row.productRepoId = some owner
    · have alone : rows.filter (fun row => row.productRepoId = some owner) = [] := by
        rw [List.filterMap_cons_some here, List.nodup_cons] at unique
        rw [List.filter_eq_nil_iff]
        intro other member same
        exact unique.1 (List.mem_filterMap.mpr ⟨other, member, of_decide_eq_true same⟩)
      rw [if_pos (by simpa using here), alone, decide_eq_true here]
      rfl
    · have rest : (rows.filterMap fun row => row.productRepoId).Nodup := by
        cases held : row.productRepoId with
        | none => rwa [List.filterMap_cons_none held] at unique
        | some other =>
          rw [List.filterMap_cons_some held] at unique
          exact (List.nodup_cons.mp unique).2
      rw [if_neg (by simpa using here), decide_eq_false here]
      exact ih rest

theorem rowMatches_owner (env : DbEnv) (updatedAt : String → Int) (owner : String) (row : LayerRow) :
    env.rowMatches updatedAt [ownerFilter owner] row = decide (row.productRepoId = some owner) := by
  cases held : row.productRepoId with
  | none => simp [DbEnv.rowMatches, ownerFilter, DbEnv.columnOf, DbEnv.columnCompare, DbEnv.cellOf, held]
  | some name => simp [DbEnv.rowMatches, ownerFilter, DbEnv.columnOf, DbEnv.columnCompare, DbEnv.cellOf, held]

def layerOwner (store : DocumentStore) (layerId : String) : Option (Option String) :=
  (store layerId).map fun held => held.owner

def Opens (layerId : String) (owner : Option String) : DbCall → Prop
  | .create opened _ named => opened = layerId ∧ named = owner
  | .importLayer opened _ named dryRun => opened = layerId ∧ named = owner ∧ dryRun = false
  | .store _ _ => False
  | .mutate _ _ => False

theorem layerOwner_put {layerId other : String} {held : Held} :
    layerOwner (store.put layerId held) other =
      if other = layerId then some held.owner else layerOwner store other := by
  by_cases same : other = layerId
  · simp [layerOwner, DocumentStore.put, same]
  · simp [layerOwner, DocumentStore.put, same]

theorem write_layerOwner {layerId : String} {document : Document} {written : DocumentStore}
    (accepted : write env store layerId document = some written) (other : String) :
    layerOwner written other = layerOwner store other := by
  rcases write_cases accepted with ⟨held, present, -, -, rfl⟩
  rw [layerOwner_put]
  split_ifs with same
  · rw [same, layerOwner, present]
    rfl
  · rfl

theorem create_layerOwner {layerId : String} {document : Document} {owner : Option String} {created : DocumentStore}
    (accepted : create env store layerId document owner = some created) (other : String) :
    layerOwner created other = layerOwner store other ∨
      layerOwner store other = none ∧ layerId = other ∧ layerOwner created other = some owner := by
  rcases Option.ite_none_right_eq_some.mp accepted with ⟨⟨absent, -⟩, made⟩
  cases made
  rw [layerOwner_put]
  split_ifs with same
  · right
    refine ⟨?_, same.symm, rfl⟩
    rw [same, layerOwner, absent]
    rfl
  · left
    rfl

theorem step_layerOwner {call : DbCall} {written : DocumentStore} (accepted : step env store call = some written)
    (layerId : String) : layerOwner written layerId = layerOwner store layerId ∨
      layerOwner store layerId = none ∧
        ∃ owner, layerOwner written layerId = some owner ∧ Opens layerId owner call := by
  cases call with
  | create opened document named =>
    rcases create_layerOwner accepted layerId with kept | ⟨absent, here, owned⟩
    · exact .inl kept
    · exact .inr ⟨absent, named, owned, here, rfl⟩
  | store opened document => exact .inl (write_layerOwner accepted layerId)
  | mutate opened mutator =>
    simp only [DocumentStore.step] at accepted
    split at accepted
    · split at accepted
      · exact .inl (write_layerOwner accepted layerId)
      · cases accepted
    · cases accepted
  | importLayer opened document named dryRun =>
    simp only [DocumentStore.step] at accepted
    split at accepted
    · rcases Option.ite_none_right_eq_some.mp accepted with ⟨-, made⟩
      cases made
      exact .inl rfl
    · cases dryRun with
      | true =>
        rcases Option.ite_none_right_eq_some.mp accepted with ⟨-, made⟩
        cases made
        exact .inl rfl
      | false =>
        rcases create_layerOwner accepted layerId with kept | ⟨absent, here, owned⟩
        · exact .inl kept
        · exact .inr ⟨absent, named, owned, here, rfl, rfl⟩

theorem after_layerOwner (env : DbEnv) (store : DocumentStore) (call : DbCall) (layerId : String) :
    layerOwner (after env store call) layerId = layerOwner store layerId ∨ layerOwner store layerId = none ∧
      ∃ owner, layerOwner (after env store call) layerId = some owner ∧ Opens layerId owner call := by
  rw [after]
  cases accepted : step env store call with
  | none => exact .inl rfl
  | some written => exact step_layerOwner accepted layerId

theorem afterAll_layerOwner (env : DbEnv) (store : DocumentStore) (calls : List DbCall) (layerId : String)
    (owner : Option String) :
    (layerOwner store layerId = some owner → layerOwner (afterAll env store calls) layerId = some owner) ∧
    (layerOwner (afterAll env store calls) layerId = some owner →
      layerOwner store layerId = some owner ∨ ∃ call ∈ calls, Opens layerId owner call) := by
  induction calls generalizing store with
  | nil => exact ⟨id, .inl⟩
  | cons call calls ih =>
    rcases ih (after env store call) with ⟨kept, came⟩
    rcases after_layerOwner env store call layerId with same | ⟨absent, named, owned, opens⟩
    · rw [same] at kept came
      refine ⟨kept, fun held => ?_⟩
      rcases came held with before | ⟨later, member, opens⟩
      · exact .inl before
      · exact .inr ⟨later, List.mem_cons_of_mem _ member, opens⟩
    · refine ⟨fun held => ?_, fun held => .inr ?_⟩
      · rw [absent] at held
        cases held
      · rcases came held with here | ⟨later, member, opened⟩
        · rw [owned] at here
          cases here
          exact ⟨call, List.mem_cons_self, opens⟩
        · exact ⟨later, List.mem_cons_of_mem _ member, opened⟩

theorem represents_ownedLayer (represents : Represents env tables store) (owner layerId : String) :
    tables.ownedLayer owner = some layerId ↔ layerOwner store layerId = some (some owner) := by
  constructor
  · intro found
    rcases Option.map_eq_some_iff.mp found with ⟨row, first, rfl⟩
    rcases represents.rowOf (List.mem_of_find?_eq_some first) with ⟨held, record, rowOf⟩
    have owned : row.productRepoId = some owner := by simpa using List.find?_some first
    rw [layerOwner, rowOf.stored, Option.map_some, ← rowOf.owner, owned]
  · intro owned
    rcases Option.map_eq_some_iff.mp owned with ⟨held, present, named⟩
    rcases represents.row_mem present with ⟨row, member, record, same, rowOf⟩
    have here : row ∈ tables.layers.filter fun row => row.productRepoId = some owner := by
      rw [List.mem_filter]
      exact ⟨member, by simpa using rowOf.owner.trans named⟩
    rw [owned_rows tables.owners, Option.mem_toList] at here
    rw [Tables.ownedLayer, here, Option.map_some, same]

def ownerListing (env : DbEnv) (updatedAt : String → Int) (parseDatetime : String → Except String Datetime)
    (owner : String) (tables : Tables) : Outcome (List LayerEntry) :=
  listLayers parseDatetime (fun filters includeReviews => env.queryLayers updatedAt filters includeReviews tables)
    (some owner) [] false

theorem ownerListing_eq (env : DbEnv) (tables : Tables) (updatedAt : String → Int)
    (parseDatetime : String → Except String Datetime) (owner : String) :
    ownerListing env updatedAt parseDatetime owner tables =
      match tables.ownedLayer owner with
      | some layerId => .ok [⟨layerId, some owner, none⟩]
      | none => .error (.notFound ("no layer for product_repo: " ++ owner)) := by
  have unwanted : wantsReviews [ownerFilter owner] false = false := rfl
  have selected : tables.layers.filter (fun row => env.rowMatches updatedAt [ownerFilter owner] row &&
      (!wantsReviews [ownerFilter owner] false || decide (2 < row.values.needsReviewPayload.length))) =
      (tables.layers.find? fun row => row.productRepoId = some owner).toList := by
    rw [← owned_rows tables.owners owner]
    refine List.filter_congr fun row _ => ?_
    rw [rowMatches_owner, unwanted, Bool.not_false, Bool.true_or, Bool.and_true]
  have listing : env.queryLayers updatedAt [ownerFilter owner] false tables =
      .ok ((tables.layers.find? fun row => row.productRepoId = some owner).toList.map
        fun row => ⟨row.layerId, row.productRepoId, none⟩) := by
    have bound : ∀ f ∈ [ownerFilter owner], env.bindsFilter f = true := by
      simp [ownerFilter, DbEnv.bindsFilter, DbEnv.binds]
    unfold DbEnv.queryLayers
    refine bind_ok_iff.mpr ⟨(), require_ok_iff.mpr bound, ?_⟩
    dsimp only
    rw [selected]
    cases tables.layers.find? fun row => row.productRepoId = some owner with
    | none => rfl
    | some row => rfl
  have queried : ownerListing env updatedAt parseDatetime owner tables = (do
        let entries ← env.queryLayers updatedAt [ownerFilter owner] false tables
        require (¬ ((some owner).isSome = true ∧ entries = [] ∧ ([] : List String) = [] ∧ false = false))
          (.notFound ("no layer for product_repo: " ++ owner))
        return entries) := rfl
  rw [queried, listing, Tables.ownedLayer]
  cases found : tables.layers.find? fun row => row.productRepoId = some owner with
  | none => rfl
  | some row =>
    have held : row.productRepoId = some owner := by simpa using List.find?_some found
    simp only [bind, Except.bind, pure, Except.pure, Option.toList_some, List.map_cons, List.map_nil, require,
      Option.map_some, held]
    rfl

end Owners

/-- Asked for an owner after any calls, the route answers that there is no layer, and no layer has the owner; or it
    answers with the one layer that a call opened for it, and answers so after any further calls. -/
theorem owner_listing_permanent (env : DbEnv) (lawful : LawfulDb env) (calls : List DbCall) (updatedAt : String → Int)
    (parseDatetime : String → Except String Datetime) (owner : String) :
    (ownerListing env updatedAt parseDatetime owner (env.performAll Tables.empty calls) =
        .error (.notFound ("no layer for product_repo: " ++ owner)) ∧
      ∀ layerId, (env.performAll Tables.empty calls).productRepo layerId ≠ some owner) ∨
    ∃ layerId, (env.performAll Tables.empty calls).productRepo layerId = some owner ∧
      (∃ call ∈ calls, Opens layerId (some owner) call) ∧
      ∀ later updatedLater, ownerListing env updatedLater parseDatetime owner
        (env.performAll (env.performAll Tables.empty calls) later) = .ok [⟨layerId, some owner, none⟩] := by
  have represents := performAll_represents lawful represents_empty calls
  have productRepo (layerId : String) : (env.performAll Tables.empty calls).productRepo layerId = some owner ↔
      (env.performAll Tables.empty calls).ownedLayer owner = some layerId := by
    rw [represents_ownedLayer represents, layerOwner]
    cases present : afterAll env DocumentStore.empty calls layerId with
    | none =>
      rw [Tables.productRepo, (represents.missing present).row]
      simp
    | some held =>
      rw [represents.productRepo present]
      simp
  cases found : (env.performAll Tables.empty calls).ownedLayer owner with
  | none =>
    left
    refine ⟨by rw [ownerListing_eq, found], fun layerId owns => ?_⟩
    rw [productRepo, found] at owns
    cases owns
  | some layerId =>
    right
    have owned := (represents_ownedLayer represents owner layerId).mp found
    refine ⟨layerId, (productRepo layerId).mpr found, ?_, fun later updatedLater => ?_⟩
    · rcases (afterAll_layerOwner env _ calls layerId (some owner)).2 owned with before | opened
      · cases before
      · exact opened
    · have standing := performAll_represents lawful represents later
      have kept := (afterAll_layerOwner env _ later layerId (some owner)).1 owned
      rw [ownerListing_eq, (represents_ownedLayer standing owner layerId).mpr kept]

theorem owner_listing_permanent_scans : LawfulDb plainDb ∧
    ((ownerListing plainDb (fun _ => 0) (fun _ => .error "") "repo-1" (plainDb.performAll Tables.empty scanCalls) =
        .error (.notFound "no layer for product_repo: repo-1") ∧
      ∀ layerId, (plainDb.performAll Tables.empty scanCalls).productRepo layerId ≠ some "repo-1") ∨
    ∃ layerId, (plainDb.performAll Tables.empty scanCalls).productRepo layerId = some "repo-1" ∧
      (∃ call ∈ scanCalls, Opens layerId (some "repo-1") call) ∧
      ∀ later updatedLater, ownerListing plainDb updatedLater (fun _ => .error "") "repo-1"
        (plainDb.performAll (plainDb.performAll Tables.empty scanCalls) later) =
          .ok [⟨layerId, some "repo-1", none⟩]) :=
  ⟨plainDb_lawful, owner_listing_permanent plainDb plainDb_lawful scanCalls (fun _ => 0) (fun _ => .error "") "repo-1"⟩

end LedgerProof
