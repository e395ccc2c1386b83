import TraustLedger.Backends.Database

namespace LedgerProof

open Hashing Python Runs LedgerModel

variable {tables next : Tables} {layerId : String}

theorem Tables.ext_rows {left right : Tables} (layers : left.layers = right.layers)
    (events : left.events = right.events) : left = right := by
  cases left
  cases right
  cases layers
  cases events
  rfl

def rowsOf (tables : Tables) (layerId : String) : List EventRow :=
  tables.events.filter fun row => row.layerId = layerId

def seqsOf (rows : List EventRow) : List Nat := rows.map fun row => row.seq

theorem rowsOf_append {rows : List EventRow} (events : next.events = tables.events ++ rows)
    (owned : ∀ row ∈ rows, row.layerId = layerId) :
    rowsOf next layerId = rowsOf tables layerId ++ rows := by
  have all : rows.filter (fun row => row.layerId = layerId) = rows := by
    rw [List.filter_eq_self]
    intro row member
    simpa using owned row member
  rw [rowsOf, rowsOf, events, List.filter_append, all]

theorem rowsOf_append_other {rows : List EventRow} {other : String} (events : next.events = tables.events ++ rows)
    (owned : ∀ row ∈ rows, row.layerId = layerId) (apart : other ≠ layerId) :
    rowsOf next other = rowsOf tables other := by
  have none : rows.filter (fun row => row.layerId = other) = [] := by
    rw [List.filter_eq_nil_iff]
    intro row member
    simpa [owned row member] using apart.symm
  rw [rowsOf, rowsOf, events, List.filter_append, none, List.append_nil]

theorem foldl_seqs {rows : List EventRow} {first : Nat} (seqs : seqsOf rows = List.range' first rows.length) :
    rows.foldl (fun next row => max next (row.seq + 1)) first = first + rows.length := by
  induction rows generalizing first with
  | nil => rfl
  | cons row rows ih =>
    rw [seqsOf, List.length_cons, List.range'_succ, List.map_cons, List.cons.injEq] at seqs
    rw [List.foldl_cons, seqs.1, max_eq_right (Nat.le_succ first), ih seqs.2, List.length_cons]
    omega

theorem nextSeq_eq (seqs : seqsOf (rowsOf tables layerId) = List.range (rowsOf tables layerId).length) :
    tables.nextSeq layerId = (rowsOf tables layerId).length := by
  rw [List.range_eq_range'] at seqs
  have counted := foldl_seqs seqs
  rwa [Nat.zero_add] at counted

theorem eventRows_eq (seqs : seqsOf (rowsOf tables layerId) = List.range (rowsOf tables layerId).length) :
    tables.eventRows layerId = rowsOf tables layerId := by
  have sorted : (rowsOf tables layerId).Pairwise fun left right => left.seq ≤ right.seq := by
    rw [← List.pairwise_map (f := fun row : EventRow => row.seq) (R := fun a b => a ≤ b), ← seqsOf, seqs]
    exact List.pairwise_le_range
  exact sorted.insertionSort_eq

theorem insertEvent_ok {row : EventRow} : tables.insertEvent row = .ok next ↔
    tables.hasLayer row.layerId = true ∧ row.eventId ≠ "" ∧ row.seq = tables.nextSeq row.layerId ∧
      (row.layerId, row.seq) ∉ tables.events.map (fun row => (row.layerId, row.seq)) ∧
      (row.layerId, row.eventId) ∉ tables.events.map (fun row => (row.layerId, row.eventId)) ∧
      next.layers = tables.layers ∧ next.events = tables.events ++ [row] := by
  unfold Tables.insertEvent
  split
  · next free =>
    constructor
    · intro accepted
      obtain ⟨_, known, accepted⟩ := bind_ok_iff.mp accepted
      obtain ⟨_, appended, accepted⟩ := bind_ok_iff.mp accepted
      cases accepted
      obtain ⟨named, sequenced⟩ := require_ok_iff.mp appended
      exact ⟨require_ok_iff.mp known, named, sequenced, free.1, free.2, rfl, rfl⟩
    · rintro ⟨known, named, sequenced, -, -, layers, events⟩
      refine bind_ok_iff.mpr ⟨(), require_ok_iff.mpr known, bind_ok_iff.mpr ⟨(), ?_, ?_⟩⟩
      · exact require_ok_iff.mpr ⟨named, sequenced⟩
      · exact congrArg Except.ok (Tables.ext_rows layers.symm events.symm)
  · next taken =>
    constructor
    · intro accepted
      cases accepted
    · rintro ⟨-, -, -, seq, id, -, -⟩
      exact absurd ⟨seq, id⟩ taken

theorem mem_rowsOf {row : EventRow} : row ∈ rowsOf tables layerId ↔ row ∈ tables.events ∧ row.layerId = layerId := by
  simp [rowsOf]

theorem pair_mem_events {α : Type} {column : EventRow → α} {value : α} :
    (layerId, value) ∈ tables.events.map (fun row => (row.layerId, column row)) ↔
      value ∈ (rowsOf tables layerId).map column := by
  simp only [List.mem_map, mem_rowsOf, Prod.mk.injEq]
  constructor
  · rintro ⟨row, member, owned, rfl⟩
    exact ⟨row, ⟨member, owned⟩, rfl⟩
  · rintro ⟨row, ⟨member, owned⟩, rfl⟩
    exact ⟨row, member, owned, rfl⟩

theorem rowsOf_ids (tables : Tables) (layerId : String) :
    ((rowsOf tables layerId).map fun row => row.eventId).Nodup := by
  have kept := (List.filter_sublist (p := fun row : EventRow => row.layerId = layerId) (l := tables.events)).map
    fun row => (row.layerId, row.eventId)
  have distinct := kept.nodup tables.eventIds
  rw [List.Nodup, List.pairwise_map] at distinct ⊢
  refine distinct.imp_of_mem fun {left right} first second apart same => apart ?_
  rw [(mem_rowsOf.mp first).2, (mem_rowsOf.mp second).2, same]

structure Appendable (tables : Tables) (layerId : String) (rows : List EventRow) : Prop where
  seqs : seqsOf (rowsOf tables layerId) = List.range (rowsOf tables layerId).length
  consecutive : seqsOf rows = List.range' (rowsOf tables layerId).length rows.length
  owned : ∀ row ∈ rows, row.layerId = layerId
  named : ∀ row ∈ rows, row.eventId ≠ ""

theorem Appendable.seqs_append {rows : List EventRow} (appendable : Appendable tables layerId rows) :
    seqsOf (rowsOf tables layerId ++ rows) = List.range (rowsOf tables layerId ++ rows).length := by
  have first := appendable.seqs
  have later := appendable.consecutive
  unfold seqsOf at first later ⊢
  rw [List.map_append, first, later, List.length_append, List.range_add, List.range'_eq_map_range]

theorem Appendable.cons {row : EventRow} {rows : List EventRow} {middle : Tables}
    (appendable : Appendable tables layerId (row :: rows)) (inserted : tables.insertEvent row = .ok middle) :
    Appendable middle layerId rows ∧ rowsOf middle layerId = rowsOf tables layerId ++ [row] := by
  obtain ⟨-, -, -, -, -, -, events⟩ := insertEvent_ok.mp inserted
  obtain ⟨seqs, consecutive, owned, named⟩ := appendable
  rw [List.forall_mem_cons] at owned named
  rw [seqsOf, List.length_cons, List.range'_succ, List.map_cons, List.cons.injEq] at consecutive
  have grown : rowsOf middle layerId = rowsOf tables layerId ++ [row] :=
    rowsOf_append events fun held member => by rw [List.mem_singleton.mp member, owned.1]
  have one : Appendable tables layerId [row] :=
    ⟨seqs, by simp [seqsOf, consecutive.1], by simpa using owned.1, by simpa using named.1⟩
  refine ⟨⟨?_, ?_, owned.2, named.2⟩, grown⟩
  · rw [grown]
    exact one.seqs_append
  · rw [grown, List.length_append]
    exact consecutive.2

theorem Appendable.insertEvent {row : EventRow} {rows : List EventRow}
    (appendable : Appendable tables layerId (row :: rows)) (known : tables.hasLayer layerId = true)
    (fresh : row.eventId ∉ (rowsOf tables layerId).map fun row => row.eventId) :
    ∃ middle, tables.insertEvent row = .ok middle := by
  obtain ⟨seqs, consecutive, owned, named⟩ := appendable
  rw [List.forall_mem_cons] at owned named
  rw [seqsOf, List.length_cons, List.range'_succ, List.map_cons, List.cons.injEq] at consecutive
  have here := owned.1
  subst here
  have unused : (row.layerId, row.seq) ∉ tables.events.map fun row => (row.layerId, row.seq) := by
    rw [pair_mem_events, consecutive.1]
    intro member
    rw [← seqsOf, seqs] at member
    exact absurd (List.mem_range.mp member) (lt_irrefl _)
  have sequenced : row.seq = tables.nextSeq row.layerId := by rw [consecutive.1, nextSeq_eq seqs]
  unfold Tables.insertEvent
  rw [dif_pos ⟨unused, pair_mem_events.not.mpr fresh⟩]
  exact ⟨_, bind_ok_iff.mpr ⟨(), require_ok_iff.mpr known,
    bind_ok_iff.mpr ⟨(), require_ok_iff.mpr ⟨named.1, sequenced⟩, rfl⟩⟩⟩

theorem hasLayer_congr (layers : next.layers = tables.layers) (known : tables.hasLayer layerId = true) :
    next.hasLayer layerId = true := by
  rw [Tables.hasLayer, Tables.layerRow, layers]
  exact known

theorem insertEvents_ok {rows : List EventRow} (appendable : Appendable tables layerId rows)
    (inserted : rows.foldlM (fun tables row => tables.insertEvent row) tables = .ok next) :
    ((rowsOf tables layerId ++ rows).map fun row => row.eventId).Nodup ∧ next.layers = tables.layers ∧
      next.events = tables.events ++ rows := by
  induction rows generalizing tables with
  | nil =>
    cases inserted
    rw [List.append_nil, List.append_nil]
    exact ⟨rowsOf_ids _ _, rfl, rfl⟩
  | cons row rows ih =>
    rw [List.foldlM_cons] at inserted
    obtain ⟨middle, first, later⟩ := bind_ok_iff.mp inserted
    obtain ⟨again, grown⟩ := appendable.cons first
    obtain ⟨-, -, -, -, -, layers, events⟩ := insertEvent_ok.mp first
    obtain ⟨distinct, kept, added⟩ := ih again later
    rw [grown, List.append_assoc] at distinct
    rw [events, List.append_assoc] at added
    exact ⟨distinct, kept.trans layers, added⟩

theorem insertEvents_accepts {rows : List EventRow} (appendable : Appendable tables layerId rows)
    (known : tables.hasLayer layerId = true)
    (distinct : ((rowsOf tables layerId ++ rows).map fun row => row.eventId).Nodup) :
    ∃ next, rows.foldlM (fun tables row => tables.insertEvent row) tables = .ok next := by
  induction rows generalizing tables with
  | nil => exact ⟨tables, rfl⟩
  | cons row rows ih =>
    have fresh : row.eventId ∉ (rowsOf tables layerId).map fun row => row.eventId := by
      rw [List.map_append, List.nodup_append'] at distinct
      exact fun member => distinct.2.2 member (by simp)
    obtain ⟨middle, first⟩ := appendable.insertEvent known fresh
    obtain ⟨again, grown⟩ := appendable.cons first
    obtain ⟨-, -, -, -, -, layers, -⟩ := insertEvent_ok.mp first
    obtain ⟨next, later⟩ := ih again (hasLayer_congr layers known) (by
      rw [grown, List.append_assoc]
      exact distinct)
    exact ⟨next, by rw [List.foldlM_cons]; exact bind_ok_iff.mpr ⟨middle, first, later⟩⟩

section Layers

variable {row : LayerRow}

theorem insertLayer_ok {registered : String → Bool} : tables.insertLayer registered row = .ok next ↔
    row.layerId ∉ tables.layers.map (fun row => row.layerId) ∧
      (∀ owner, row.productRepoId = some owner → owner ∉ tables.layers.filterMap fun row => row.productRepoId) ∧
      row.productRepoId.all registered = true ∧ next.layers = tables.layers ++ [row] ∧
      next.events = tables.events := by
  unfold Tables.insertLayer
  split
  · next free =>
    constructor
    · intro accepted
      obtain ⟨_, known, accepted⟩ := bind_ok_iff.mp accepted
      cases accepted
      exact ⟨free.1, free.2, require_ok_iff.mp known, rfl, rfl⟩
    · rintro ⟨-, -, known, layers, events⟩
      refine bind_ok_iff.mpr ⟨(), require_ok_iff.mpr known, ?_⟩
      exact congrArg Except.ok (Tables.ext_rows layers.symm events.symm)
  · next taken =>
    constructor
    · intro accepted
      cases accepted
    · rintro ⟨fresh, unowned, -⟩
      exact absurd ⟨fresh, unowned⟩ taken

theorem layerRow_layerId (found : tables.layerRow layerId = some row) : row.layerId = layerId := by
  simpa using List.find?_some found

theorem find_layerId {rows : List LayerRow} (unique : (rows.map fun row => row.layerId).Nodup) (member : row ∈ rows) :
    rows.find? (fun held => held.layerId = row.layerId) = some row := by
  induction rows with
  | nil => cases member
  | cons first rest ih =>
    rw [List.map_cons, List.nodup_cons] at unique
    rcases List.mem_cons.mp member with rfl | later
    · simp
    · have apart : first.layerId ≠ row.layerId := fun same => unique.1 (same ▸ List.mem_map_of_mem later)
      rw [List.find?_cons_of_neg (by simpa using apart)]
      exact ih unique.2 later

theorem layerRow_mem (member : row ∈ tables.layers) : tables.layerRow row.layerId = some row :=
  find_layerId tables.layerKeys member

theorem layerRow_eq_none : tables.layerRow layerId = none ↔ layerId ∉ tables.layers.map fun row => row.layerId := by
  simp [Tables.layerRow, List.find?_eq_none]

theorem layerRow_append (layers : next.layers = tables.layers ++ [row])
    (fresh : row.layerId ∉ tables.layers.map fun row => row.layerId) (other : String) :
    next.layerRow other = if other = row.layerId then some row else tables.layerRow other := by
  rw [Tables.layerRow, layers, List.find?_append]
  by_cases here : other = row.layerId
  · subst here
    have absent := layerRow_eq_none.mpr fresh
    rw [Tables.layerRow] at absent
    simp [absent]
  · rw [if_neg here, List.find?_cons_of_neg (by simpa using Ne.symm here), List.find?_nil, Option.or_none]
    rfl

theorem layerRow_update (values : LayerValues) (other : String) :
    (tables.updateLayer layerId values).layerRow other =
      (tables.layerRow other).map fun row => if row.layerId = layerId then { row with values := values } else row := by
  simp only [Tables.layerRow, Tables.updateLayer, List.find?_map]
  congr 2
  funext row
  rw [Function.comp_apply]
  split_ifs <;> rfl

end Layers

end LedgerProof
