import TraustLedger.Backends.Guards
import TraustLedger.Proofs.TableProofs

namespace LedgerProof

open Runs LedgerModel

variable {dialect : Dialect} {registered : String → Bool} {held next : GuardedTables} {execution : Execution}

def Numbered (tables : Tables) : Prop :=
  ∀ layerId, seqsOf (rowsOf tables layerId) = List.range (rowsOf tables layerId).length

/-- The statement puts a new event in the place of a stored one, which SQLite lets it do past the delete trigger: it
    carries the primary key of a stored event, or the id of an event of its layer. -/
def Replaces (dialect : Dialect) (held : GuardedTables) (execution : Execution) : Prop :=
  dialect = .sqlite ∧ ∃ row stored, execution.statement = .insertEvent true row ∧ stored ∈ held.events ∧
    (stored.id = row.id ∨ stored.layerId = row.layerId ∧ stored.eventId = row.eventId)

section Statements

theorem tables_events (held : GuardedTables) : held.tables.events = held.events.map KeyedEvent.toEventRow := rfl

theorem withEvents_ok {events : List KeyedEvent} (accepted : withEvents held events = .ok next) :
    next.layers = held.layers ∧ next.events = events := by
  unfold withEvents at accepted
  split at accepted
  · cases accepted
    exact ⟨rfl, rfl⟩
  · cases accepted

theorem withLayers_ok {layers : List LayerRow} (accepted : withLayers held layers = .ok next) :
    next.layers = layers ∧ next.events = held.events := by
  unfold withLayers at accepted
  split at accepted
  · cases accepted
    exact ⟨rfl, rfl⟩
  · cases accepted

theorem insertGuarded_ok {foreignKeys orReplace : Bool} {row : KeyedEvent}
    (accepted : insertGuarded dialect held foreignKeys orReplace row = .ok next) :
    row.seq = held.tables.nextSeq row.layerId ∧ (orReplace = true → dialect = .sqlite) ∧ next.layers = held.layers ∧
      next.events = standing held orReplace row ++ [row] := by
  obtain ⟨_, appends, rest⟩ := bind_ok_iff.mp accepted
  obtain ⟨_, spoken, rest⟩ := bind_ok_iff.mp rest
  obtain ⟨layers, events⟩ := withEvents_ok (gate_passed rest)
  rw [require_ok_iff] at appends spoken
  refine ⟨appends.2, ?_, layers, events⟩
  intro replaced
  exact spoken.resolve_left (by simp [replaced])

/-- What an accepted statement can do to the events: nothing, or one more at the end of those that stay. -/
theorem execute_events (accepted : execute dialect registered held execution = .ok next) :
    next.events = held.events ∨ ∃ orReplace row, execution.statement = .insertEvent orReplace row ∧
      row.seq = held.tables.nextSeq row.layerId ∧ (orReplace = true → dialect = .sqlite) ∧
      next.events = standing held orReplace row ++ [row] := by
  unfold execute at accepted
  split at accepted
  · next orReplace row statement =>
    obtain ⟨sequenced, spoken, _, events⟩ := insertGuarded_ok accepted
    exact .inr ⟨orReplace, row, statement, sequenced, spoken, events⟩
  · split at accepted
    · cases accepted
    · cases accepted
      exact .inl rfl
  · split at accepted
    · cases accepted
    · cases accepted
      exact .inl rfl
  · cases accepted
  · exact .inl (withLayers_ok (gate_passed (gate_passed accepted))).2
  · exact .inl (withLayers_ok (gate_passed accepted)).2
  · split at accepted
    · cases accepted
    · cases accepted
      exact .inl rfl
  · cases accepted

end Statements

section Histories

theorem seq_lt_of_numbered (numbered : Numbered held.tables) {stored : KeyedEvent} (member : stored ∈ held.events) :
    stored.seq < held.tables.nextSeq stored.layerId := by
  rw [nextSeq_eq (numbered stored.layerId)]
  have listed : stored.seq ∈ seqsOf (rowsOf held.tables stored.layerId) :=
    List.mem_map_of_mem (mem_rowsOf.mpr ⟨List.mem_map_of_mem member, rfl⟩)
  rw [numbered stored.layerId] at listed
  exact List.mem_range.mp listed

theorem standing_of_not_replaces (numbered : Numbered held.tables) {orReplace : Bool} {row : KeyedEvent}
    (statement : execution.statement = .insertEvent orReplace row) (spoken : orReplace = true → dialect = .sqlite)
    (sequenced : row.seq = held.tables.nextSeq row.layerId) (fresh : ¬ Replaces dialect held execution) :
    standing held orReplace row = held.events := by
  unfold standing
  split
  · next replaced =>
    rw [List.filter_eq_self]
    intro stored member
    rw [Bool.not_eq_true', collides, Bool.or_eq_false_iff, Bool.and_eq_false_iff, Bool.or_eq_false_iff,
      beq_eq_false_iff_ne, beq_eq_false_iff_ne, beq_eq_false_iff_ne, beq_eq_false_iff_ne]
    refine ⟨fun sameKey => ?_, ?_⟩
    · exact fresh ⟨spoken replaced, row, stored, replaced ▸ statement, member, Or.inl sameKey⟩
    by_cases same : stored.layerId = row.layerId
    · right
      have earlier := seq_lt_of_numbered numbered member
      rw [same, ← sequenced] at earlier
      refine ⟨Nat.ne_of_lt earlier, fun sameId => ?_⟩
      exact fresh ⟨spoken replaced, row, stored, replaced ▸ statement, member, Or.inr ⟨same, sameId⟩⟩
    · exact Or.inl same
  · rfl

theorem rows_appended {tables later : Tables} (numbered : Numbered tables) {row : EventRow}
    (sequenced : row.seq = tables.nextSeq row.layerId)
    (events : later.events = tables.events ++ [row]) (layerId : String) :
    seqsOf (rowsOf later layerId) = List.range (rowsOf later layerId).length ∧
      rowsOf tables layerId <+: rowsOf later layerId := by
  by_cases here : layerId = row.layerId
  · subst here
    have grown : rowsOf later row.layerId = rowsOf tables row.layerId ++ [row] :=
      rowsOf_append events fun held member => by rw [List.mem_singleton.mp member]
    rw [nextSeq_eq (numbered row.layerId)] at sequenced
    rw [grown]
    refine ⟨?_, List.prefix_append _ _⟩
    unfold seqsOf at *
    rw [List.map_append, List.length_append]
    have held := numbered row.layerId
    unfold seqsOf at held
    rw [held, List.length_singleton, List.range_succ, List.map_singleton, sequenced]
  · have same : rowsOf later layerId = rowsOf tables layerId :=
      rowsOf_append_other events (fun held member => by rw [List.mem_singleton.mp member]) here
    rw [same]
    exact ⟨numbered layerId, List.prefix_refl _⟩

theorem execute_keeps (numbered : Numbered held.tables)
    (accepted : execute dialect registered held execution = .ok next) (fresh : ¬ Replaces dialect held execution) :
    Numbered next.tables ∧ ∀ layerId, rowsOf held.tables layerId <+: rowsOf next.tables layerId := by
  rcases execute_events accepted with same | ⟨orReplace, row, statement, sequenced, spoken, events⟩
  · have rows : ∀ layerId, rowsOf next.tables layerId = rowsOf held.tables layerId := by
      intro layerId
      rw [rowsOf, rowsOf, tables_events, tables_events, same]
    refine ⟨?_, ?_⟩
    · intro layerId
      rw [rows]
      exact numbered layerId
    · intro layerId
      exact ⟨[], by rw [rows, List.append_nil]⟩
  · rw [standing_of_not_replaces numbered statement spoken sequenced fresh] at events
    have grown : next.tables.events = held.tables.events ++ [row.toEventRow] := by
      rw [tables_events, tables_events, events, List.map_append, List.map_singleton]
    have appended := rows_appended numbered sequenced grown
    exact ⟨fun layerId => (appended layerId).1, fun layerId => (appended layerId).2⟩

theorem hasLayer_iff {tables : Tables} {layerId : String} :
    tables.hasLayer layerId = true ↔ layerId ∈ tables.layers.map (·.layerId) := by
  rw [Tables.hasLayer, Option.isSome_iff_ne_none, ne_eq, layerRow_eq_none, not_not]

theorem leavesNoOrphan_keeps {layers : List LayerRow} (checked : leavesNoOrphan held layers = true)
    {event : KeyedEvent} (member : event ∈ held.events) (known : held.tables.hasLayer event.layerId = true) :
    event.layerId ∈ layers.map (·.layerId) := by
  have kept := List.all_eq_true.mp checked event member
  rw [known, Bool.not_true, Bool.false_or, List.contains_iff_mem] at kept
  exact kept

theorem execute_layers (enforced : enforces dialect execution.foreignKeys = true)
    (accepted : execute dialect registered held execution = .ok next) {event : KeyedEvent}
    (member : event ∈ held.events) (known : held.tables.hasLayer event.layerId = true) :
    next.tables.hasLayer event.layerId = true := by
  unfold execute at accepted
  split at accepted
  · have layers : next.tables.layers = held.tables.layers := (insertGuarded_ok accepted).2.2.1
    exact hasLayer_congr layers known
  · split at accepted
    · cases accepted
    · cases accepted
      exact known
  · split at accepted
    · cases accepted
    · cases accepted
      exact known
  · cases accepted
  · obtain ⟨_, checked, rest⟩ := bind_ok_iff.mp (gate_passed accepted)
    have kept := (require_ok_iff.mp checked).resolve_left (by simp [enforced])
    rw [hasLayer_iff]
    have layers : next.tables.layers = _ := (withLayers_ok rest).1
    rw [layers, List.map_append]
    exact List.mem_append_left _ (leavesNoOrphan_keeps kept.2 member known)
  · obtain ⟨_, checked, rest⟩ := bind_ok_iff.mp accepted
    have kept := (require_ok_iff.mp checked).resolve_left (by simp [enforced])
    rw [hasLayer_iff]
    have layers : next.tables.layers = _ := (withLayers_ok rest).1
    rw [layers]
    exact leavesNoOrphan_keeps kept.1 member known
  · split at accepted
    · cases accepted
    · cases accepted
      exact known
  · cases accepted

theorem mem_eventRows {tables : Tables} {row : EventRow} {layerId : String} :
    row ∈ tables.eventRows layerId ↔ row ∈ tables.events ∧ row.layerId = layerId := by
  rw [Tables.eventRows, List.mem_insertionSort, ← mem_rowsOf]
  rfl

/-- A row that was replaced is not read again: the one that came in has a later number. -/
theorem replaced_gone (numbered : Numbered held.tables) {row stored : KeyedEvent} (member : stored ∈ held.events)
    (sequenced : row.seq = held.tables.nextSeq row.layerId) (collision : collides row stored = true)
    (events : next.events = standing held true row ++ [row]) : stored.toEventRow ∉ next.tables.events := by
  intro still
  obtain ⟨kept, there, same⟩ := List.mem_map.mp still
  rw [events, List.mem_append, List.mem_singleton] at there
  rcases there with stands | rfl
  · obtain ⟨alsoMember, clear⟩ := List.mem_filter.mp stands
    have identical : kept = stored := List.inj_on_of_nodup_map held.eventSeqs alsoMember member (by rw [same])
    rw [identical, collision] at clear
    cases clear
  · have earlier := seq_lt_of_numbered numbered member
    rw [← same, ← sequenced] at earlier
    exact absurd earlier (Nat.lt_irrefl _)

end Histories

/-- An accepted statement keeps every layer's history as the start of the new one exactly when it does not put an
    event in the place of a stored one. PostgreSQL has no such statement. -/
theorem history_kept_iff (dialect : Dialect) (registered : String → Bool) {held next : GuardedTables}
    {execution : Execution} (numbered : Numbered held.tables)
    (accepted : execute dialect registered held execution = .ok next) :
    (∀ layerId, held.tables.eventRows layerId <+: next.tables.eventRows layerId) ↔
      ¬ Replaces dialect held execution := by
  constructor
  · rintro kept ⟨_, row, stored, statement, member, key⟩
    have collision : collides row stored = true := by
      rcases key with sameKey | ⟨sameLayer, sameId⟩
      · simp [collides, sameKey]
      · simp [collides, sameLayer, sameId]
    simp only [execute, statement] at accepted
    obtain ⟨sequenced, _, _, events⟩ := insertGuarded_ok accepted
    have listed := (kept stored.layerId).subset (mem_eventRows.mpr ⟨List.mem_map_of_mem member, rfl⟩)
    exact replaced_gone numbered member sequenced collision events (mem_eventRows.mp listed).1
  · intro fresh layerId
    obtain ⟨renumbered, kept⟩ := execute_keeps numbered accepted fresh
    rw [eventRows_eq (numbered layerId), eventRows_eq (renumbered layerId)]
    exact kept layerId

structure GrownFrom (start : Tables) (enforced : Prop) (tables : Tables) : Prop where
  numbered : Numbered tables
  grows : ∀ layerId, rowsOf start layerId <+: rowsOf tables layerId
  layers : enforced → ∀ event ∈ start.events, start.hasLayer event.layerId = true →
    tables.hasLayer event.layerId = true

theorem GrownFrom.step {start : Tables} {enforced : Prop} (grown : GrownFrom start enforced held.tables)
    (checks : enforced → enforces dialect execution.foreignKeys = true)
    (accepted : execute dialect registered held execution = .ok next) (fresh : ¬ Replaces dialect held execution) :
    GrownFrom start enforced next.tables := by
  obtain ⟨renumbered, kept⟩ := execute_keeps grown.numbered accepted fresh
  refine ⟨renumbered, fun layerId => (grown.grows layerId).trans (kept layerId), ?_⟩
  intro checked event member known
  have still : event ∈ held.tables.events :=
    (mem_rowsOf.mp ((grown.grows event.layerId).subset (mem_rowsOf.mpr ⟨member, rfl⟩))).1
  obtain ⟨stored, there, rfl⟩ := List.mem_map.mp still
  exact execute_layers (checks checked) accepted there (grown.layers checked _ member known)

/-- Over any run of statements by any clients, none of which puts an event in the place of a stored one, every layer's
    history only grows at its end and stays numbered without a gap; and where foreign keys are checked no event ever
    loses its layer. -/
theorem guarded_history_grows {dialect : Dialect} {registered : String → Bool} {start : GuardedTables}
    {executions : List Execution} (numbered : Numbered start.tables)
    (fresh : Along (execute dialect registered) (fun held execution => ¬ Replaces dialect held execution) start
      executions) :
    Numbered (run (execute dialect registered) start executions).tables ∧
      (∀ layerId, start.tables.eventRows layerId <+:
        (run (execute dialect registered) start executions).tables.eventRows layerId) ∧
      ((∀ execution ∈ executions, enforces dialect execution.foreignKeys = true) → ∀ event ∈ start.tables.events,
        start.tables.hasLayer event.layerId = true →
          (run (execute dialect registered) start executions).tables.hasLayer event.layerId = true) := by
  have grown : GrownFrom start.tables (∀ execution ∈ executions, enforces dialect execution.foreignKeys = true)
      (run (execute dialect registered) start executions).tables := by
    refine run_invariant_mem (fun held execution next member
      (grown : GrownFrom start.tables (∀ execution ∈ executions, enforces dialect execution.foreignKeys = true)
        held.tables) untouched accepted => ?_) ?_ fresh
    · exact grown.step (fun all => all execution member) accepted untouched
    · exact ⟨numbered, fun layerId => List.prefix_refl _, fun _ _ _ known => known⟩
  refine ⟨grown.numbered, ?_, grown.layers⟩
  intro layerId
  rw [eventRows_eq (numbered layerId), eventRows_eq (grown.numbered layerId)]
  exact grown.grows layerId

section Replacing

def guardedLayer : LayerRow := ⟨"acme", none, ⟨[], [], [], []⟩⟩

def firstEvent : KeyedEvent := ⟨⟨"acme", 0, "evt-1", [1]⟩, 1⟩

def guardedTables : GuardedTables :=
  ⟨[guardedLayer], [firstEvent], by decide, by decide, by decide, by decide, by decide⟩

def appendSecond (orReplace : Bool) (id : Int) : Execution :=
  ⟨true, .insertEvent orReplace ⟨⟨"acme", 1, "evt-2", [2]⟩, id⟩⟩

theorem guardedTables_numbered : Numbered guardedTables.tables := by
  intro layerId
  by_cases here : "acme" = layerId
  · subst here
    decide
  · simp [rowsOf, GuardedTables.tables, guardedTables, firstEvent, here, seqsOf]

theorem history_kept_iff_replaced : ∃ next,
    execute .sqlite (fun _ => true) guardedTables (appendSecond true 1) = .ok next ∧
      ¬ ∀ layerId, guardedTables.tables.eventRows layerId <+: next.tables.eventRows layerId := by
  obtain ⟨next, accepted⟩ := exists_of_isOk
    (show (execute .sqlite (fun _ => true) guardedTables (appendSecond true 1)).isOk = true by decide)
  refine ⟨next, accepted, ?_⟩
  rw [history_kept_iff .sqlite (fun _ => true) guardedTables_numbered accepted, not_not]
  exact ⟨rfl, _, firstEvent, rfl, List.mem_singleton_self _, Or.inl rfl⟩

def clientStatements : List Execution :=
  [appendSecond false 2, ⟨false, .deleteEvents fun _ => true⟩, ⟨true, .insertLayer true guardedLayer⟩,
    ⟨true, .updateLayers (fun _ => true) id⟩]

theorem guarded_history_grows_clients :
    guardedTables.tables.eventRows "acme" <+:
      (run (execute .sqlite fun _ => true) guardedTables clientStatements).tables.eventRows "acme" := by
  have plain : ∀ {held : GuardedTables} {execution : Execution}, (∀ row, execution.statement ≠ .insertEvent true row) →
      ¬ Replaces .sqlite held execution := by
    rintro held execution other ⟨_, row, _, statement, _⟩
    exact other row statement
  have fresh : Along (execute .sqlite fun _ => true) (fun held execution => ¬ Replaces .sqlite held execution)
      guardedTables clientStatements := by
    refine ⟨fun _ => plain ?_, fun _ => plain ?_, fun _ => plain ?_, fun _ => plain ?_, trivial⟩ <;>
    · intro row same
      cases same
  exact (guarded_history_grows guardedTables_numbered fresh).2.1 "acme"

end Replacing

end LedgerProof
