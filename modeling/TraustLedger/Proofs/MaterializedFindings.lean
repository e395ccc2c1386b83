import TraustLedger.Projection
import TraustLedger.Proofs.FindingPartition

namespace LedgerProof

open Hashing Python Runs Sha256 KeyedTables LedgerModel

def ofLayer (layerId : String) (key : String × String) : Bool := key.1 == layerId

def rowsFor (table : Projection) (layerId : String) : List ProjectionRow :=
  table.rows.filter fun row => ofLayer layerId row.key

def Bound (row : ProjectionRow) : Prop := bindable row.merkleRoot = true ∧ bindable row.merkleEpoch = true

abbrev Planned := String × List ProjectionRow

structure WellPlanned (entry : Planned) : Prop where
  layer : ∀ row ∈ entry.2, row.layerId = entry.1
  distinct : (entry.2.map ProjectionRow.key).Nodup

def refresh (pruneEmpty : Bool) (table : Projection) (entry : Planned) : Projection :=
  if entry.2 = [] ∧ pruneEmpty = false then table else table.replace (ofLayer entry.1) entry.2

def refreshAll (pruneEmpty : Bool) (table : Projection) (planned : List Planned) : Projection :=
  planned.foldl (refresh pruneEmpty) table

section Upserting

variable {table next : Projection} {layerId : String} {rows : List ProjectionRow} {pruneEmpty : Bool}

theorem upsertRow_ok_iff {row : ProjectionRow} :
    upsertRow table row = .ok next ↔ Bound row ∧ next = table.put row := by
  unfold upsertRow
  simp only [bind_ok_iff, require_ok_iff, exists_const]
  refine and_congr_right fun _ => ?_
  cases found : table.select row.key with
  | some held =>
    rw [Table.put_taken found]
    simp [pure, Except.pure, eq_comm]
  | none =>
    simp only [Table.insert_free found]
    simp [pure, Except.pure, eq_comm]

theorem foldlM_upsertRow_ok_iff :
    rows.foldlM upsertRow table = .ok next ↔ (∀ row ∈ rows, Bound row) ∧ next = table.putAll rows := by
  induction rows generalizing table with
  | nil => simp [Table.putAll, pure, Except.pure, eq_comm]
  | cons row rest ih =>
    rw [List.foldlM_cons, bind_ok_iff, List.forall_mem_cons]
    simp only [upsertRow_ok_iff]
    constructor
    · rintro ⟨_, ⟨bound, rfl⟩, later⟩
      rcases ih.mp later with ⟨others, rfl⟩
      exact ⟨⟨bound, others⟩, rfl⟩
    · rintro ⟨⟨bound, others⟩, rfl⟩
      exact ⟨_, ⟨bound, rfl⟩, ih.mpr ⟨others, rfl⟩⟩

theorem upsertLayer_ok_iff (well : WellPlanned (layerId, rows)) :
    upsertLayer table layerId rows pruneEmpty = .ok next ↔
      (∀ row ∈ rows, Bound row) ∧ next = refresh pruneEmpty table (layerId, rows) := by
  unfold upsertLayer refresh
  by_cases skipped : rows = [] ∧ pruneEmpty = false
  · rcases skipped with ⟨rfl, rfl⟩
    simp [pure, Except.pure, eq_comm]
  · rw [if_neg (by simpa using skipped), if_neg skipped, foldlM_upsertRow_ok_iff]
    have stale : (fun row : ProjectionRow => row.layerId == layerId &&
        !(rows.map fun row => row.findingRef).contains row.findingRef) =
        fun row => ofLayer layerId row.key && decide (row.key ∉ rows.map ProjectionRow.key) := by
      funext row
      rw [ofLayer, ProjectionRow.key]
      cases here : row.layerId == layerId with
      | false => rfl
      | true =>
        rw [beq_iff_eq] at here
        rw [Bool.true_and, Bool.true_and, decide_not, Bool.not_inj_iff, Bool.eq_iff_iff, List.contains_iff_mem,
          decide_eq_true_iff, List.mem_map, List.mem_map]
        constructor
        · rintro ⟨other, member, same⟩
          exact ⟨other, member, Prod.ext ((well.layer other member).trans here.symm) same⟩
        · rintro ⟨other, member, same⟩
          exact ⟨other, member, (Prod.ext_iff.mp same).2⟩
    rw [stale, Table.replace]
    refine and_congr_right fun _ => ?_
    congr!

end Upserting

section Refreshing

variable {table : Projection} {layerId other : String} {rows : List ProjectionRow} {pruneEmpty : Bool}
  {entry : Planned} {planned : List Planned}

theorem WellPlanned.inside (well : WellPlanned entry) : ∀ row ∈ entry.2, ofLayer entry.1 row.key = true := by
  intro row member
  simpa [ofLayer, ProjectionRow.key] using well.layer row member

theorem rowsFor_refresh_other (pruneEmpty : Bool) (table : Projection) (well : WellPlanned entry)
    (apart : other ≠ entry.1) : rowsFor (refresh pruneEmpty table entry) other = rowsFor table other := by
  unfold refresh
  split_ifs
  · rfl
  · apply Table.replace_outside well.distinct well.inside
    intro key here
    rw [ofLayer, beq_iff_eq] at here
    simpa [ofLayer, here] using Ne.symm apart

theorem rowsFor_refresh_self (well : WellPlanned entry) (written : ¬ (entry.2 = [] ∧ pruneEmpty = false)) :
    (rowsFor (refresh pruneEmpty table entry) entry.1).Perm entry.2 := by
  rw [refresh, if_neg written]
  exact Table.replace_within well.distinct well.inside

theorem rowsFor_refreshAll_other (well : ∀ entry ∈ planned, WellPlanned entry) (absent : other ∉ planned.map Prod.fst) :
    rowsFor (refreshAll pruneEmpty table planned) other = rowsFor table other := by
  induction planned generalizing table with
  | nil => rfl
  | cons entry rest ih =>
    rw [List.forall_mem_cons] at well
    rw [List.map_cons, List.mem_cons, not_or] at absent
    rw [refreshAll, List.foldl_cons, ← refreshAll, ih well.2 absent.2,
      rowsFor_refresh_other pruneEmpty table well.1 absent.1]

theorem rowsFor_refreshAll (well : ∀ entry ∈ planned, WellPlanned entry) (distinct : (planned.map Prod.fst).Nodup)
    (member : (layerId, rows) ∈ planned) :
    (rows = [] ∧ pruneEmpty = false → rowsFor (refreshAll pruneEmpty table planned) layerId = rowsFor table layerId) ∧
      (¬ (rows = [] ∧ pruneEmpty = false) → (rowsFor (refreshAll pruneEmpty table planned) layerId).Perm rows) := by
  induction planned generalizing table with
  | nil => cases member
  | cons entry rest ih =>
    rw [List.forall_mem_cons] at well
    rw [List.map_cons, List.nodup_cons] at distinct
    rw [refreshAll, List.foldl_cons, ← refreshAll]
    rcases List.mem_cons.mp member with rfl | later
    · rw [rowsFor_refreshAll_other well.2 distinct.1]
      refine ⟨fun skipped => ?_, fun written => rowsFor_refresh_self well.1 written⟩
      rw [refresh, if_pos skipped]
    · have apart : layerId ≠ entry.1 := by
        rintro rfl
        exact distinct.1 (List.mem_map.mpr ⟨_, later, rfl⟩)
      rw [← rowsFor_refresh_other pruneEmpty table well.1 apart]
      exact ih well.2 distinct.2 later

end Refreshing

section Planning

variable (env : Env) (nowText : String) (now : Int) (args : MaterializeArgs)

def plan : List (String × Outcome Layer) → Outcome (List Planned)
  | [] => return []
  | (layerId, read) :: source => do
    let layer ← read
    if isSwept args layerId = false then plan source
    else
      let rows ← layerRows env nowText now layerId layer
      let later ← plan source
      return (layerId, rows) :: later

variable {env nowText now args} {layerId : String} {layer : Layer} {rows : List ProjectionRow}
  {source : List (String × Outcome Layer)} {planned : List Planned}

theorem layerRows_ok_iff : layerRows env nowText now layerId layer = .ok rows ↔ ∃ findings summary,
    resolveLayerFindings env.contracts env.fromIsoFormat nowText layer = .ok (findings, summary) ∧
      rows = findings.map fun finding =>
        buildRow layerId finding (layer.metadata.get "merkle_root") (layer.metadata.get "merkle_epoch") now := by
  unfold layerRows
  rw [bind_ok_iff]
  constructor
  · rintro ⟨⟨findings, summary⟩, resolved, result⟩
    cases result
    exact ⟨findings, summary, resolved, rfl⟩
  · rintro ⟨findings, summary, resolved, rfl⟩
    exact ⟨(findings, summary), resolved, rfl⟩

theorem findingRefs_distinct {findings : List FindingDisposition} {summary : FindingsSummary}
    (resolved : resolveLayerFindings env.contracts env.fromIsoFormat nowText layer = .ok (findings, summary)) :
    (findings.map fun finding => finding.findingRef).Nodup := by
  rcases resolveLayerFindings_named resolved with ⟨_, _, groups, named, -, -, walked, sorted, pairs, -⟩
  have increasing := sortedFindings_increasing (byFinding_ok walked).distinct sorted
  have names : findings.map (fun finding => finding.findingRef) = named.map Prod.fst := by
    clear sorted increasing resolved
    induction pairs with
    | nil => rfl
    | cons head _ ih => rw [List.map_cons, List.map_cons, ih, (resolveFinding_ok head).1]
  rw [names, List.Nodup, List.pairwise_map]
  refine increasing.imp fun before same => ?_
  exact Dict.ne_of_precedes before same.symm

theorem layerRows_wellPlanned (resolved : layerRows env nowText now layerId layer = .ok rows) :
    WellPlanned (layerId, rows) := by
  rcases layerRows_ok_iff.mp resolved with ⟨findings, summary, known, rfl⟩
  refine ⟨?_, ?_⟩
  · intro row member
    rcases List.mem_map.mp member with ⟨finding, -, rfl⟩
    rfl
  · have keys : (findings.map fun finding => buildRow layerId finding (layer.metadata.get "merkle_root")
        (layer.metadata.get "merkle_epoch") now).map ProjectionRow.key =
        (findings.map fun finding => finding.findingRef).map fun ref => (layerId, ref) := by
      rw [List.map_map, List.map_map]
      rfl
    rw [keys]
    exact (findingRefs_distinct known).map fun _ _ same => (Prod.ext_iff.mp same).2

theorem plan_cons_ok_iff {read : Outcome Layer} :
    plan env nowText now args ((layerId, read) :: source) = .ok planned ↔ ∃ layer, read = .ok layer ∧
      if isSwept args layerId = false then plan env nowText now args source = .ok planned
      else ∃ rows later, layerRows env nowText now layerId layer = .ok rows ∧
        plan env nowText now args source = .ok later ∧ planned = (layerId, rows) :: later := by
  rw [plan, bind_ok_iff]
  refine exists_congr fun layer => and_congr_right fun _ => ?_
  split_ifs
  · rfl
  · simp only [bind_ok_iff, pure, Except.pure, Except.ok.injEq]
    constructor
    · rintro ⟨rows, resolved, later, rest, rfl⟩
      exact ⟨rows, later, resolved, rest, rfl⟩
    · rintro ⟨rows, later, resolved, rest, rfl⟩
      exact ⟨rows, resolved, later, rest, rfl⟩

theorem mem_plan (resolved : plan env nowText now args source = .ok planned) : (layerId, rows) ∈ planned ↔
    ∃ layer, (layerId, .ok layer) ∈ source ∧ isSwept args layerId = true ∧
      layerRows env nowText now layerId layer = .ok rows := by
  induction source generalizing planned with
  | nil =>
    cases resolved
    simp
  | cons head source ih =>
    rcases head with ⟨first, read⟩
    rcases plan_cons_ok_iff.mp resolved with ⟨layer, rfl, chosen⟩
    split_ifs at chosen with skipped
    · rw [ih chosen]
      refine exists_congr fun other => ?_
      constructor
      · rintro ⟨member, selected⟩
        exact ⟨List.mem_cons_of_mem _ member, selected⟩
      · rintro ⟨member, selected, known⟩
        rcases List.mem_cons.mp member with same | later
        · cases same
          rw [skipped] at selected
          cases selected
        · exact ⟨later, selected, known⟩
    · rcases chosen with ⟨found, later, known, rest, rfl⟩
      rw [List.mem_cons, ih rest]
      constructor
      · rintro (same | ⟨other, member, selected⟩)
        · cases same
          exact ⟨layer, List.mem_cons_self, by simpa using skipped, known⟩
        · exact ⟨other, List.mem_cons_of_mem _ member, selected⟩
      · rintro ⟨other, member, selected, computed⟩
        rcases List.mem_cons.mp member with same | later
        · cases same
          cases known.symm.trans computed
          exact .inl rfl
        · exact .inr ⟨other, later, selected, computed⟩

theorem plan_ids (resolved : plan env nowText now args source = .ok planned) :
    planned.map Prod.fst = (source.map Prod.fst).filter (isSwept args) := by
  induction source generalizing planned with
  | nil =>
    cases resolved
    rfl
  | cons head source ih =>
    rcases head with ⟨first, read⟩
    rcases plan_cons_ok_iff.mp resolved with ⟨layer, rfl, chosen⟩
    rw [List.map_cons, List.filter_cons]
    split_ifs at chosen with skipped
    · rw [if_neg (by simp [skipped]), ih chosen]
    · rcases chosen with ⟨found, later, known, rest, rfl⟩
      rw [if_pos (by simpa using skipped), List.map_cons, ih rest]

theorem plan_wellPlanned (resolved : plan env nowText now args source = .ok planned) :
    ∀ entry ∈ planned, WellPlanned entry := by
  rintro ⟨layerId, rows⟩ member
  rcases (mem_plan resolved).mp member with ⟨layer, -, -, known⟩
  exact layerRows_wellPlanned known

theorem plan_distinct (distinct : (source.map Prod.fst).Nodup)
    (resolved : plan env nowText now args source = .ok planned) : (planned.map Prod.fst).Nodup := by
  rw [plan_ids resolved]
  exact distinct.filter _

def Sweep.add (swept : Sweep) (planned : List Planned) : Sweep where
  totalLayers := swept.totalLayers + planned.length
  totalFindings := swept.totalFindings + (planned.map fun entry => entry.2.length).sum
  seenLayers := (planned.map Prod.fst).reverse ++ swept.seenLayers

theorem materializeEach_ok_iff {table final : Projection} {swept totals : Sweep} :
    materializeEach env nowText now args table swept source = (final, .ok totals) ↔
      ∃ planned, plan env nowText now args source = .ok planned ∧ (∀ entry ∈ planned, ∀ row ∈ entry.2, Bound row) ∧
        final = refreshAll args.pruneEmpty table planned ∧ totals = Sweep.add swept planned := by
  induction source generalizing table swept with
  | nil =>
    simp [materializeEach, plan, pure, Except.pure, refreshAll, Sweep.add, eq_comm]
  | cons head source ih =>
    rcases head with ⟨layerId, read⟩
    cases read with
    | error failure => simp [materializeEach, plan, bind, Except.bind]
    | ok layer =>
      simp only [plan_cons_ok_iff, Except.ok.injEq, exists_eq_left']
      rw [materializeEach]
      by_cases skipped : isSwept args layerId = false
      · simp only [if_pos skipped]
        exact ih
      · simp only [if_neg skipped]
        cases resolved : layerRows env nowText now layerId layer with
        | error failure => simp
        | ok rows =>
          have well := layerRows_wellPlanned resolved
          simp only [Except.ok.injEq]
          constructor
          · intro ran
            cases upserted : upsertLayer table layerId rows args.pruneEmpty with
            | error failure =>
              rw [upserted] at ran
              cases ran
            | ok next =>
              rw [upserted] at ran
              rcases (upsertLayer_ok_iff well).mp upserted with ⟨bound, rfl⟩
              rcases ih.mp ran with ⟨later, rest, others, rfl, rfl⟩
              refine ⟨_, ⟨rows, later, rfl, rest, rfl⟩, List.forall_mem_cons.mpr ⟨bound, others⟩, rfl, ?_⟩
              simp only [Sweep.add, List.length_cons, List.map_cons, List.sum_cons, List.reverse_cons,
                List.append_assoc, List.singleton_append, Sweep.mk.injEq, and_true]
              omega
          · rintro ⟨_, ⟨_, later, rfl, rest, rfl⟩, bound, rfl, rfl⟩
            rw [List.forall_mem_cons] at bound
            have upserted : upsertLayer table layerId rows args.pruneEmpty =
                .ok (refresh args.pruneEmpty table (layerId, rows)) := (upsertLayer_ok_iff well).mpr ⟨bound.1, rfl⟩
            rw [upserted]
            refine ih.mpr ⟨later, rest, bound.2, rfl, ?_⟩
            simp only [Sweep.add, List.length_cons, List.map_cons, List.sum_cons, List.reverse_cons,
              List.append_assoc, List.singleton_append, Sweep.mk.injEq, and_true]
            omega

/-- A run that fails leaves what the layers before the failing one left. -/
theorem materializeEach_error {table final : Projection} {swept : Sweep} {failure : Failure}
    (failed : materializeEach env nowText now args table swept source = (final, .error failure)) :
    ∃ done failing rest totals, source = done ++ failing :: rest ∧
      materializeEach env nowText now args table swept done = (final, .ok totals) ∧
      materializeEach env nowText now args final totals [failing] = (final, .error failure) := by
  induction source generalizing table swept with
  | nil => cases failed
  | cons head source ih =>
    rcases head with ⟨layerId, read⟩
    cases read with
    | error raised =>
      cases failed
      exact ⟨[], _, source, swept, rfl, rfl, rfl⟩
    | ok layer =>
      rw [materializeEach] at failed
      -- either this layer is the one that fails, or the run goes on from what it leaves
      have onward : ∀ next counted, (∀ later, materializeEach env nowText now args table swept
            ((layerId, .ok layer) :: later) = materializeEach env nowText now args next counted later) →
          materializeEach env nowText now args next counted source = (final, .error failure) →
          ∃ done failing rest totals, (layerId, .ok layer) :: source = done ++ failing :: rest ∧
            materializeEach env nowText now args table swept done = (final, .ok totals) ∧
            materializeEach env nowText now args final totals [failing] = (final, .error failure) := by
        intro next counted unfolds failed
        rcases ih failed with ⟨done, failing, rest, totals, rfl, ran, raised⟩
        exact ⟨(layerId, .ok layer) :: done, failing, rest, totals, rfl, (unfolds done).trans ran, raised⟩
      by_cases skipped : isSwept args layerId = false
      · rw [if_pos skipped] at failed
        exact onward table swept (fun later => by rw [materializeEach, if_pos skipped]) failed
      · rw [if_neg skipped] at failed
        cases resolved : layerRows env nowText now layerId layer with
        | error raised =>
          rw [resolved] at failed
          cases failed
          exact ⟨[], _, source, swept, rfl, rfl, by rw [materializeEach, if_neg skipped, resolved]⟩
        | ok rows =>
          cases upserted : upsertLayer table layerId rows args.pruneEmpty with
          | error raised =>
            simp only [resolved, upserted] at failed
            cases failed
            exact ⟨[], _, source, swept, rfl, rfl, by simp only [materializeEach, if_neg skipped, resolved, upserted]⟩
          | ok next =>
            simp only [resolved, upserted] at failed
            refine onward next _ (fun later => ?_) failed
            rw [materializeEach, if_neg skipped]
            simp only [resolved, upserted]

theorem plan_append {done rest : List (String × Outcome Layer)} :
    plan env nowText now args (done ++ rest) = .ok planned ↔ ∃ first later,
      plan env nowText now args done = .ok first ∧ plan env nowText now args rest = .ok later ∧
        planned = first ++ later := by
  induction done generalizing planned with
  | nil => simp [plan, pure, Except.pure]
  | cons head done ih =>
    rcases head with ⟨layerId, read⟩
    simp only [List.cons_append, plan_cons_ok_iff]
    constructor
    · rintro ⟨layer, rfl, chosen⟩
      split_ifs at chosen with skipped
      · rcases ih.mp chosen with ⟨first, later, early, late, rfl⟩
        exact ⟨first, later, ⟨layer, rfl, by rwa [if_pos skipped]⟩, late, rfl⟩
      · rcases chosen with ⟨rows, others, known, walked, rfl⟩
        rcases ih.mp walked with ⟨first, later, early, late, rfl⟩
        refine ⟨(layerId, rows) :: first, later, ⟨layer, rfl, ?_⟩, late, rfl⟩
        rw [if_neg skipped]
        exact ⟨rows, first, known, early, rfl⟩
    · rintro ⟨first, later, ⟨layer, rfl, chosen⟩, late, rfl⟩
      refine ⟨layer, rfl, ?_⟩
      split_ifs at chosen ⊢ with skipped
      · exact ih.mpr ⟨first, later, chosen, late, rfl⟩
      · rcases chosen with ⟨rows, others, known, walked, rfl⟩
        exact ⟨rows, others ++ later, known, ih.mpr ⟨others, later, walked, late, rfl⟩, rfl⟩

end Planning

section Again

variable {env : Env} {nowText : String} {now : Int} {args : MaterializeArgs} {layerId : String} {layer : Layer}
  {rows : List ProjectionRow} {source : List (String × Outcome Layer)} {planned : List Planned} {pruneEmpty : Bool}
  {table : Projection}

def restamp (later : Int) (row : ProjectionRow) : ProjectionRow := { row with materializedAt := later }

def restampAll (later : Int) (entry : Planned) : Planned := (entry.1, entry.2.map (restamp later))

theorem layerRows_later (laterText : String) (later : Int)
    (resolved : layerRows env nowText now layerId layer = .ok rows) :
    layerRows env laterText later layerId layer = .ok (rows.map (restamp later)) := by
  rcases layerRows_ok_iff.mp resolved with ⟨findings, summary, known, rfl⟩
  rw [resolveLayerFindings_time nowText laterText] at known
  refine layerRows_ok_iff.mpr ⟨findings, summary, known, ?_⟩
  rw [List.map_map]
  rfl

theorem plan_later (laterText : String) (later : Int) (resolved : plan env nowText now args source = .ok planned) :
    plan env laterText later args source = .ok (planned.map (restampAll later)) := by
  induction source generalizing planned with
  | nil =>
    cases resolved
    rfl
  | cons head source ih =>
    rcases head with ⟨first, read⟩
    rcases plan_cons_ok_iff.mp resolved with ⟨layer, rfl, chosen⟩
    refine plan_cons_ok_iff.mpr ⟨layer, rfl, ?_⟩
    split_ifs at chosen ⊢
    · exact ih chosen
    · rcases chosen with ⟨rows, others, known, rest, rfl⟩
      exact ⟨_, _, layerRows_later laterText later known, ih rest, rfl⟩

theorem bound_later {later : Int} (bound : ∀ entry ∈ planned, ∀ row ∈ entry.2, Bound row) :
    ∀ entry ∈ planned.map (restampAll later), ∀ row ∈ entry.2, Bound row := by
  intro entry member row held
  rcases List.mem_map.mp member with ⟨entry, known, rfl⟩
  rcases List.mem_map.mp held with ⟨row, stored, rfl⟩
  exact bound entry known row stored

def Current (pruneEmpty : Bool) (table : Projection) (entry : Planned) : Prop :=
  ¬ (entry.2 = [] ∧ pruneEmpty = false) → (rowsFor table entry.1).Perm entry.2

theorem refreshAll_current (pruneEmpty : Bool) (table : Projection) (well : ∀ entry ∈ planned, WellPlanned entry)
    (distinct : (planned.map Prod.fst).Nodup) :
    ∀ entry ∈ planned, Current pruneEmpty (refreshAll pruneEmpty table planned) entry :=
  fun _ member => (rowsFor_refreshAll well distinct member).2

theorem refresh_current {entry : Planned} (later : Int) (current : Current pruneEmpty table entry) :
    (refresh pruneEmpty table (restampAll later entry)).rows =
      table.rows.map fun row => if entry.1 = row.layerId ∧ entry.2 ≠ [] then restamp later row else row := by
  rcases entry with ⟨layerId, rows⟩
  have untouched : rows = [] → table.rows.map (fun row =>
      if layerId = row.layerId ∧ rows ≠ [] then restamp later row else row) = table.rows := by
    rintro rfl
    refine (List.map_congr_left fun row _ => ?_).trans (List.map_id _)
    rw [if_neg (by simp), id]
  by_cases skipped : rows = [] ∧ pruneEmpty = false
  · rw [untouched skipped.1, refresh, if_pos (by simpa [restampAll] using skipped)]
  · rw [refresh, if_neg (by simpa [restampAll] using skipped)]
    have revised := Table.replace_revised (fun row => (rfl : (restamp later row).key = row.key)) (current skipped)
    refine revised.trans (List.map_congr_left fun row member => ?_)
    by_cases here : layerId = row.layerId
    · have inside : ofLayer layerId row.key = true := by simp [ofLayer, ProjectionRow.key, here]
      have filled : rows ≠ [] := by
        rintro rfl
        have held : row ∈ rowsFor table layerId := List.mem_filter.mpr ⟨member, inside⟩
        rw [(current skipped).eq_nil] at held
        cases held
      rw [if_pos inside, if_pos ⟨here, filled⟩]
    · have outside : ¬ ofLayer layerId row.key = true := by
        simpa [ofLayer, ProjectionRow.key] using Ne.symm here
      rw [if_neg outside, if_neg (fun given => here given.1)]

theorem WellPlanned.later {entry : Planned} (later : Int) (well : WellPlanned entry) :
    WellPlanned (restampAll later entry) := by
  refine ⟨?_, ?_⟩
  · intro row member
    rcases List.mem_map.mp member with ⟨old, held, rfl⟩
    exact well.layer old held
  · have keys : (restampAll later entry).2.map ProjectionRow.key = entry.2.map ProjectionRow.key := by
      rw [restampAll, List.map_map]
      rfl
    rw [keys]
    exact well.distinct

def hasRows (planned : List Planned) (layerId : String) : Bool :=
  planned.any fun entry => decide (entry.1 = layerId ∧ entry.2 ≠ [])

theorem hasRows_cons (entry : Planned) (rest : List Planned) (layerId : String) :
    hasRows (entry :: rest) layerId = (decide (entry.1 = layerId ∧ entry.2 ≠ []) || hasRows rest layerId) := rfl

theorem refreshAll_again (later : Int) (well : ∀ entry ∈ planned, WellPlanned entry)
    (distinct : (planned.map Prod.fst).Nodup) (current : ∀ entry ∈ planned, Current pruneEmpty table entry) :
    (refreshAll pruneEmpty table (planned.map (restampAll later))).rows =
      table.rows.map fun row => if hasRows planned row.layerId = true then restamp later row else row := by
  induction planned generalizing table with
  | nil => simp [refreshAll, hasRows]
  | cons entry rest ih =>
    rw [List.forall_mem_cons] at well current
    rw [List.map_cons, List.nodup_cons] at distinct
    have kept : ∀ other ∈ rest, Current pruneEmpty (refresh pruneEmpty table (restampAll later entry)) other := by
      intro other member written
      have apart : other.1 ≠ (restampAll later entry).1 := by
        intro same
        exact distinct.1 (List.mem_map.mpr ⟨other, member, same⟩)
      rw [rowsFor_refresh_other pruneEmpty table (well.1.later later) apart]
      exact current.2 other member written
    rw [List.map_cons, refreshAll, List.foldl_cons, ← refreshAll, ih well.2 distinct.2 kept,
      refresh_current later current.1, List.map_map]
    refine List.map_congr_left fun row _ => ?_
    rw [Function.comp_apply, hasRows_cons]
    by_cases here : entry.1 = row.layerId ∧ entry.2 ≠ []
    · simp only [if_pos here, restamp, decide_eq_true here, Bool.true_or, if_true, ite_self]
    · simp only [if_neg here, decide_eq_false here, Bool.false_or]

def hasFindings (env : Env) (nowText : String) (args : MaterializeArgs) (source : List (String × Outcome Layer))
    (layerId : String) : Bool :=
  isSwept args layerId && source.any fun entry => entry.1 == layerId && okAnd entry.2 fun layer =>
    okAnd (resolveLayerFindings env.contracts env.fromIsoFormat nowText layer) fun found => !found.1.isEmpty

theorem hasRows_plan (resolved : plan env nowText now args source = .ok planned) (layerId : String) :
    hasRows planned layerId = hasFindings env nowText args source layerId := by
  rw [Bool.eq_iff_iff, hasRows, hasFindings, List.any_eq_true, Bool.and_eq_true, List.any_eq_true]
  constructor
  · rintro ⟨⟨layerId, rows⟩, member, given⟩
    rcases of_decide_eq_true given with ⟨rfl, filled⟩
    rcases (mem_plan resolved).mp member with ⟨layer, read, selected, known⟩
    rcases layerRows_ok_iff.mp known with ⟨findings, summary, found, rfl⟩
    refine ⟨selected, (layerId, .ok layer), read, ?_⟩
    have some_finding : findings.isEmpty = false := by simpa using filled
    simp [okAnd, found, some_finding]
  · rintro ⟨selected, ⟨other, read⟩, member, given⟩
    rw [Bool.and_eq_true, beq_iff_eq] at given
    rcases given with ⟨rfl, reads⟩
    rcases okAnd_iff.mp reads with ⟨layer, rfl, resolves⟩
    rcases okAnd_iff.mp resolves with ⟨⟨findings, summary⟩, found, filled⟩
    have known : layerRows env nowText now other layer = .ok _ := layerRows_ok_iff.mpr ⟨findings, summary, found, rfl⟩
    refine ⟨_, (mem_plan resolved).mpr ⟨layer, member, selected, known⟩, ?_⟩
    have some_finding : findings ≠ [] := by simpa using filled
    simp [some_finding]

end Again

def projectedEnv : Env := { clockEnv with contracts := aliasContracts }

def projectedShell : Shell where
  toEnv := projectedEnv
  environ := fun name => if name = "LAAS_MATERIALIZE_URL" then some "sqlite:///findings.db" else none
  authorised := true
  stored := ⟨[("beta", shellOf []), ("acme", { renamedLayer with metadata := (shellOf []).metadata })], by decide⟩
  files := fun _ => .absent

def everyLayer : MaterializeArgs := ⟨none, false, false, []⟩

def emptyProjection : Projection := Table.empty

/-- A run that failed leaves what the layers before the failing one left, and once the rest can be read a run from
    there ends with the rows of a run that had not failed. -/
theorem failed_materialize_resumes (env : Env) (nowText : String) (now : Int) (args : MaterializeArgs)
    (source : List (String × Outcome Layer)) (table partway : Projection) (swept : Sweep) (failure : Failure)
    (failed : materializeEach env nowText now args table swept source = (partway, .error failure)) :
    ∃ done failing rest totals, source = done ++ failing :: rest ∧
      materializeEach env nowText now args table swept done = (partway, .ok totals) ∧
      materializeEach env nowText now args partway totals [failing] = (partway, .error failure) ∧
      ∀ laterText later repaired direct sums, ((done ++ repaired).map Prod.fst).Nodup →
        materializeEach env laterText later args table swept (done ++ repaired) = (direct, .ok sums) →
        ∃ resumed, materializeEach env laterText later args partway swept (done ++ repaired) = (resumed, .ok sums) ∧
          ∀ layerId, (rowsFor resumed layerId).Perm (rowsFor direct layerId) := by
  rcases materializeEach_error failed with ⟨done, failing, rest, totals, split, ran, raised⟩
  refine ⟨done, failing, rest, totals, split, ran, raised, ?_⟩
  intro laterText later repaired direct sums distinct completed
  rcases materializeEach_ok_iff.mp ran with ⟨early, resolved, -, rfl, -⟩
  rcases materializeEach_ok_iff.mp completed with ⟨planned, whole, bound, rfl, counted⟩
  refine ⟨_, materializeEach_ok_iff.mpr ⟨planned, whole, bound, rfl, counted⟩, ?_⟩
  intro layerId
  have well := plan_wellPlanned whole
  have apart := plan_distinct distinct whole
  by_cases listed : layerId ∈ planned.map Prod.fst
  · rcases List.mem_map.mp listed with ⟨⟨layerId, rows⟩, member, rfl⟩
    by_cases skipped : rows = [] ∧ args.pruneEmpty = false
    · rw [(rowsFor_refreshAll well apart member).1 skipped, (rowsFor_refreshAll well apart member).1 skipped]
      -- the failed run skipped this layer as well, or had not come to it
      have earlyWell := plan_wellPlanned resolved
      by_cases reached : layerId ∈ early.map Prod.fst
      · rcases plan_append.mp whole with ⟨first, others, again, -, rfl⟩
        cases (plan_later laterText later resolved).symm.trans again
        rcases List.mem_map.mp reached with ⟨⟨layerId, old⟩, known, rfl⟩
        have same : rows = old.map (restamp later) := by
          have also : (layerId, old.map (restamp later)) ∈ early.map (restampAll later) ++ others :=
            List.mem_append_left _ (List.mem_map.mpr ⟨_, known, rfl⟩)
          exact congrArg Prod.snd (List.inj_on_of_nodup_map apart member also rfl)
        have nothing : old = [] := by simpa [same] using skipped.1
        have earlyApart : (early.map Prod.fst).Nodup := by
          have ids : (early.map (restampAll later)).map Prod.fst = early.map Prod.fst := by
            rw [List.map_map]
            rfl
          rw [List.map_append, ids] at apart
          exact apart.of_append_left
        rw [(rowsFor_refreshAll earlyWell earlyApart known).1 ⟨nothing, skipped.2⟩]
      · rw [rowsFor_refreshAll_other earlyWell reached]
    · exact ((rowsFor_refreshAll well apart member).2 skipped).trans
        ((rowsFor_refreshAll well apart member).2 skipped).symm
  · rw [rowsFor_refreshAll_other well listed, rowsFor_refreshAll_other well listed]
    have unreached : layerId ∉ early.map Prod.fst := by
      intro reached
      rcases plan_append.mp whole with ⟨first, others, again, -, rfl⟩
      cases (plan_later laterText later resolved).symm.trans again
      rcases List.mem_map.mp reached with ⟨entry, known, rfl⟩
      rw [List.map_append, List.mem_append, not_or] at listed
      exact listed.1 (List.mem_map.mpr ⟨_, List.mem_map_of_mem known, rfl⟩)
    rw [rowsFor_refreshAll_other (plan_wellPlanned resolved) unreached]

def unreadableBeta : List (String × Outcome Layer) :=
  projectedShell.iterLayers.take 1 ++ [("beta", .error (.layerStorage "unreadable"))]

theorem failed_materialize_resumes_beta : ∃ partway failure, materializeEach projectedEnv evening 0 everyLayer
      emptyProjection ⟨0, 0, []⟩ unreadableBeta = (partway, .error failure) ∧
    ∃ done failing rest totals, unreadableBeta = done ++ failing :: rest ∧
      materializeEach projectedEnv evening 0 everyLayer emptyProjection ⟨0, 0, []⟩ done = (partway, .ok totals) ∧
      materializeEach projectedEnv evening 0 everyLayer partway totals [failing] = (partway, .error failure) ∧
      ∀ laterText later repaired direct sums, ((done ++ repaired).map Prod.fst).Nodup →
        materializeEach projectedEnv laterText later everyLayer emptyProjection ⟨0, 0, []⟩ (done ++ repaired) =
          (direct, .ok sums) →
        ∃ resumed, materializeEach projectedEnv laterText later everyLayer partway ⟨0, 0, []⟩ (done ++ repaired) =
            (resumed, .ok sums) ∧
          ∀ layerId, (rowsFor resumed layerId).Perm (rowsFor direct layerId) := by
  have fails : (materializeEach projectedEnv evening 0 everyLayer emptyProjection ⟨0, 0, []⟩
      unreadableBeta).2.isOk = false := by
    decide +kernel
  rcases ran : materializeEach projectedEnv evening 0 everyLayer emptyProjection ⟨0, 0, []⟩ unreadableBeta with
    ⟨partway, outcome⟩
  rw [ran] at fails
  cases outcome with
  | ok totals => cases fails
  | error failure =>
    exact ⟨partway, failure, rfl,
      failed_materialize_resumes projectedEnv evening 0 everyLayer _ emptyProjection partway ⟨0, 0, []⟩ failure ran⟩

section Commands

variable {shell : Shell} {nowText : String} {now : Int} {args : MaterializeArgs}

theorem shellIds_nodup (shell : Shell) : shell.listLayerIds.Nodup := by
  rw [Shell.listLayerIds, (List.perm_insertionSort _ _).nodup_iff]
  exact shell.stored.distinct.sublist (List.filter_sublist.map Prod.fst)

theorem iterLayers_ids (shell : Shell) : shell.iterLayers.map Prod.fst = shell.listLayerIds := by
  rw [Shell.iterLayers, List.map_map]
  exact List.map_id _

theorem mem_iterLayers {layerId : String} {layer : Layer} : (layerId, .ok layer) ∈ shell.iterLayers ↔
    layerId ∈ shell.listLayerIds ∧ ∃ found, shell.load layerId = .ok found ∧ layer = found.getD emptyLayer := by
  rw [Shell.iterLayers, List.mem_map]
  constructor
  · rintro ⟨other, listed, given⟩
    rcases Prod.ext_iff.mp given with ⟨rfl, read⟩
    refine ⟨listed, ?_⟩
    dsimp only at read
    cases loaded : shell.load other with
    | error failure =>
      rw [loaded] at read
      cases read
    | ok found =>
      rw [loaded] at read
      cases read
      exact ⟨found, rfl, rfl⟩
  · rintro ⟨listed, found, loaded, rfl⟩
    refine ⟨layerId, listed, ?_⟩
    rw [loaded]
    rfl

/-- What the projection of the target is to hold for a layer after a run. -/
structure Materialized (shell : Shell) (nowText : String) (now : Int) (args : MaterializeArgs)
    (before after : Projection) (layerId : String) (findings : List FindingDisposition) (layer : Layer) : Prop where
  kept : findings = [] → args.pruneEmpty = false → rowsFor after layerId = rowsFor before layerId
  rebuilt : findings ≠ [] ∨ args.pruneEmpty = true →
    (rowsFor after layerId).Perm (findings.map fun finding =>
      buildRow layerId finding (layer.metadata.get "merkle_root") (layer.metadata.get "merkle_epoch") now)

theorem Sweep.add_start (planned : List Planned) : Sweep.add ⟨0, 0, []⟩ planned =
    ⟨planned.length, (planned.map fun entry => entry.2.length).sum, (planned.map Prod.fst).reverse⟩ := by
  simp [Sweep.add]

end Commands

/-- After a run that ends well every listed layer that was asked for has the rows of its findings and no others, or the
    ones it had where it resolves to nothing and is not to be pruned; nothing else has changed, and the report names
    the layers that were not there. -/
theorem materialize_exact (shell : Shell) (nowText : String) (now : Int) (ensureSchema : String → Outcome Unit)
    (args : MaterializeArgs) (databases after : String → Projection) (report : MaterializeReport)
    (asked : args.ddl = false)
    (ran : shell.cmdMaterialize nowText now ensureSchema args databases = (after, .ok report)) :
    (∀ url, url ≠ shell.materializeTarget args → after url = databases url) ∧
    (∀ layerId, layerId ∈ shell.listLayerIds → isSwept args layerId = true → ∃ found findings summary,
      shell.load layerId = .ok found ∧
      resolveLayerFindings shell.contracts shell.fromIsoFormat nowText (found.getD emptyLayer) =
        .ok (findings, summary) ∧
      Materialized shell nowText now args (databases (shell.materializeTarget args))
        (after (shell.materializeTarget args)) layerId findings (found.getD emptyLayer)) ∧
    (∀ layerId, ¬ (layerId ∈ shell.listLayerIds ∧ isSwept args layerId = true) →
      rowsFor (after (shell.materializeTarget args)) layerId =
        rowsFor (databases (shell.materializeTarget args)) layerId) ∧
    (report.status = 0 ↔ ∃ layerId ∈ shell.listLayerIds, isSwept args layerId = true) ∧
    ∀ layerId, layerId ∈ report.notFound ↔ layerId ∈ args.layers ∧ layerId ∉ shell.listLayerIds := by
  unfold Shell.cmdMaterialize at ran
  simp only [asked, Bool.false_eq_true, if_false] at ran
  split_ifs at ran
  · cases ran
  cases ready : ensureSchema (shell.materializeTarget args) with
  | error failure =>
    rw [ready] at ran
    cases ran
  | ok done =>
    simp only [ready] at ran
    rcases swept : materializeEach shell.toEnv nowText now args (databases (shell.materializeTarget args)) ⟨0, 0, []⟩
      shell.iterLayers with ⟨table, outcome⟩
    rw [swept] at ran
    rcases Prod.ext_iff.mp ran with ⟨rfl, reported⟩
    rcases bind_ok_iff.mp reported with ⟨totals, rfl, result⟩
    rcases materializeEach_ok_iff.mp swept with ⟨planned, resolved, bound, rfl, rfl⟩
    have well := plan_wellPlanned resolved
    have distinct : (shell.iterLayers.map Prod.fst).Nodup := by
      rw [iterLayers_ids]
      exact shellIds_nodup shell
    have apart := plan_distinct distinct resolved
    have ids := plan_ids resolved
    rw [iterLayers_ids] at ids
    have chosen : ∀ layerId, layerId ∈ planned.map Prod.fst ↔
        layerId ∈ shell.listLayerIds ∧ isSwept args layerId = true := by
      intro layerId
      rw [ids, List.mem_filter]
    simp only [if_true]
    refine ⟨?_, ?_, ?_, ?_, ?_⟩
    · intro url other
      rw [if_neg other]
    · intro layerId listed selected
      rcases List.mem_map.mp ((chosen layerId).mpr ⟨listed, selected⟩) with ⟨⟨_, rows⟩, member, rfl⟩
      rcases (mem_plan resolved).mp member with ⟨layer, read, -, known⟩
      rcases mem_iterLayers.mp read with ⟨-, found, loaded, rfl⟩
      rcases layerRows_ok_iff.mp known with ⟨findings, summary, resolving, rfl⟩
      refine ⟨found, findings, summary, loaded, resolving, ?_, ?_⟩
      · rintro rfl unpruned
        exact (rowsFor_refreshAll well apart member).1 ⟨rfl, unpruned⟩
      · intro written
        refine (rowsFor_refreshAll well apart member).2 ?_
        rintro ⟨nothing, unpruned⟩
        rcases written with filled | pruned
        · exact filled (List.map_eq_nil_iff.mp nothing)
        · rw [unpruned] at pruned
          cases pruned
    · intro layerId unlisted
      exact rowsFor_refreshAll_other well fun member => unlisted ((chosen layerId).mp member)
    · cases result
      rw [Sweep.add_start]
      dsimp only
      have counted : planned.length = 0 ↔ ∀ layerId, layerId ∉ planned.map Prod.fst := by
        rw [← List.eq_nil_iff_forall_not_mem, List.map_eq_nil_iff, List.length_eq_zero_iff]
      simp only [chosen, not_and] at counted
      split_ifs with none
      · simpa using counted.mp none
      · rw [counted] at none
        simpa using none
    · intro layerId
      cases result
      rw [Sweep.add_start]
      dsimp only
      rw [List.mem_insertionSort, List.mem_filter, List.mem_dedup]
      refine and_congr_right fun named => ?_
      have selected : isSwept args layerId = true := by simp [isSwept, named]
      have seen := chosen layerId
      simp only [selected, and_true] at seen
      rw [Bool.not_eq_true', ← not_iff_not, Bool.not_eq_false, not_not, List.contains_iff_mem, List.mem_reverse, seen]

theorem materialize_exact_acme : ∃ after report,
    projectedShell.cmdMaterialize evening 0 (fun _ => .ok ()) everyLayer (fun _ => emptyProjection) =
      (after, .ok report) ∧ report.status = 0 ∧
    ∃ found findings summary, projectedShell.load "acme" = .ok found ∧
      resolveLayerFindings aliasContracts clockEnv.fromIsoFormat evening (found.getD emptyLayer) =
        .ok (findings, summary) ∧
      Materialized projectedShell evening 0 everyLayer emptyProjection (after "sqlite:///findings.db") "acme" findings
        (found.getD emptyLayer) := by
  have ends : (projectedShell.cmdMaterialize evening 0 (fun _ => .ok ()) everyLayer
      fun _ => emptyProjection).2.isOk = true := by
    decide +kernel
  rcases exists_of_isOk ends with ⟨report, reported⟩
  have ran : projectedShell.cmdMaterialize evening 0 (fun _ => .ok ()) everyLayer (fun _ => emptyProjection) =
      (_, .ok report) := Prod.ext rfl reported
  rcases materialize_exact projectedShell evening 0 _ everyLayer _ _ report rfl ran with ⟨-, exact, -, status, -⟩
  have listed : "acme" ∈ projectedShell.listLayerIds := by decide +kernel
  exact ⟨_, report, ran, status.mpr ⟨"acme", listed, by decide⟩, exact "acme" listed (by decide)⟩

/-- A second run over the same layers succeeds and leaves every row as it is, but for the time on the rows of layers
    that have findings; a run at the same time leaves the same table. -/
theorem rematerialize_restamps (env : Env) (nowText laterText : String) (now later : Int) (args : MaterializeArgs)
    (source : List (String × Outcome Layer)) (distinct : (source.map Prod.fst).Nodup) (table once : Projection)
    (swept totals again : Sweep)
    (ran : materializeEach env nowText now args table swept source = (once, .ok totals)) :
    ∃ twice sums, materializeEach env laterText later args once again source = (twice, .ok sums) ∧
      twice.rows = once.rows.map (fun row =>
        if hasFindings env nowText args source row.layerId = true then { row with materializedAt := later } else row) ∧
      (later = now → twice = once) := by
  rcases materializeEach_ok_iff.mp ran with ⟨planned, resolved, bound, rfl, -⟩
  have well := plan_wellPlanned resolved
  have apart := plan_distinct distinct resolved
  have current := refreshAll_current args.pruneEmpty table well apart
  have rows := refreshAll_again later well apart current
  simp only [hasRows_plan resolved] at rows
  refine ⟨_, _, materializeEach_ok_iff.mpr ⟨_, plan_later laterText later resolved, bound_later bound, rfl, rfl⟩,
    rows, ?_⟩
  rintro rfl
  refine Table.ext (rows.trans ?_)
  refine (List.map_congr_left fun row member => ?_).trans (List.map_id _)
  split_ifs with refreshed
  · rw [← hasRows_plan resolved, hasRows, List.any_eq_true] at refreshed
    rcases refreshed with ⟨⟨layerId, rows⟩, listed, given⟩
    rcases of_decide_eq_true given with ⟨same, filled⟩
    have held : row ∈ rowsFor (refreshAll args.pruneEmpty table planned) layerId :=
      List.mem_filter.mpr ⟨member, by simp [ofLayer, ProjectionRow.key, ← same]⟩
    rw [(current _ listed fun given => filled given.1).mem_iff] at held
    rcases (mem_plan resolved).mp listed with ⟨layer, -, -, known⟩
    rcases layerRows_ok_iff.mp known with ⟨findings, summary, -, rfl⟩
    rcases List.mem_map.mp held with ⟨finding, -, rfl⟩
    rfl
  · rfl

theorem rematerialize_restamps_acme : ∃ once totals, materializeEach projectedEnv evening 0 everyLayer emptyProjection
      ⟨0, 0, []⟩ projectedShell.iterLayers = (once, .ok totals) ∧
    ∃ twice sums, materializeEach projectedEnv evening 1 everyLayer once ⟨0, 0, []⟩ projectedShell.iterLayers =
        (twice, .ok sums) ∧
      twice.rows = once.rows.map fun row =>
        if hasFindings projectedEnv evening everyLayer projectedShell.iterLayers row.layerId = true then
          { row with materializedAt := 1 } else row := by
  have ends : (materializeEach projectedEnv evening 0 everyLayer emptyProjection ⟨0, 0, []⟩
      projectedShell.iterLayers).2.isOk = true := by
    decide +kernel
  rcases exists_of_isOk ends with ⟨totals, counted⟩
  have ran : materializeEach projectedEnv evening 0 everyLayer emptyProjection ⟨0, 0, []⟩ projectedShell.iterLayers =
      (_, .ok totals) := Prod.ext rfl counted
  rcases rematerialize_restamps projectedEnv evening evening 0 1 everyLayer projectedShell.iterLayers (by decide +kernel)
    emptyProjection _ ⟨0, 0, []⟩ totals ⟨0, 0, []⟩ ran with ⟨twice, sums, again, rows, -⟩
  exact ⟨_, totals, ran, twice, sums, again, rows⟩

end LedgerProof
