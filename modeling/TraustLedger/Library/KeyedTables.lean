import Mathlib.Data.List.Nodup
import Mathlib.Data.List.Perm.Basic
import Mathlib.Tactic.Common

namespace KeyedTables

@[ext] structure Table {ρ κ : Type} (key : ρ → κ) where
  rows : List ρ
  keys : (rows.map key).Nodup

namespace Table

variable {ρ κ : Type} [DecidableEq κ] {key : ρ → κ}

def empty : Table key := ⟨[], List.nodup_nil⟩

def select (table : Table key) (k : κ) : Option ρ := table.rows.find? fun row => key row = k

def delete (table : Table key) (condition : ρ → Bool) : Table key where
  rows := table.rows.filter fun row => !condition row
  keys := table.keys.sublist (List.filter_sublist.map key)

def update (table : Table key) (row : ρ) : Table key where
  rows := table.rows.map fun held => if key held = key row then row else held
  keys := by
    rw [List.map_map]
    refine (List.map_congr_left fun held _ => ?_) ▸ table.keys
    rw [Function.comp_apply]
    split_ifs with same
    · exact same
    · rfl

def insert (table : Table key) (row : ρ) : Option (Table key) :=
  if free : key row ∉ table.rows.map key then
    some {
      rows := table.rows ++ [row]
      keys := by
        rw [List.map_append]
        exact List.nodup_append'.mpr ⟨table.keys, List.nodup_singleton _, by simpa using free⟩ }
  else none

def put (table : Table key) (row : ρ) : Table key := (table.insert row).getD (table.update row)

def putAll (table : Table key) (rows : List ρ) : Table key := rows.foldl put table

/-- The rows of a part of the table are replaced: those that are not among the new ones go first. -/
def replace (table : Table key) (part : κ → Bool) (rows : List ρ) : Table key :=
  (table.delete fun held => part (key held) && decide (key held ∉ rows.map key)).putAll rows

variable {table : Table key}

theorem select_eq_none {k : κ} : table.select k = none ↔ k ∉ table.rows.map key := by
  simp [select, List.find?_eq_none]

theorem insert_free {row : ρ} (free : table.select (key row) = none) : table.insert row = some (table.put row) := by
  rw [select_eq_none] at free
  rw [put, insert, dif_pos free, Option.getD_some]

theorem put_taken {row held : ρ} (taken : table.select (key row) = some held) : table.put row = table.update row := by
  have found : ¬ key row ∉ table.rows.map key := by
    rw [← select_eq_none, taken]
    simp
  rw [put, insert, dif_neg found, Option.getD_none]

theorem rows_put (row : ρ) : (table.put row).rows =
    table.rows.map (fun held => if key held = key row then row else held) ++
      if key row ∈ table.rows.map key then [] else [row] := by
  by_cases free : key row ∈ table.rows.map key
  · rw [put, insert, dif_neg (not_not_intro free), if_pos free, List.append_nil]
    rfl
  · rw [put, insert, dif_pos free, if_neg free, Option.getD_some]
    have apart : ∀ held ∈ table.rows, key held ≠ key row := by
      intro held member same
      exact free (same ▸ List.mem_map_of_mem member)
    have same : table.rows.map (fun held => if key held = key row then row else held) = table.rows := by
      refine (List.map_congr_left fun held member => ?_).trans (List.map_id _)
      rw [if_neg (apart held member), id]
    rw [same]

theorem mem_keys_put {row : ρ} {k : κ} :
    k ∈ (table.put row).rows.map key ↔ k ∈ table.rows.map key ∨ k = key row := by
  have keys : (table.rows.map fun held => if key held = key row then row else held).map key = table.rows.map key := by
    rw [List.map_map]
    refine List.map_congr_left fun held _ => ?_
    rw [Function.comp_apply]
    split_ifs with same
    · exact same.symm
    · rfl
  rw [rows_put, List.map_append, keys, List.mem_append]
  split_ifs with taken
  · simp only [List.map_nil, List.not_mem_nil, or_false, iff_self_or]
    rintro rfl
    exact taken
  · simp

def newest (key : ρ → κ) (rows : List ρ) (held : ρ) : ρ := (rows.find? fun row => key row = key held).getD held

theorem newest_absent {rows : List ρ} {held : ρ} (absent : key held ∉ rows.map key) : newest key rows held = held := by
  have missing : rows.find? (fun row => key row = key held) = none := by
    rw [List.find?_eq_none]
    intro row member
    have apart : key row ≠ key held := fun same => absent (same ▸ List.mem_map_of_mem member)
    simpa using apart
  rw [newest, missing, Option.getD_none]

theorem newest_mem {rows : List ρ} {held : ρ} (present : key held ∈ rows.map key) :
    newest key rows held ∈ rows ∧ key (newest key rows held) = key held := by
  rcases List.mem_map.mp present with ⟨row, member, same⟩
  cases found : rows.find? (fun row => key row = key held) with
  | none => simpa [same] using List.find?_eq_none.mp found row member
  | some row =>
    rw [newest, found, Option.getD_some]
    exact ⟨List.mem_of_find?_eq_some found, by simpa using List.find?_some found⟩

theorem newest_cons (row : ρ) (rows : List ρ) (held : ρ) :
    newest key (row :: rows) held = if key held = key row then row else newest key rows held := by
  rw [newest, List.find?_cons]
  by_cases same : key held = key row
  · rw [if_pos same, decide_eq_true same.symm]
    rfl
  · rw [if_neg same, decide_eq_false (Ne.symm same)]
    rfl

theorem rows_putAll {rows : List ρ} (distinct : (rows.map key).Nodup) :
    (table.putAll rows).rows =
      table.rows.map (newest key rows) ++ rows.filter fun row => key row ∉ table.rows.map key := by
  induction rows generalizing table with
  | nil =>
    have same : newest key ([] : List ρ) = id := rfl
    rw [same, List.map_id, List.filter_nil, List.append_nil]
    rfl
  | cons row rest ih =>
    rw [List.map_cons, List.nodup_cons] at distinct
    have replaced : (table.put row).rows.map (newest key rest) =
        table.rows.map (newest key (row :: rest)) ++ if key row ∈ table.rows.map key then [] else [row] := by
      have itself := newest_absent distinct.1
      have held : (table.rows.map fun held => if key held = key row then row else held).map (newest key rest) =
          table.rows.map (newest key (row :: rest)) := by
        rw [List.map_map]
        refine List.map_congr_left fun held _ => ?_
        rw [Function.comp_apply, newest_cons]
        split_ifs
        · exact itself
        · rfl
      rw [rows_put, List.map_append, held]
      split_ifs
      · rfl
      · rw [List.map_singleton, itself]
    have added : rest.filter (fun other => key other ∉ (table.put row).rows.map key) =
        rest.filter fun other => key other ∉ table.rows.map key := by
      refine List.filter_congr fun other member => ?_
      have apart : key other ≠ key row := fun same => distinct.1 (same ▸ List.mem_map_of_mem member)
      simp only [mem_keys_put, apart, or_false]
    rw [putAll, List.foldl_cons, ← putAll, ih distinct.2, replaced, added, List.append_assoc, List.filter_cons]
    by_cases taken : key row ∈ table.rows.map key
    · rw [if_pos taken, if_neg (by simpa using taken)]
      rfl
    · rw [if_neg taken, if_pos (by simpa using taken)]
      rfl

omit [DecidableEq κ] in
theorem nodup_rows (table : Table key) : table.rows.Nodup := table.keys.of_map

omit [DecidableEq κ] in
theorem eq_of_key {row held : ρ} (member : row ∈ table.rows) (other : held ∈ table.rows) (same : key row = key held) :
    row = held :=
  List.inj_on_of_nodup_map table.keys member other same

section Replacing

variable {part : κ → Bool} {rows : List ρ}

theorem mem_replace (distinct : (rows.map key).Nodup) {row : ρ} : row ∈ (table.replace part rows).rows ↔
    row ∈ rows ∨ row ∈ table.rows ∧ part (key row) = false ∧ key row ∉ rows.map key := by
  rw [replace, rows_putAll distinct, List.mem_append, List.mem_map, List.mem_filter]
  have kept : ∀ held, held ∈ (table.delete fun held =>
      part (key held) && decide (key held ∉ rows.map key)).rows ↔
      held ∈ table.rows ∧ (part (key held) = false ∨ key held ∈ rows.map key) := by
    intro held
    rw [delete, List.mem_filter]
    cases part (key held) <;> simp
  constructor
  · rintro (⟨held, member, rfl⟩ | ⟨member, -⟩)
    · by_cases replaced : key held ∈ rows.map key
      · exact .inl (newest_mem replaced).1
      · rcases (kept held).mp member with ⟨stored, outside⟩
        rw [newest_absent replaced]
        exact .inr ⟨stored, outside.resolve_right replaced, replaced⟩
    · exact .inl member
  · rintro (member | ⟨member, outside, unreplaced⟩)
    · have present : key row ∈ rows.map key := List.mem_map_of_mem member
      by_cases taken : key row ∈ (table.delete fun held =>
          part (key held) && decide (key held ∉ rows.map key)).rows.map key
      · rcases List.mem_map.mp taken with ⟨held, stored, same⟩
        rw [← same] at present
        rcases newest_mem present with ⟨listed, key_eq⟩
        refine .inl ⟨held, stored, ?_⟩
        exact List.inj_on_of_nodup_map distinct listed member (key_eq.trans same)
      · exact .inr ⟨member, by simpa using taken⟩
    · exact .inl ⟨row, (kept row).mpr ⟨member, .inl outside⟩, newest_absent unreplaced⟩

theorem replace_within (distinct : (rows.map key).Nodup) (inside : ∀ row ∈ rows, part (key row) = true) :
    ((table.replace part rows).rows.filter fun row => part (key row)).Perm rows := by
  refine (List.perm_ext_iff_of_nodup ((nodup_rows _).filter _) distinct.of_map).mpr fun row => ?_
  rw [List.mem_filter, mem_replace distinct]
  constructor
  · rintro ⟨member | ⟨-, outside, -⟩, within⟩
    · exact member
    · rw [outside] at within
      cases within
  · intro member
    exact ⟨.inl member, inside row member⟩

theorem replace_outside (distinct : (rows.map key).Nodup) (inside : ∀ row ∈ rows, part (key row) = true)
    {other : κ → Bool} (apart : ∀ k, part k = true → other k = false) :
    (table.replace part rows).rows.filter (fun row => other (key row)) =
      table.rows.filter fun row => other (key row) := by
  have others : ∀ row ∈ rows, other (key row) = false := fun row member => apart _ (inside row member)
  have unlisted : ∀ {held : ρ}, other (key held) = true → key held ∉ rows.map key := by
    intro held given present
    rcases List.mem_map.mp present with ⟨row, member, same⟩
    rw [← same, others row member] at given
    cases given
  have added : (rows.filter fun row => key row ∉ (table.delete fun held =>
      part (key held) && decide (key held ∉ rows.map key)).rows.map key).filter (fun row => other (key row)) = [] := by
    rw [List.filter_eq_nil_iff]
    intro row member
    rw [others row (List.mem_filter.mp member).1]
    simp
  rw [replace, rows_putAll distinct, List.filter_append, added, List.append_nil, List.filter_map]
  have same_keys : ∀ held, other (key (newest key rows held)) = other (key held) := by
    intro held
    by_cases present : key held ∈ rows.map key
    · rw [(newest_mem present).2]
    · rw [newest_absent present]
  have test : ((fun row => other (key row)) ∘ newest key rows) = fun held => other (key held) := funext same_keys
  rw [test, delete, List.filter_filter]
  have passed : table.rows.filter (fun held => other (key held) &&
      !(part (key held) && decide (key held ∉ rows.map key))) = table.rows.filter fun held => other (key held) := by
    refine List.filter_congr fun held _ => ?_
    cases given : part (key held) with
    | false => simp
    | true => simp [apart _ given]
  rw [passed]
  refine (List.map_congr_left fun held member => ?_).trans (List.map_id _)
  exact newest_absent (unlisted (by simpa using (List.mem_filter.mp member).2))

theorem replace_revised {revise : ρ → ρ} (keeps : ∀ row, key (revise row) = key row)
    (held : (table.rows.filter fun row => part (key row)).Perm rows) :
    (table.replace part (rows.map revise)).rows =
      table.rows.map fun row => if part (key row) = true then revise row else row := by
  have keys : (rows.map revise).map key = rows.map key := by
    rw [List.map_map]
    exact List.map_congr_left fun row _ => keeps row
  have distinct : (rows.map key).Nodup :=
    (held.map key).nodup_iff.mp (table.keys.sublist (List.filter_sublist.map key))
  have listed : ∀ row, row ∈ rows ↔ row ∈ table.rows ∧ part (key row) = true := by
    intro row
    rw [← held.mem_iff, List.mem_filter]
  have all_kept : (table.delete fun row => part (key row) &&
      decide (key row ∉ (rows.map revise).map key)).rows = table.rows := by
    rw [delete, List.filter_eq_self]
    intro row member
    rw [keys]
    cases within : part (key row) with
    | false => rfl
    | true =>
      have present : key row ∈ rows.map key := List.mem_map_of_mem ((listed row).mpr ⟨member, within⟩)
      simpa using present
  rw [replace, rows_putAll (keys ▸ distinct), all_kept]
  have none_added : (rows.map revise).filter (fun row => key row ∉ table.rows.map key) = [] := by
    rw [List.filter_eq_nil_iff]
    intro row member
    rcases List.mem_map.mp member with ⟨old, known, rfl⟩
    have present : key old ∈ table.rows.map key := List.mem_map_of_mem ((listed old).mp known).1
    simpa [keeps] using present
  rw [none_added, List.append_nil]
  refine List.map_congr_left fun row member => ?_
  split_ifs with within
  · have known := (listed row).mpr ⟨member, within⟩
    have present : key row ∈ (rows.map revise).map key := keys ▸ List.mem_map_of_mem known
    rcases newest_mem present with ⟨found, same⟩
    rcases List.mem_map.mp found with ⟨old, stored, rewritten⟩
    rw [← rewritten, keeps] at same
    rw [← rewritten, eq_of_key ((listed old).mp stored).1 member same]
  · apply newest_absent
    rw [keys]
    intro present
    rcases List.mem_map.mp present with ⟨old, known, same⟩
    rw [← same] at within
    exact within ((listed old).mp known).2

end Replacing

end Table

end KeyedTables
