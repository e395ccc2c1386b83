import TraustLedger.Library.Json

namespace Python

namespace Dict

theorem precedes_irrefl (word : List Char) : precedes word word = false := by
  induction word with
  | nil => rfl
  | cons c rest ih => simp [precedes, ih]

theorem precedes_trans : ∀ {a b c : List Char}, precedes a b = true → precedes b c = true → precedes a c = true
  | [], b, [], first, second => by cases b <;> simp [precedes] at first second
  | [], _, _ :: _, _, _ => rfl
  | _ :: _, [], _, first, _ => by simp [precedes] at first
  | _ :: _, _ :: _, [], _, second => by simp [precedes] at second
  | x :: a, y :: b, z :: c, first, second => by
    rw [precedes] at first second ⊢
    by_cases early : x = y
    · subst early
      rw [if_pos rfl] at first
      by_cases late : x = z
      · subst late
        rw [if_pos rfl] at second ⊢
        exact precedes_trans first second
      · rw [if_neg late] at second ⊢
        exact second
    · rw [if_neg early, decide_eq_true_eq] at first
      by_cases late : y = z
      · subst late
        rw [if_neg early, decide_eq_true_eq]
        exact first
      · rw [if_neg late, decide_eq_true_eq] at second
        have apart : x ≠ z := by
          rintro rfl
          omega
        rw [if_neg apart, decide_eq_true_eq]
        omega

theorem precedes_total : ∀ {a b : List Char}, a ≠ b → precedes a b = true ∨ precedes b a = true
  | [], [], apart => absurd rfl apart
  | [], _ :: _, _ => .inl rfl
  | _ :: _, [], _ => .inr rfl
  | x :: a, y :: b, apart => by
    by_cases same : x = y
    · subst same
      have rest : a ≠ b := fun equal => apart (by rw [equal])
      simpa [precedes] using precedes_total rest
    · have codes : x.toNat ≠ y.toNat := fun equal => same (Char.toNat_inj.mp equal)
      simp only [precedes, if_neg same, if_neg (Ne.symm same), decide_eq_true_eq]
      omega

theorem precedes_append : ∀ {a b : List Char} (more : List Char), precedes a b = true → precedes a (b ++ more) = true
  | [], [], _, before => by simp [precedes] at before
  | [], _ :: _, _, _ => rfl
  | _ :: _, [], _, before => by simp [precedes] at before
  | x :: a, y :: b, more, before => by
    rw [List.cons_append, precedes]
    rw [precedes] at before
    by_cases same : x = y
    · rw [if_pos same] at before ⊢
      exact precedes_append more before
    · rw [if_neg same] at before ⊢
      exact before

theorem not_precedes_total (a b : List Char) : precedes b a = false ∨ precedes a b = false := by
  by_cases first : precedes a b = true
  · refine .inl (Bool.eq_false_iff.mpr fun second => ?_)
    have loop := precedes_trans first second
    rw [precedes_irrefl] at loop
    cases loop
  · exact .inr (by simpa using first)

theorem not_precedes_trans {a b c : List Char} (first : precedes b a = false) (second : precedes c b = false) :
    precedes c a = false := by
  refine Bool.eq_false_iff.mpr fun third => ?_
  by_cases same : a = b
  · rw [same, second] at third
    cases third
  · rcases precedes_total same with early | late
    · rw [precedes_trans third early] at second
      cases second
    · rw [late] at first
      cases first

def Ordered (d : Dict) : Prop := d.Pairwise fun left right => precedes (chars left.1) (chars right.1) = true

instance (d : Dict) : Decidable d.Ordered := inferInstanceAs (Decidable (List.Pairwise _ _))

variable {d other : Dict} {key : String} {value : Json}

theorem Ordered.remove (ordered : d.Ordered) : (d.remove key).Ordered := List.Pairwise.filter _ ordered

theorem mem_set {entry : String × Json} (member : entry ∈ d.set key value) : entry = (key, value) ∨ entry ∈ d := by
  induction d with
  | nil => simpa [set] using member
  | cons head rest ih =>
    rw [set] at member
    split_ifs at member
    · rcases List.mem_cons.mp member with rfl | later
      · exact .inl rfl
      · exact .inr (List.mem_cons_of_mem _ later)
    · rcases List.mem_cons.mp member with rfl | later
      · exact .inl rfl
      · exact .inr later
    · rcases List.mem_cons.mp member with rfl | later
      · exact .inr List.mem_cons_self
      · exact (ih later).imp_right (List.mem_cons_of_mem _)

theorem Ordered.set (ordered : d.Ordered) : (d.set key value).Ordered := by
  induction d with
  | nil => exact List.pairwise_singleton _ _
  | cons head rest ih =>
    obtain ⟨first, later⟩ := List.pairwise_cons.mp ordered
    rw [Dict.set]
    split_ifs with here before
    · subst here
      exact List.pairwise_cons.mpr ⟨first, later⟩
    · refine List.pairwise_cons.mpr ⟨fun entry member => ?_, ordered⟩
      rcases List.mem_cons.mp member with rfl | member
      · exact before
      · exact precedes_trans before (first entry member)
    · refine List.pairwise_cons.mpr ⟨fun entry member => ?_, ih later⟩
      rcases mem_set member with rfl | member
      · have apart : chars key ≠ chars head.1 := fun same => here (chars_injective same)
        exact (precedes_total apart).resolve_left before
      · exact first entry member

theorem ordered_update (ordered : d.Ordered) (entries : List (String × Json)) : (d.update entries).Ordered := by
  induction entries with
  | nil => exact ordered
  | cons entry rest ih => exact Ordered.set ih

theorem ordered_ofList (entries : List (String × Json)) : (ofList entries).Ordered :=
  ordered_update List.Pairwise.nil entries

theorem mem_ofList {entries : List (String × Json)} {entry : String × Json} (member : entry ∈ ofList entries) :
    entry ∈ entries := by
  induction entries with
  | nil => cases member
  | cons first rest ih =>
    rcases mem_set member with here | later
    · exact List.mem_cons.mpr (.inl here)
    · exact List.mem_cons_of_mem _ (ih later)

theorem lookup_eq_none {d : Dict} (absent : ∀ entry ∈ d, entry.1 ≠ key) : d.lookup key = none := by
  cases found : d.lookup key with
  | none => rfl
  | some value => exact absurd rfl (absent _ (lookup_mem found))

theorem ne_of_precedes {a b : String} (before : precedes (chars a) (chars b) = true) : b ≠ a := by
  rintro rfl
  simp [precedes_irrefl] at before

theorem Ordered.lookup_before {head : String × Json} {rest : Dict} {key : String}
    (ordered : Dict.Ordered (head :: rest)) (before : precedes (chars key) (chars head.1) = true) :
    List.lookup key (head :: rest) = none := by
  obtain ⟨first, -⟩ := List.pairwise_cons.mp ordered
  apply lookup_eq_none
  intro entry member
  rcases List.mem_cons.mp member with rfl | member
  · exact ne_of_precedes before
  · exact ne_of_precedes (precedes_trans before (first entry member))

theorem Ordered.lookup_tail {head : String × Json} {rest : Dict} (ordered : Dict.Ordered (head :: rest)) :
    List.lookup head.1 rest = none :=
  lookup_eq_none fun entry member => ne_of_precedes ((List.pairwise_cons.mp ordered).1 entry member)

theorem Ordered.ext (ordered : d.Ordered) (others : other.Ordered)
    (same : ∀ key, d.lookup key = List.lookup key other) : d = other := by
  induction d generalizing other with
  | nil =>
    cases other with
    | nil => rfl
    | cons head rest => simpa [lookup_cons_ite] using same head.1
  | cons head rest ih =>
    cases other with
    | nil => simpa [lookup_cons_ite] using same head.1
    | cons head' rest' =>
      -- The smaller of two different first keys would be missing on the other side.
      have keys : head.1 = head'.1 := by
        by_contra apart
        rcases precedes_total (fun equal => apart (chars_injective equal)) with before | before
        · have gone := others.lookup_before before
          rw [← same, lookup_cons_ite, if_pos rfl] at gone
          cases gone
        · have gone := ordered.lookup_before before
          rw [same, lookup_cons_ite, if_pos rfl] at gone
          cases gone
      have values : head.2 = head'.2 := by
        have here := same head.1
        rw [lookup_cons_ite, lookup_cons_ite, if_pos rfl, if_pos keys] at here
        exact Option.some.inj here
      have tails : rest = rest' := by
        apply ih (List.pairwise_cons.mp ordered).2 (List.pairwise_cons.mp others).2
        intro key
        by_cases here : key = head.1
        · rw [here, ordered.lookup_tail, keys, others.lookup_tail]
        · have there := same key
          rwa [lookup_cons_ite, lookup_cons_ite, if_neg here, if_neg (keys ▸ here)] at there
      rw [tails, Prod.ext keys values]

end Dict

end Python
