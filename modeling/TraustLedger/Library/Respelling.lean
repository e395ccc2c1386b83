import TraustLedger.Library.Json

namespace Python

namespace Json

def number : Json → Option Int
  | .bool b => some (if b then 1 else 0)
  | .int n => some n
  | .float x => x.integral
  | _ => none

mutual

/-- Two values that are one but for the spelling of numbers: `true` for `1`, `1.0` for `1`, `-0.0` for `0`. -/
inductive Respelled : Json → Json → Prop
  | same (v : Json) : Respelled v v
  | number {v w : Json} {n : Int} (left : v.number = some n) (right : w.number = some n) : Respelled v w
  | arr {items others : List Json} (each : RespelledItems items others) : Respelled (.arr items) (.arr others)
  | obj {fields others : List (String × Json)} (each : RespelledFields fields others) :
    Respelled (.obj fields) (.obj others)

inductive RespelledItems : List Json → List Json → Prop
  | nil : RespelledItems [] []
  | cons {v w : Json} {items others : List Json} (head : Respelled v w) (tail : RespelledItems items others) :
    RespelledItems (v :: items) (w :: others)

inductive RespelledFields : List (String × Json) → List (String × Json) → Prop
  | nil : RespelledFields [] []
  | cons {key : String} {v w : Json} {fields others : List (String × Json)} (head : Respelled v w)
    (tail : RespelledFields fields others) : RespelledFields ((key, v) :: fields) ((key, w) :: others)

end

theorem norm_of_number {v : Json} {n : Int} (value : v.number = some n) : v.norm = .int n := by
  cases v with
  | bool b =>
    cases value
    rfl
  | int m =>
    cases value
    rfl
  | float x =>
    rw [number] at value
    rw [norm, normFloat, value]
    rfl
  | _ => cases value

theorem number_of_norm {v : Json} {n : Int} (value : v.norm = .int n) : v.number = some n := by
  cases v with
  | bool b =>
    cases value
    rfl
  | int m =>
    cases value
    rfl
  | float x =>
    rw [norm, normFloat] at value
    rw [number]
    cases integral : x.integral with
    | none =>
      rw [integral] at value
      cases value
    | some m =>
      rw [integral] at value
      cases value
      rfl
  | _ => cases value

theorem norm_float (x : FloatText) :
    (∃ n, x.integral = some n ∧ (Json.float x).norm = .int n) ∨ (Json.float x).norm = .float x := by
  cases integral : x.integral with
  | some n => exact Or.inl ⟨n, rfl, norm_of_number integral⟩
  | none =>
    right
    rw [norm, normFloat, integral]
    rfl

theorem eq_float_of_norm {x : FloatText} {w : Json} (same : w.norm = .float x) : w = .float x := by
  cases w with
  | float y =>
    rcases norm_float y with ⟨n, -, value⟩ | value
    · rw [value] at same
      cases same
    · exact value.symm.trans same
  | _ => cases same

mutual

theorem Respelled.norm_eq : ∀ {v w : Json}, Respelled v w → v.norm = w.norm
  | _, _, .same _ => rfl
  | _, _, .number left right => (norm_of_number left).trans (norm_of_number right).symm
  | _, _, .arr each => congrArg Json.arr each.norm_eq
  | _, _, .obj each => congrArg Json.obj each.norm_eq

theorem RespelledItems.norm_eq : ∀ {items others : List Json}, RespelledItems items others →
    normItems items = normItems others
  | _, _, .nil => rfl
  | _, _, .cons head tail => by rw [normItems, normItems, head.norm_eq, tail.norm_eq]

theorem RespelledFields.norm_eq : ∀ {fields others : List (String × Json)}, RespelledFields fields others →
    normFields fields = normFields others
  | _, _, .nil => rfl
  | _, _, .cons head tail => by rw [normFields, normFields, head.norm_eq, tail.norm_eq]

end

mutual

theorem respelled_of_norm : ∀ v w : Json, v.norm = w.norm → Respelled v w
  | .null, w, same => by
    rw [pyEq_null_left (pyEq_iff.mpr same)]
    exact .same .null
  | .bool b, w, same => .number rfl (number_of_norm same.symm)
  | .int n, w, same => .number rfl (number_of_norm same.symm)
  | .float x, w, same => by
    rcases norm_float x with ⟨n, integral, value⟩ | value
    · exact .number integral (number_of_norm (same.symm.trans value))
    · rw [eq_float_of_norm (same.symm.trans value)]
      exact .same (.float x)
  | .str s, w, same => by
    have text : w = .str s := by simpa using pyEq_iff.mpr same.symm
    rw [text]
    exact .same (.str s)
  | .arr items, w, same => by
    cases w with
    | arr others => exact .arr (respelledItems_of_norm items others (Json.arr.inj same))
    | float x =>
      rcases norm_float x with ⟨n, -, value⟩ | value
      · cases same.trans value
      · cases same.trans value
    | _ => cases same
  | .obj fields, w, same => by
    cases w with
    | obj others => exact .obj (respelledFields_of_norm fields others (Json.obj.inj same))
    | float x =>
      rcases norm_float x with ⟨n, -, value⟩ | value
      · cases same.trans value
      · cases same.trans value
    | _ => cases same

theorem respelledItems_of_norm : ∀ items others : List Json, normItems items = normItems others →
    RespelledItems items others
  | [], [], _ => .nil
  | [], _ :: _, same => nomatch same
  | _ :: _, [], same => nomatch same
  | v :: items, w :: others, same => .cons (respelled_of_norm v w (List.cons.inj same).1)
    (respelledItems_of_norm items others (List.cons.inj same).2)

theorem respelledFields_of_norm : ∀ fields others : List (String × Json), normFields fields = normFields others →
    RespelledFields fields others
  | [], [], _ => .nil
  | [], _ :: _, same => nomatch same
  | _ :: _, [], same => nomatch same
  | (key, v) :: fields, (other, w) :: others, same => by
    rw [normFields, normFields, List.cons.injEq, Prod.mk.injEq] at same
    rcases same with ⟨⟨rfl, head⟩, tail⟩
    exact .cons (respelled_of_norm v w head) (respelledFields_of_norm fields others tail)

end

/-- Python's `==` takes two values for one exactly when they are one but for the spelling of numbers. -/
theorem pyEq_iff_respelled {v w : Json} : pyEq v w = true ↔ Respelled v w := by
  rw [pyEq_iff]
  exact ⟨respelled_of_norm v w, Respelled.norm_eq⟩

theorem RespelledFields.eq_of_texts {fields others : List (String × Json)} (each : RespelledFields fields others)
    (texts : ∀ entry ∈ others, ∃ text, entry.2 = .str text) : fields = others := by
  induction others generalizing fields with
  | nil =>
    cases each
    rfl
  | cons entry others ih =>
    rw [List.forall_mem_cons] at texts
    rcases texts with ⟨⟨text, spelled⟩, later⟩
    cases each with
    | @cons key v _ _ _ head tail =>
      cases spelled
      have same : v = .str text := by simpa using pyEq_iff_respelled.mpr head
      rw [same, ih tail later]

theorem eq_of_pyEq_texts {v : Json} {fields : List (String × Json)} (same : pyEq v (.obj fields) = true)
    (texts : ∀ entry ∈ fields, ∃ text, entry.2 = .str text) : v = .obj fields := by
  cases pyEq_iff_respelled.mp same with
  | same => rfl
  | number left right => cases right
  | obj each => rw [each.eq_of_texts texts]

theorem number_of_pyEq {v : Json} {n : Int} (same : pyEq v (.int n) = true) : v.number = some n :=
  number_of_norm (pyEq_iff.mp same)

theorem pyInt_of_number {v : Json} {n : Int} (value : v.number = some n) : v.pyInt = some n := by
  cases v with
  | bool b => exact value
  | int m => exact value
  | float x =>
    rw [number, FloatText.integral] at value
    split at value
    · exact value
    · cases value
  | _ => cases value

theorem truthy_of_number {v : Json} {n : Int} (value : v.number = some n) (held : n ≠ 0) : v.truthy = true := by
  cases v with
  | bool b =>
    cases b with
    | false =>
      cases value
      exact absurd rfl held
    | true => rfl
  | int m =>
    cases value
    simpa [truthy] using held
  | float x =>
    rw [number] at value
    simpa [truthy, value] using held
  | _ => cases value

end Json

end Python
