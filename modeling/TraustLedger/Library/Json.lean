import TraustLedger.Library.PyText
import Mathlib.Data.List.Basic

namespace Python

/-- A decoded JSON document. The fields of an object stand in key order, as `sort_keys` prints them;
    lookups take the first match, so every result below also holds of lists in any other order. -/
inductive Json where
  | null
  | bool (b : Bool)
  | int (n : Int)
  | float (x : FloatText)
  | str (s : String)
  | arr (items : List Json)
  | obj (fields : List (String × Json))

namespace Json

mutual

def beq : Json → Json → Bool
  | .null, .null => true
  | .bool a, .bool b => a == b
  | .int a, .int b => a == b
  | .float a, .float b => decide (a = b)
  | .str a, .str b => a == b
  | .arr a, .arr b => beqItems a b
  | .obj a, .obj b => beqFields a b
  | _, _ => false

def beqItems : List Json → List Json → Bool
  | [], [] => true
  | a :: as, b :: bs => beq a b && beqItems as bs
  | _, _ => false

def beqFields : List (String × Json) → List (String × Json) → Bool
  | [], [] => true
  | (k, a) :: as, (l, b) :: bs => k == l && beq a b && beqFields as bs
  | _, _ => false

end

mutual

theorem beq_iff : ∀ a b : Json, beq a b = true ↔ a = b
  | .null, b => by cases b <;> simp [beq]
  | .bool _, b => by cases b <;> simp [beq]
  | .int _, b => by cases b <;> simp [beq]
  | .float _, b => by cases b <;> simp [beq]
  | .str _, b => by cases b <;> simp [beq]
  | .arr items, b => by
    cases b with
    | arr others => simp [beq, beqItems_iff items others]
    | _ => simp [beq]
  | .obj fields, b => by
    cases b with
    | obj others => simp [beq, beqFields_iff fields others]
    | _ => simp [beq]

theorem beqItems_iff : ∀ as bs : List Json, beqItems as bs = true ↔ as = bs
  | [], bs => by cases bs <;> simp [beqItems]
  | a :: as, [] => by simp [beqItems]
  | a :: as, b :: bs => by simp [beqItems, beq_iff a b, beqItems_iff as bs]

theorem beqFields_iff : ∀ as bs : List (String × Json), beqFields as bs = true ↔ as = bs
  | [], bs => by cases bs <;> simp [beqFields]
  | (k, a) :: as, [] => by simp [beqFields]
  | (k, a) :: as, (l, b) :: bs => by
    simp [beqFields, beq_iff a b, beqFields_iff as bs]

end

instance : DecidableEq Json := fun a b => decidable_of_iff _ (beq_iff a b)

def normFloat (x : FloatText) : Json := x.integral.elim (.float x) .int

mutual

/-- The representative of a value under `==`: booleans and integral floats are their integers. -/
def norm : Json → Json
  | .bool b => .int (if b then 1 else 0)
  | .float x => normFloat x
  | .arr items => .arr (normItems items)
  | .obj fields => .obj (normFields fields)
  | .null => .null
  | .int n => .int n
  | .str s => .str s

def normItems : List Json → List Json
  | [] => []
  | item :: items => norm item :: normItems items

def normFields : List (String × Json) → List (String × Json)
  | [] => []
  | (key, value) :: fields => (key, norm value) :: normFields fields

end

def pyEq (a b : Json) : Bool := decide (a.norm = b.norm)

def pyIn (value : Json) (values : List Json) : Bool := values.any (pyEq value)

def truthy : Json → Bool
  | .null => false
  | .bool b => b
  | .int n => n != 0
  | .float x => x.integral != some 0
  | .str s => s != ""
  | .arr items => !items.isEmpty
  | .obj fields => !fields.isEmpty

def pyInt : Json → Option Int
  | .bool b => some (if b then 1 else 0)
  | .int n => some n
  | .float x => some x.trunc
  | .str s => parseInt s
  | _ => none

def isObj : Json → Bool
  | .obj _ => true
  | _ => false

theorem pyEq_iff {a b : Json} : pyEq a b = true ↔ a.norm = b.norm := by
  simp [pyEq]

@[simp] theorem pyEq_self (a : Json) : pyEq a a = true := by simp [pyEq]

theorem pyEq_symm {a b : Json} (same : pyEq a b = true) : pyEq b a = true := by
  rw [pyEq_iff] at same ⊢
  exact same.symm

theorem pyEq_trans {a b c : Json} (first : pyEq a b = true) (second : pyEq b c = true) :
    pyEq a c = true := by
  rw [pyEq_iff] at first second ⊢
  exact first.trans second

theorem pyEq_congr_left {a b : Json} (same : pyEq a b = true) (c : Json) : pyEq a c = pyEq b c := by
  rw [pyEq_iff] at same
  simp [pyEq, same]

@[simp] theorem pyEq_str (a : Json) (s : String) : pyEq a (.str s) = decide (a = .str s) := by
  cases a with
  | float x =>
    cases integral : x.integral <;> simp [pyEq, norm, normFloat, integral]
  | _ => simp [pyEq, norm]

@[simp] theorem pyEq_null (a : Json) : pyEq a .null = decide (a = .null) := by
  cases a with
  | float x =>
    cases integral : x.integral <;> simp [pyEq, norm, normFloat, integral]
  | _ => simp [pyEq, norm]

theorem pyEq_null_left {a : Json} (same : pyEq .null a = true) : a = .null := by
  simpa using pyEq_symm same

theorem isObj_congr {a b : Json} (same : pyEq a b = true) : a.isObj = b.isObj := by
  rw [pyEq_iff] at same
  have shape : ∀ v : Json, v.norm.isObj = v.isObj := by
    intro v
    cases v with
    | float x => cases integral : x.integral <;> simp [norm, normFloat, isObj, integral]
    | _ => simp [norm, isObj]
  rw [← shape a, same, shape b]

theorem pyIn_congr {a b : Json} (same : pyEq a b = true) (values : List Json) :
    pyIn a values = pyIn b values := by
  have pointwise : pyEq a = pyEq b := funext (pyEq_congr_left same)
  rw [pyIn, pyIn, pointwise]

theorem pyIn_iff {value : Json} {values : List Json} :
    pyIn value values = true ↔ ∃ v ∈ values, pyEq value v = true := by
  simp [pyIn]

end Json

abbrev Dict := List (String × Json)

namespace Dict

def get (d : Dict) (key : String) : Json := (d.lookup key).getD .null

def getD (d : Dict) (key : String) (default : Json) : Json := (d.lookup key).getD default

def has (d : Dict) (key : String) : Bool := (d.lookup key).isSome

/-- `d.items()`: an entry that another shadows reads as the one a lookup finds. -/
def items (d : Dict) : List (String × Json) := d.map fun entry => (entry.1, d.get entry.1)

def precedes : List Char → List Char → Bool
  | [], [] => false
  | [], _ :: _ => true
  | _ :: _, [] => false
  | a :: as, b :: bs => if a = b then precedes as bs else decide (a.toNat < b.toNat)

def set : Dict → String → Json → Dict
  | [], key, value => [(key, value)]
  | (k, v) :: rest, key, value =>
    if key = k then (key, value) :: rest
    else if precedes (chars key) (chars k) then (key, value) :: (k, v) :: rest
    else (k, v) :: set rest key value

def remove (d : Dict) (key : String) : Dict := d.filter fun entry => entry.1 != key

def setDefault (d : Dict) (key : String) (value : Json) : Dict :=
  if d.has key then d else d.set key value

/-- `{**d, **other}`. The keys of `other` are distinct, so the order of the writes is free. -/
def update (d other : Dict) : Dict := other.foldr (fun entry merged => set merged entry.1 entry.2) d

def ofList (entries : List (String × Json)) : Dict := update [] entries

variable (d other : Dict) (key k : String) (value : Json)

theorem lookup_cons_ite (entry : String × Json) :
    List.lookup k (entry :: d) = if k = entry.1 then some entry.2 else d.lookup k := by
  obtain ⟨key, value⟩ := entry
  by_cases same : k = key
  · simp [same]
  · have test : (k == key) = false := beq_false_of_ne same
    rw [List.lookup_cons, test, if_neg same]

@[simp] theorem lookup_set : (d.set key value).lookup k = if k = key then some value else d.lookup k := by
  induction d with
  | nil => simp [set, lookup_cons_ite]
  | cons entry rest ih =>
    simp only [set]
    split
    · next here =>
      by_cases same : k = key <;> simp [lookup_cons_ite, same, ← here]
    · split
      · simp [lookup_cons_ite]
      · next away _ =>
        by_cases same : k = entry.1
        · have other : ¬ k = key := fun h => away (h ▸ same)
          rw [lookup_cons_ite, lookup_cons_ite, if_pos same, if_neg other, if_pos same]
        · rw [lookup_cons_ite, lookup_cons_ite, if_neg same, if_neg same, ih]

@[simp] theorem lookup_remove : (d.remove key).lookup k = if k = key then none else d.lookup k := by
  induction d with
  | nil => simp [remove]
  | cons entry rest ih =>
    rw [remove] at ih ⊢
    by_cases gone : entry.1 = key
    · rw [List.filter_cons_of_neg (by simp [gone]), ih, lookup_cons_ite, gone]
      by_cases same : k = key <;> simp [same]
    · rw [List.filter_cons_of_pos (by simp [gone]), lookup_cons_ite, lookup_cons_ite, ih]
      by_cases same : k = entry.1
      · have other : ¬ k = key := fun h => gone (same ▸ h)
        rw [if_pos same, if_neg other, if_pos same]
      · rw [if_neg same, if_neg same]

@[simp] theorem lookup_update :
    (update d other).lookup k = ((other.lookup k).or (d.lookup k)) := by
  induction other with
  | nil => simp [update]
  | cons entry rest ih =>
    rw [update, List.foldr_cons, lookup_set, lookup_cons_ite]
    rw [update] at ih
    by_cases same : k = entry.1
    · simp [same]
    · rw [if_neg same, if_neg same, ih]

@[simp] theorem lookup_ofList (entries : List (String × Json)) :
    (ofList entries).lookup k = entries.lookup k := by
  simp [ofList]

theorem lookup_mem {d : Dict} {key : String} {value : Json} (found : d.lookup key = some value) :
    (key, value) ∈ d := by
  induction d with
  | nil => simp at found
  | cons entry rest ih =>
    rw [lookup_cons_ite] at found
    by_cases same : key = entry.1
    · rw [if_pos same, Option.some.injEq] at found
      simp [same, ← found]
    · rw [if_neg same] at found
      exact List.mem_cons_of_mem _ (ih found)

theorem get_eq_of_lookup {d : Dict} {key : String} {value : Json} (found : d.lookup key = some value) :
    d.get key = value := by
  simp [get, found]

theorem has_iff_lookup : d.has key = true ↔ ∃ value, d.lookup key = some value := by
  simp [has, Option.isSome_iff_exists]

theorem has_of_mem {d : Dict} {key : String} {value : Json} (member : (key, value) ∈ d) :
    d.has key = true := by
  induction d with
  | nil => simp at member
  | cons entry rest ih =>
    rw [has, lookup_cons_ite]
    by_cases same : key = entry.1
    · simp [same]
    · rcases List.mem_cons.mp member with here | later
      · exact absurd (congrArg Prod.fst here) same
      · rw [if_neg same]
        exact ih later

theorem mem_items {d : Dict} {key : String} {value : Json} :
    (key, value) ∈ d.items ↔ d.lookup key = some value := by
  constructor
  · intro member
    obtain ⟨⟨k, v⟩, held, same⟩ := List.mem_map.mp member
    obtain ⟨rfl, rfl⟩ := Prod.mk.inj same
    obtain ⟨found, lookup⟩ := (has_iff_lookup d k).mp (has_of_mem held)
    rw [lookup, get_eq_of_lookup lookup]
  · intro found
    exact List.mem_map.mpr ⟨(key, value), lookup_mem found, by rw [get_eq_of_lookup found]⟩

theorem get_of_has_false {d : Dict} {key : String} (absent : d.has key = false) : d.get key = .null := by
  simp only [has, Option.isSome_eq_false_iff, Option.isNone_iff_eq_none] at absent
  simp [get, absent]

theorem has_of_get_ne_null {d : Dict} {key : String} (held : d.get key ≠ .null) : d.has key = true := by
  by_contra absent
  exact held (get_of_has_false (by simpa using absent))

@[simp] theorem get_nil : get [] k = .null := rfl

theorem get_cons (entry : String × Json) : get (entry :: d) k = if k = entry.1 then entry.2 else d.get k := by
  rw [get, lookup_cons_ite]
  split
  · rfl
  · rfl

@[simp] theorem get_set : (d.set key value).get k = if k = key then value else d.get k := by
  by_cases same : k = key <;> simp [get, same]

@[simp] theorem get_remove : (d.remove key).get k = if k = key then .null else d.get k := by
  by_cases same : k = key <;> simp [get, same]

theorem has_update : (update d other).has k = (has other k || d.has k) := by
  cases found : other.lookup k <;> simp [has, found]

end Dict

end Python
