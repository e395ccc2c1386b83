import Mathlib.Tactic.Common
import Mathlib.Data.List.Forall2

namespace Runs

section Outcomes

variable {ε α β : Type}

theorem bind_ok_iff {x : Except ε α} {f : α → Except ε β} {result : β} :
    (x >>= f) = .ok result ↔ ∃ value, x = .ok value ∧ f value = .ok result := by
  cases x with
  | error e => simp [bind, Except.bind]
  | ok value => simp [bind, Except.bind]

theorem bind_error_iff {x : Except ε α} {f : α → Except ε β} {failure : ε} :
    (x >>= f) = .error failure ↔ x = .error failure ∨ ∃ value, x = .ok value ∧ f value = .error failure := by
  cases x with
  | error e => simp [bind, Except.bind]
  | ok value => simp [bind, Except.bind]

theorem bind_congr_ok {x : Except ε α} {f g : α → Except ε β} (same : ∀ value, x = .ok value → f value = g value) :
    (x >>= f) = (x >>= g) := by
  cases x with
  | error e => rfl
  | ok value => exact same value rfl

theorem gate_passed {gate : Except ε Unit} {rest : Unit → Except ε α} {result : α}
    (accepted : (gate >>= rest) = .ok result) : rest () = .ok result := by
  rcases bind_ok_iff.mp accepted with ⟨_, -, continued⟩
  exact continued

def okAnd (x : Except ε α) (test : α → Bool) : Bool :=
  match x with
  | .ok value => test value
  | .error _ => false

theorem okAnd_iff {x : Except ε α} {test : α → Bool} :
    okAnd x test = true ↔ ∃ value, x = .ok value ∧ test value = true := by
  cases x with
  | error e => simp [okAnd]
  | ok value => simp [okAnd]

theorem exists_of_isOk {x : Except ε α} (accepted : x.isOk = true) : ∃ value, x = .ok value := by
  cases x with
  | error e => cases accepted
  | ok value => exact ⟨value, rfl⟩

theorem ne_ok_of_isOk {x : Except ε α} (refused : x.isOk = false) (value : α) : x ≠ .ok value := by
  intro accepted
  rw [accepted] at refused
  cases refused

def require (allowed : Prop) [Decidable allowed] (failure : ε) : Except ε Unit :=
  if allowed then .ok () else .error failure

@[simp] theorem require_ok_iff {allowed : Prop} [Decidable allowed] {failure : ε} {u : Unit} :
    require allowed failure = .ok u ↔ allowed := by
  unfold require
  split <;> simp_all

theorem require_error_iff {allowed : Prop} [Decidable allowed] {failure raised : ε} :
    require allowed failure = .error raised ↔ ¬ allowed ∧ failure = raised := by
  unfold require
  split <;> simp_all

theorem ite_bind_ok {condition : Prop} [Decidable condition] {gate : Except ε Unit} {rest : Unit → Except ε α}
    {result : α} (accepted : (if condition then gate >>= rest else rest ()) = .ok result) :
    rest () = .ok result := by
  split at accepted
  · exact gate_passed accepted
  · exact accepted

theorem filterAuxM_ok {test : α → Except ε Bool} {items acc kept : List α}
    (filtered : items.filterAuxM test acc = .ok kept) :
    (∀ item ∈ acc, item ∈ kept) ∧
      ∀ item ∈ items, ∃ answer, test item = .ok answer ∧ (answer = true → item ∈ kept) := by
  induction items generalizing acc with
  | nil =>
    cases filtered
    simp
  | cons head rest ih =>
    obtain ⟨answer, tested, filtered⟩ := bind_ok_iff.mp filtered
    obtain ⟨carried, later⟩ := ih filtered
    refine ⟨fun item member => carried item ?_, fun item member => ?_⟩
    · cases answer <;> simp [member]
    · rcases List.mem_cons.mp member with rfl | member
      · refine ⟨answer, tested, ?_⟩
        rintro rfl
        exact carried item (by simp)
      · exact later item member

theorem filterM_ok {test : α → Except ε Bool} {items kept : List α} (filtered : items.filterM test = .ok kept) :
    ∀ item ∈ items, ∃ answer, test item = .ok answer ∧ (answer = true → item ∈ kept) := by
  obtain ⟨reversed, walked, result⟩ := bind_ok_iff.mp filtered
  cases result
  intro item member
  obtain ⟨answer, tested, passed⟩ := (filterAuxM_ok walked).2 item member
  exact ⟨answer, tested, fun yes => List.mem_reverse.mpr (passed yes)⟩

theorem mapM_ok {f : α → Except ε β} {P : β → Prop} {items : List α}
    (each : ∀ item ∈ items, ∃ value, f item = .ok value ∧ P value) :
    ∃ values, items.mapM f = .ok values ∧ ∀ value ∈ values, P value := by
  induction items with
  | nil => exact ⟨[], rfl, by simp⟩
  | cons item rest ih =>
    rw [List.forall_mem_cons] at each
    obtain ⟨⟨value, computed, holds⟩, later⟩ := each
    obtain ⟨values, mapped, all⟩ := ih later
    refine ⟨value :: values, by simp [List.mapM_cons, computed, mapped, bind, Except.bind, pure, Except.pure], ?_⟩
    exact List.forall_mem_cons.mpr ⟨holds, all⟩

theorem mapM_ok_iff {f : α → Except ε β} {items : List α} {values : List β} :
    items.mapM f = .ok values ↔ List.Forall₂ (fun item value => f item = .ok value) items values := by
  induction items generalizing values with
  | nil => simp [List.mapM_nil, pure, Except.pure, eq_comm]
  | cons item rest ih =>
    rw [List.mapM_cons, bind_ok_iff, List.forall₂_cons_left_iff]
    simp only [bind_ok_iff, pure, Except.pure, Except.ok.injEq]
    constructor
    · rintro ⟨value, computed, others, mapped, rfl⟩
      exact ⟨value, others, computed, ih.mp mapped, rfl⟩
    · rintro ⟨value, others, computed, mapped, rfl⟩
      exact ⟨value, computed, others, ih.mpr mapped, rfl⟩

theorem mem_of_mapM {f : α → Except ε β} {items : List α} {values : List β} (mapped : items.mapM f = .ok values)
    {value : β} (member : value ∈ values) : ∃ item ∈ items, f item = .ok value := by
  have pairs := mapM_ok_iff.mp mapped
  clear mapped
  induction pairs with
  | nil => cases member
  | @cons head first items values computed pairs ih =>
    rcases List.mem_cons.mp member with rfl | later
    · exact ⟨head, List.mem_cons_self, computed⟩
    · obtain ⟨item, held, known⟩ := ih later
      exact ⟨item, List.mem_cons_of_mem _ held, known⟩

theorem mapM_of_mem {f : α → Except ε β} {items : List α} {values : List β} (mapped : items.mapM f = .ok values)
    {item : α} (member : item ∈ items) : ∃ value ∈ values, f item = .ok value := by
  have pairs := mapM_ok_iff.mp mapped
  clear mapped
  induction pairs with
  | nil => cases member
  | @cons head first items values computed pairs ih =>
    rcases List.mem_cons.mp member with rfl | later
    · exact ⟨first, List.mem_cons_self, computed⟩
    · obtain ⟨value, held, known⟩ := ih later
      exact ⟨value, List.mem_cons_of_mem _ held, known⟩

theorem mapM_congr {f g : α → Except ε β} {items : List α} (same : ∀ item ∈ items, f item = g item) :
    items.mapM f = items.mapM g := by
  induction items with
  | nil => rfl
  | cons item rest ih =>
    rw [List.forall_mem_cons] at same
    rw [List.mapM_cons, List.mapM_cons, same.1, ih same.2]

theorem mapM_snoc {f : α → Except ε β} {items : List α} {values : List β} {last : α} {value : β}
    (mapped : items.mapM f = .ok values) (computed : f last = .ok value) :
    (items ++ [last]).mapM f = .ok (values ++ [value]) := by
  simp [List.mapM_append, mapped, computed, bind, Except.bind, pure, Except.pure]

theorem foldlM_ok {f : β → α → Except ε β} {P : β → Prop} {items : List α}
    (each : ∀ item ∈ items, ∀ held, P held → ∃ next, f held item = .ok next ∧ P next) {start : β} (holds : P start) :
    ∃ last, items.foldlM f start = .ok last ∧ P last := by
  induction items generalizing start with
  | nil => exact ⟨start, rfl, holds⟩
  | cons item rest ih =>
    rw [List.forall_mem_cons] at each
    rcases each.1 start holds with ⟨next, computed, kept⟩
    rcases ih each.2 kept with ⟨last, folded, final⟩
    exact ⟨last, by rw [List.foldlM_cons, computed]; exact folded, final⟩

theorem forIn_passes {items : List α} {body : α → PUnit → Except ε (ForInStep PUnit)}
    (each : ∀ item ∈ items, body item ⟨⟩ = .ok (.yield ⟨⟩)) : forIn items PUnit.unit body = .ok ⟨⟩ := by
  induction items with
  | nil => rfl
  | cons item rest ih =>
    rw [List.forall_mem_cons] at each
    rw [List.forIn_cons, each.1]
    exact ih each.2

def Raises (allowed : ε → Prop) (x : Except ε α) : Prop := ∀ failure, x = .error failure → allowed failure

section Raising

variable {allowed : ε → Prop}

theorem Raises.ok (value : α) : Raises allowed (.ok value : Except ε α) := by
  intro failure raised
  cases raised

theorem Raises.error {failure : ε} (known : allowed failure) : Raises allowed (.error failure : Except ε α) := by
  intro other raised
  cases raised
  exact known

theorem Raises.require {condition : Prop} [Decidable condition] {failure : ε} (known : allowed failure) :
    Raises allowed (Runs.require condition failure) := by
  unfold Runs.require
  split
  · exact .ok ()
  · exact .error known

theorem Raises.bind {x : Except ε α} {f : α → Except ε β} (first : Raises allowed x)
    (later : ∀ value, x = .ok value → Raises allowed (f value)) : Raises allowed (x >>= f) := by
  cases x with
  | error e => exact .error (first e rfl)
  | ok value => exact later value rfl

theorem Raises.filterM {test : α → Except ε Bool} (each : ∀ item, Raises allowed (test item)) (items : List α) :
    Raises allowed (items.filterM test) := by
  have walk : ∀ acc, Raises allowed (items.filterAuxM test acc) := by
    induction items with
    | nil => exact fun acc => .ok acc
    | cons item rest ih => exact fun acc => .bind (each item) fun answer _ => ih _
  exact .bind (walk []) fun kept _ => .ok _

theorem Raises.mapM {f : α → Except ε β} (each : ∀ item, Raises allowed (f item)) (items : List α) :
    Raises allowed (items.mapM f) := by
  induction items with
  | nil => exact .ok []
  | cons item rest ih =>
    rw [List.mapM_cons]
    exact .bind (each item) fun value _ => .bind ih fun values _ => .ok _

end Raising

end Outcomes

section Machines

variable {σ α ε : Type} (step : σ → α → Except ε σ)

def attempt (s : σ) (call : α) : σ :=
  match step s call with
  | .ok next => next
  | .error _ => s

def run (s : σ) (calls : List α) : σ := calls.foldl (attempt step) s

def visited (s : σ) : List α → List σ
  | [] => [s]
  | call :: calls => s :: visited (attempt step s call) calls

/-- Every call that is accepted meets `allowed` in the state it is made in. -/
def Along (allowed : σ → α → Prop) : σ → List α → Prop
  | _, [] => True
  | s, call :: calls => ((∃ next, step s call = .ok next) → allowed s call) ∧
      Along allowed (attempt step s call) calls

variable {step}

instance Along.decidable {allowed : σ → α → Prop} [∀ s call, Decidable (allowed s call)] :
    (s : σ) → (calls : List α) → Decidable (Along step allowed s calls)
  | _, [] => isTrue trivial
  | s, call :: calls =>
    have : Decidable (Along step allowed (attempt step s call) calls) := Along.decidable _ calls
    have accepted : (step s call).isOk = true ↔ ∃ next, step s call = .ok next :=
      ⟨exists_of_isOk, fun ⟨_, accepted⟩ => by rw [accepted]; rfl⟩
    have := decidable_of_iff _ accepted
    inferInstanceAs (Decidable (_ ∧ _))

theorem Along.mono {allowed stronger : σ → α → Prop} (weaker : ∀ s call, stronger s call → allowed s call) {s : σ}
    {calls : List α} (along : Along step stronger s calls) : Along step allowed s calls := by
  induction calls generalizing s with
  | nil => trivial
  | cons call calls ih => exact ⟨fun accepted => weaker s call (along.1 accepted), ih along.2⟩

theorem attempt_ok {s next : σ} {call : α} (accepted : step s call = .ok next) :
    attempt step s call = next := by
  simp [attempt, accepted]

theorem start_visited (s : σ) (calls : List α) : s ∈ visited step s calls := by
  cases calls <;> simp [visited]

theorem run_visited (s : σ) (calls : List α) : run step s calls ∈ visited step s calls := by
  induction calls generalizing s with
  | nil => exact List.mem_singleton_self s
  | cons call calls ih => exact List.mem_cons_of_mem _ (ih _)

theorem attempt_preserves {invariant : σ → Prop} {s : σ} {call : α} (start : invariant s)
    (preserved : ∀ next, step s call = .ok next → invariant next) : invariant (attempt step s call) := by
  cases outcome : step s call with
  | ok next =>
    rw [attempt_ok outcome]
    exact preserved next outcome
  | error failure => simpa [attempt, outcome] using start

theorem run_preserves {invariant : σ → Prop}
    (preserved : ∀ s call next, invariant s → step s call = .ok next → invariant next) {s : σ} (start : invariant s)
    (calls : List α) : invariant (run step s calls) := by
  induction calls generalizing s with
  | nil => exact start
  | cons call calls ih => exact ih (attempt_preserves start fun next => preserved s call next start)

theorem run_preserves_mem {invariant : σ → Prop} {s : σ} {calls : List α} (start : invariant s)
    (preserved : ∀ s call next, call ∈ calls → invariant s → step s call = .ok next → invariant next) :
    invariant (run step s calls) := by
  induction calls generalizing s with
  | nil => exact start
  | cons call calls ih =>
    apply ih (attempt_preserves start fun next => preserved s call next List.mem_cons_self start)
    intro s later next member
    exact preserved s later next (List.mem_cons_of_mem _ member)

/-- What every allowed step preserves holds in every state a run of allowed steps reaches; a step may rely on what
    is known of all the states the run visits. -/
theorem run_invariant_within {within invariant : σ → Prop} {allowed : σ → α → Prop} {calls : List α}
    (preserved : ∀ s call next, call ∈ calls → within s → within next → invariant s → allowed s call →
      step s call = .ok next → invariant next)
    {s : σ} (start : invariant s) (along : Along step allowed s calls) (inside : ∀ t ∈ visited step s calls, within t) :
    invariant (run step s calls) := by
  induction calls generalizing s with
  | nil => exact start
  | cons call calls ih =>
    obtain ⟨permitted, rest⟩ := along
    rw [visited, List.forall_mem_cons] at inside
    apply ih (fun s call next member => preserved s call next (List.mem_cons_of_mem _ member)) _ rest inside.2
    apply attempt_preserves start
    intro next accepted
    have reached := inside.2 _ (start_visited _ _)
    rw [attempt_ok accepted] at reached
    exact preserved s call next List.mem_cons_self inside.1 reached start (permitted ⟨next, accepted⟩) accepted

theorem run_invariant_mem {invariant : σ → Prop} {allowed : σ → α → Prop} {calls : List α}
    (preserved : ∀ s call next, call ∈ calls → invariant s → allowed s call → step s call = .ok next → invariant next)
    {s : σ} (start : invariant s) (along : Along step allowed s calls) : invariant (run step s calls) :=
  run_invariant_within (fun s call next member _ _ => preserved s call next member) start along
    fun _ _ => trivial

theorem run_invariant {invariant : σ → Prop} {allowed : σ → α → Prop}
    (preserved : ∀ s call next, invariant s → allowed s call → step s call = .ok next → invariant next)
    {s : σ} {calls : List α} (start : invariant s) (along : Along step allowed s calls) :
    invariant (run step s calls) :=
  run_invariant_mem (fun s call next _ => preserved s call next) start along

theorem visited_invariant {invariant : σ → Prop} {allowed : σ → α → Prop}
    (preserved : ∀ s call next, invariant s → allowed s call → step s call = .ok next → invariant next)
    {s : σ} {calls : List α} (start : invariant s) (along : Along step allowed s calls) :
    ∀ t ∈ visited step s calls, invariant t := by
  induction calls generalizing s with
  | nil => simpa [visited] using start
  | cons call calls ih =>
    rw [visited, List.forall_mem_cons]
    refine ⟨start, ih (attempt_preserves start fun next accepted => ?_) along.2⟩
    exact preserved s call next start (along.1 ⟨next, accepted⟩) accepted

end Machines

end Runs
