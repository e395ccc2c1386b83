import Mathlib.Order.Defs.Unbundled
import Mathlib.Data.List.Basic

namespace Pagination

variable {K : Type} (before : K → K → Prop) [DecidableRel before]

def beyond (cursor : Option K) (members : List K) : List K :=
  members.filter fun key => cursor.all fun held => decide (before held key)

/-- One page of the members after the cursor. It may promise more than there is, never less. -/
structure PageOf (limit : Nat) (members : List K) (cursor : Option K) (page : List K) (more : Bool) : Prop where
  taken : page = (beyond before cursor members).take limit
  full : more = true → page.length = limit
  last : more = false → (beyond before cursor members).length ≤ limit

/-- Pages read one after the other, each from the members there are at its time, and whether the last was reached. -/
inductive PageRun (limit : Nat) : Option K → List (List K) → List K → Bool → Prop
  | unfinished {cursor : Option K} : PageRun limit cursor [] [] false
  | last {cursor : Option K} {members page : List K} {rest : List (List K)}
      (read : PageOf before limit members cursor page false) : PageRun limit cursor (members :: rest) page true
  | more {cursor : Option K} {members page keys : List K} {rest : List (List K)} {next : K} {finished : Bool}
      (read : PageOf before limit members cursor page true) (tail : page.getLast? = some next)
      (later : PageRun limit (some next) rest keys finished) :
      PageRun limit cursor (members :: rest) (page ++ keys) finished

variable {before}

theorem mem_beyond {cursor : Option K} {members : List K} {key : K} :
    key ∈ beyond before cursor members ↔ key ∈ members ∧ ∀ held ∈ cursor, before held key := by
  rw [beyond, List.mem_filter]
  cases cursor with
  | none => simp
  | some held => simp

@[simp] theorem beyond_none (members : List K) : beyond before none members = members := by
  simp [beyond]

theorem pairwise_beyond (cursor : Option K) {members : List K} (sorted : members.Pairwise before) :
    (beyond before cursor members).Pairwise before :=
  sorted.sublist List.filter_sublist

section Pages

variable {limit : Nat} {cursor : Option K} {shots : List (List K)} {members page keys : List K} {more finished : Bool}

theorem PageOf.mem_beyond (read : PageOf before limit members cursor page more) {key : K} (member : key ∈ page) :
    key ∈ beyond before cursor members := by
  rw [read.taken] at member
  exact List.mem_of_mem_take member

theorem PageOf.pairwise (read : PageOf before limit members cursor page more) (sorted : members.Pairwise before) :
    page.Pairwise before := by
  rw [read.taken]
  exact (pairwise_beyond cursor sorted).sublist (List.take_sublist _ _)

theorem PageOf.beyond_last (read : PageOf before limit members cursor page more) (sorted : members.Pairwise before)
    {next key : K} (tail : page.getLast? = some next) (member : key ∈ beyond before cursor members)
    (left : key ∉ page) : before next key := by
  have whole := List.take_append_drop limit (beyond before cursor members)
  rw [← read.taken] at whole
  rw [← whole] at member
  have apart := List.pairwise_append.mp (whole ▸ pairwise_beyond cursor sorted)
  rcases List.mem_append.mp member with here | later
  · exact absurd here left
  · exact apart.2.2 next (List.mem_of_getLast? tail) key later

theorem PageRun.complete (reads : PageRun before limit cursor shots keys finished)
    (sorted : ∀ members ∈ shots, members.Pairwise before) (reached : finished = true) {key : K}
    (throughout : ∀ members ∈ shots, key ∈ members) (after : ∀ held ∈ cursor, before held key) : key ∈ keys := by
  induction reads with
  | unfinished => cases reached
  | @last cursor members page rest read =>
    have all : page = beyond before cursor members := by
      rw [read.taken, List.take_of_length_le (read.last rfl)]
    rw [all]
    exact Pagination.mem_beyond.mpr ⟨throughout _ List.mem_cons_self, after⟩
  | @more cursor members page keys rest next finished read tail later ih =>
    rw [List.forall_mem_cons] at sorted throughout
    by_cases here : key ∈ page
    · exact List.mem_append_left _ here
    · have past := read.beyond_last sorted.1 tail (Pagination.mem_beyond.mpr ⟨throughout.1, after⟩) here
      refine List.mem_append_right _ (ih sorted.2 reached throughout.2 ?_)
      intro held given
      rw [Option.mem_some] at given
      rwa [← given]

theorem PageRun.within (reads : PageRun before limit cursor shots keys finished) {key : K} (member : key ∈ keys) :
    ∃ members ∈ shots, key ∈ members := by
  induction reads with
  | unfinished => cases member
  | last read => exact ⟨_, List.mem_cons_self, (Pagination.mem_beyond.mp (read.mem_beyond member)).1⟩
  | more read tail later ih =>
    rcases List.mem_append.mp member with here | following
    · exact ⟨_, List.mem_cons_self, (Pagination.mem_beyond.mp (read.mem_beyond here)).1⟩
    · rcases ih following with ⟨members, listed, held⟩
      exact ⟨members, List.mem_cons_of_mem _ listed, held⟩

omit [DecidableRel before] in
theorem pairwise_getLast {next key : K} (sorted : page.Pairwise before) (tail : page.getLast? = some next)
    (member : key ∈ page) : key = next ∨ before key next := by
  rcases List.getLast?_eq_some_iff.mp tail with ⟨start, rfl⟩
  rcases List.mem_append.mp member with earlier | last
  · exact Or.inr ((List.pairwise_append.mp sorted).2.2 key earlier next (List.mem_singleton_self next))
  · exact Or.inl (List.mem_singleton.mp last)

end Pages

section Ordered

variable [IsTrans K before] {limit : Nat} {cursor : Option K} {shots : List (List K)} {keys : List K} {finished : Bool}

theorem PageRun.increasing (reads : PageRun before limit cursor shots keys finished)
    (sorted : ∀ members ∈ shots, members.Pairwise before) :
    keys.Pairwise before ∧ ∀ key ∈ keys, ∀ held ∈ cursor, before held key := by
  induction reads with
  | unfinished => simp
  | last read =>
    refine ⟨read.pairwise (sorted _ List.mem_cons_self), ?_⟩
    intro key member
    exact (Pagination.mem_beyond.mp (read.mem_beyond member)).2
  | @more cursor members page keys rest next finished read tail later ih =>
    rw [List.forall_mem_cons] at sorted
    rcases ih sorted.2 with ⟨increasing, above⟩
    have inside := read.pairwise sorted.1
    have reached := (Pagination.mem_beyond.mp (read.mem_beyond (List.mem_of_getLast? tail))).2
    refine ⟨List.pairwise_append.mpr ⟨inside, increasing, ?_⟩, ?_⟩
    · intro key member other following
      have after := above other following next rfl
      rcases pairwise_getLast inside tail member with rfl | earlier
      · exact after
      · exact IsTrans.trans _ _ _ earlier after
    · intro key member held given
      rcases List.mem_append.mp member with here | following
      · exact (Pagination.mem_beyond.mp (read.mem_beyond here)).2 held given
      · exact IsTrans.trans _ _ _ (reached held given) (above key following next rfl)

variable [Std.Irrefl before]

theorem drop_idxOf [DecidableEq K] {members : List K} {key : K} (sorted : members.Pairwise before)
    (member : key ∈ members) : members.drop (members.idxOf key + 1) = beyond before (some key) members := by
  induction members with
  | nil => cases member
  | cons first rest ih =>
    rw [List.pairwise_cons] at sorted
    rw [beyond, List.filter_cons]
    by_cases same : first = key
    · subst same
      have itself : ¬ before first first := irrefl first
      have others : rest.filter (fun key => (some first).all fun held => decide (before held key)) = rest := by
        rw [List.filter_eq_self]
        intro other member
        simpa using sorted.1 other member
      rw [others, List.idxOf_cons_self, if_neg (by simpa using itself)]
      rfl
    · have later : key ∈ rest := by
        rcases List.mem_cons.mp member with wrong | later
        · exact absurd wrong.symm same
        · exact later
      have above : ¬ before key first := by
        intro wrong
        exact irrefl key (IsTrans.trans _ _ _ wrong (sorted.1 key later))
      rw [List.idxOf_cons_ne _ same, List.drop_succ_cons, ih sorted.2 later, if_neg (by simpa using above), beyond]

theorem beyond_shrinks {known : List K} {next : K} (member : next ∈ beyond before cursor known) :
    (beyond before (some next) known).length < (beyond before cursor known).length := by
  have narrower : beyond before (some next) known =
      (beyond before cursor known).filter fun key => decide (before next key) := by
    rw [beyond, beyond, List.filter_filter]
    refine List.filter_congr ?_
    intro key _
    have after := (mem_beyond.mp member).2
    cases cursor with
    | none => simp
    | some held =>
      by_cases past : before next key
      · simp [past, IsTrans.trans _ _ _ (after held rfl) past]
      · simp [past]
  rw [narrower, List.length_filter_lt_length_iff_exists]
  exact ⟨next, member, by simpa using irrefl next⟩

theorem PageRun.finishes (reads : PageRun before limit cursor shots keys finished) (known : List K)
    (among : ∀ members ∈ shots, ∀ key ∈ members, key ∈ known)
    (enough : (beyond before cursor known).length < shots.length) : finished = true := by
  induction reads with
  | unfinished => cases enough
  | last read => rfl
  | @more cursor members page keys rest next finished read tail later ih =>
    rw [List.forall_mem_cons] at among
    rcases Pagination.mem_beyond.mp (read.mem_beyond (List.mem_of_getLast? tail)) with ⟨listed, after⟩
    have shrinks := beyond_shrinks (Pagination.mem_beyond.mpr ⟨among.1 next listed, after⟩)
    rw [List.length_cons] at enough
    exact ih among.2 (by omega)

end Ordered

end Pagination
