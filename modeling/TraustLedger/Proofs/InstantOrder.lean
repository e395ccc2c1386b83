import TraustLedger.Proofs.Precedence

namespace LedgerProof

open Python Runs StableSort LedgerModel

variable {contracts : Contracts} {fromIsoFormat : String → Option Int} {finding : Dict} {generatedAt : String}

def DistinctInstants (contracts : Contracts) (fromIsoFormat : String → Option Int) (events : List Dict) : Prop :=
  ∃ pairs, List.Forall₂ (Reads contracts fromIsoFormat) events pairs ∧ (pairs.map Prod.fst).Nodup

/-- The other event is this one with its time written as another text of the same instant. -/
def Rewrites (contracts : Contracts) (fromIsoFormat : String → Option Int) (event other : Dict) : Prop :=
  ∃ parsed text, contracts.parseEvent event = some parsed ∧
    contracts.parseEvent other = some { parsed with recordedAt := text } ∧
    fromIsoFormat text = fromIsoFormat parsed.recordedAt

def SameTime (fromIsoFormat : String → Option Int) (left right : String) : Prop :=
  left = right ∨ ∃ instant, fromIsoFormat left = some instant ∧ fromIsoFormat right = some instant

structure SameOverride (fromIsoFormat : String → Option Int) (left right : SeverityOverride) : Prop where
  rest : right = { left with setAt := right.setAt }
  setAt : SameTime fromIsoFormat left.setAt right.setAt

/-- Two dispositions that differ at most in the times they echo. -/
structure SameButTimes (fromIsoFormat : String → Option Int) (left right : Disposition) : Prop where
  rest : right = { left with lastUpdated := right.lastUpdated, severityOverride := right.severityOverride }
  lastUpdated : SameTime fromIsoFormat left.lastUpdated right.lastUpdated
  severityOverride : Option.Rel (SameOverride fromIsoFormat) left.severityOverride right.severityOverride

section Merging

def Redated (fromIsoFormat : String → Option Int) (left right : Dated) : Prop :=
  ∃ text, fromIsoFormat left.2.recordedAt = some left.1 ∧ fromIsoFormat text = some left.1 ∧
    right = (left.1, { left.2 with recordedAt := text })

theorem Redated.sameTime {left right : Dated} (redated : Redated fromIsoFormat left right) :
    SameTime fromIsoFormat left.2.recordedAt right.2.recordedAt := by
  rcases redated with ⟨text, held, read, rfl⟩
  exact Or.inr ⟨left.1, held, read⟩

theorem Redated.congr {α : Type} {f : Dated → α}
    (blind : ∀ instant event text, f (instant, { event with recordedAt := text }) = f (instant, event)) :
    ∀ left right, Redated fromIsoFormat left right → f left = f right := by
  intro left right redated
  rcases redated with ⟨text, -, -, rfl⟩
  exact (blind left.1 left.2 text).symm

variable {exec exec' human human' machine machine' evts evts' : List Dated}

theorem staticValidity_redated (base : Json) (humans : List.Forall₂ (Redated fromIsoFormat) human human')
    (machines : List.Forall₂ (Redated fromIsoFormat) machine machine') :
    staticValidity base human machine = staticValidity base human' machine' := by
  have lastHuman := forall₂_getLast? humans
  have lastMachine := forall₂_getLast? machines
  unfold staticValidity
  generalize human.getLast? = decision, human'.getLast? = decision' at lastHuman ⊢
  generalize machine.getLast? = report, machine'.getLast? = report' at lastMachine ⊢
  cases lastHuman with
  | none =>
    cases lastMachine with
    | none => rfl
    | some redated =>
      rcases redated with ⟨text, -, -, rfl⟩
      rfl
  | some redated =>
    rcases redated with ⟨text, -, -, rfl⟩
    rfl

theorem filter_redated (p : Dated → Bool) (pairs : List.Forall₂ (Redated fromIsoFormat) evts evts')
    (blind : ∀ instant event text, p (instant, { event with recordedAt := text }) = p (instant, event)) :
    List.Forall₂ (Redated fromIsoFormat) (evts.filter p) (evts'.filter p) :=
  forall₂_filter (Redated.congr blind) pairs

theorem isEmpty_redated (pairs : List.Forall₂ (Redated fromIsoFormat) evts evts') : evts.isEmpty = evts'.isEmpty := by
  cases pairs with
  | nil => rfl
  | cons redated later => rfl

theorem executedValidity_redated (static : Json) (execs : List.Forall₂ (Redated fromIsoFormat) exec exec')
    (humans : List.Forall₂ (Redated fromIsoFormat) human human') :
    executedValidity static exec human = executedValidity static exec' human' := by
  have decisive := forall₂_getLast?
    (filter_redated (fun event => !asserts "false_positive" event) execs fun _ _ _ => rfl)
  have refuting := filter_redated (asserts "false_positive") humans fun _ _ _ => rfl
  unfold executedValidity
  generalize (exec.filter fun event => !asserts "false_positive" event).getLast? = proof,
    (exec'.filter fun event => !asserts "false_positive" event).getLast? = proof' at decisive ⊢
  generalize human.filter (asserts "false_positive") = refutations,
    human'.filter (asserts "false_positive") = refutations' at refuting ⊢
  cases decisive with
  | none => rfl
  | @some proof proof' redated =>
    rcases redated with ⟨text, -, -, rfl⟩
    -- the proof is compared by its instant, so the refutations before and after it are the same
    have before : refutations.any (fun event => decide (event.1 ≤ proof.1)) =
        refutations'.any fun event => decide (event.1 ≤ proof.1) :=
      forall₂_any (Redated.congr fun _ _ _ => rfl) refuting
    have after := filter_redated (fun event => decide (proof.1 < event.1)) refuting fun _ _ _ => rfl
    have verified := filter_redated (fun event => eventActorVerified event.2.actor) after fun _ _ _ => rfl
    have signers := forall₂_map_eq (f := fun event : Dated => event.2.actor.identity)
      (Redated.congr fun _ _ _ => rfl) verified
    simp only [before, signers, isEmpty_redated after]
    rfl

theorem bestResolution_redated (pairs : List.Forall₂ (Redated fromIsoFormat) evts evts') :
    bestResolution evts = bestResolution evts' := by
  have tiers : (evts.map fun event => resolutionTier event.2.sourceType) =
      evts'.map fun event => resolutionTier event.2.sourceType :=
    forall₂_map_eq (Redated.congr fun _ _ _ => rfl) pairs
  unfold bestResolution
  rw [tiers]
  generalize (evts'.map fun event => resolutionTier event.2.sourceType).min?.getD 2 = best
  have last := forall₂_getLast?
    (filter_redated (fun event => resolutionTier event.2.sourceType == best) pairs fun _ _ _ => rfl)
  simp only
  generalize (evts.filter fun event => resolutionTier event.2.sourceType == best).getLast? = held,
    (evts'.filter fun event => resolutionTier event.2.sourceType == best).getLast? = held' at last ⊢
  cases last with
  | none => rfl
  | some redated =>
    rcases redated with ⟨text, -, -, rfl⟩
    rfl

theorem overrideOf_redated {left right : Dated} (redated : Redated fromIsoFormat left right) :
    SameOverride fromIsoFormat (overrideOf left.2) (overrideOf right.2) := by
  have times := redated.sameTime
  rcases redated with ⟨text, -, -, rfl⟩
  refine ⟨rfl, ?_⟩
  unfold overrideOf
  by_cases dated : speaks left.2.occurredAt = true
  · simp only [dated, if_true]
    exact Or.inl rfl
  · simp only [dated]
    exact times

theorem mergeDisposition_redated (finding : Dict) (generatedAt : String)
    (pairs : List.Forall₂ (Redated fromIsoFormat) evts evts') :
    SameButTimes fromIsoFormat (mergeDisposition finding evts generatedAt)
      (mergeDisposition finding evts' generatedAt) := by
  have spoken := filter_redated (fun event => speaks event.2.validity) pairs fun _ _ _ => rfl
  have ofClass (cls : EvidenceClass) := filter_redated (fun event => eventClass event.2 == cls) spoken fun _ _ _ => rfl
  have static := staticValidity_redated (finding.getD "validation_status" (.str "not_verified")) (ofClass .human)
    (ofClass .machine)
  have executed := executedValidity_redated (staticValidity (finding.getD "validation_status" (.str "not_verified"))
    ((evts'.filter fun event => speaks event.2.validity).filter fun event => eventClass event.2 == .human)
    ((evts'.filter fun event => speaks event.2.validity).filter fun event => eventClass event.2 == .machine))
    (ofClass .execution) (ofClass .human)
  have confirmed : (evts.filter fun event => speaks event.2.validity).any (asserts "confirmed") =
      (evts'.filter fun event => speaks event.2.validity).any (asserts "confirmed") :=
    forall₂_any (Redated.congr fun _ _ _ => rfl) spoken
  have refuted : (evts.filter fun event => speaks event.2.validity).any (asserts "false_positive") =
      (evts'.filter fun event => speaks event.2.validity).any (asserts "false_positive") :=
    forall₂_any (Redated.congr fun _ _ _ => rfl) spoken
  have awaiting : ((evts.filter fun event => speaks event.2.validity).any fun event =>
        asserts "false_positive" event && event.2.actor.kind == "machine" && !event.2.autoAcceptTier.getD false) =
      (evts'.filter fun event => speaks event.2.validity).any fun event =>
        asserts "false_positive" event && event.2.actor.kind == "machine" && !event.2.autoAcceptTier.getD false :=
    forall₂_any (Redated.congr fun _ _ _ => rfl) spoken
  have resolved := bestResolution_redated
    (filter_redated (fun event => speaks event.2.resolution) pairs fun _ _ _ => rfl)
  have ids : (evts.map fun event => event.2.eventId) = evts'.map fun event => event.2.eventId :=
    forall₂_map_eq (Redated.congr fun _ _ _ => rfl) pairs
  refine ⟨?_, ?_, ?_⟩
  · unfold mergeDisposition
    simp only [static, executed, confirmed, refuted, awaiting, resolved, ids, isEmpty_redated (ofClass _)]
  · have last := forall₂_getLast? pairs
    unfold mergeDisposition
    simp only
    generalize evts.getLast? = held, evts'.getLast? = held' at last ⊢
    cases last with
    | none => exact Or.inl rfl
    | some redated => exact redated.sameTime
  · have last := forall₂_getLast?
      (filter_redated (fun event => speaks event.2.severity && eventClass event.2 == .human) pairs fun _ _ _ => rfl)
    unfold mergeDisposition
    simp only
    generalize (evts.filter fun event => speaks event.2.severity && eventClass event.2 == .human).getLast? = held,
      (evts'.filter fun event => speaks event.2.severity && eventClass event.2 == .human).getLast? = held' at last ⊢
    cases last with
    | none => exact .none
    | some redated => exact .some (overrideOf_redated redated)

end Merging

section Sorting

variable {events others : List Dict} {pairs : List Dated}

theorem insertionSort_distinct {pairs' : List Dated} (perm : pairs.Perm pairs') (distinct : (pairs.map Prod.fst).Nodup) :
    (pairs.insertionSort fun left right => left.1 ≤ right.1) =
      pairs'.insertionSort fun left right => left.1 ≤ right.1 := by
  have trans : IsTrans Dated fun left right => left.1 ≤ right.1 := ⟨fun _ _ _ => le_trans⟩
  have total : Std.Total fun left right : Dated => left.1 ≤ right.1 := ⟨fun left right => le_total left.1 right.1⟩
  apply insertionSort_eq_of_perm perm
  intro left first right second forth back
  exact List.inj_on_of_nodup_map distinct first second (le_antisymm forth back)

theorem reads_perm (reads : List.Forall₂ (Reads contracts fromIsoFormat) events pairs) (perm : events.Perm others) :
    ∃ pairs', List.Forall₂ (Reads contracts fromIsoFormat) others pairs' ∧ pairs.Perm pairs' := by
  rcases List.perm_comp_forall₂ perm.symm reads with ⟨pairs', reads', perm'⟩
  exact ⟨pairs', reads', perm'.symm⟩

theorem redated_of_rewrites (reads : List.Forall₂ (Reads contracts fromIsoFormat) events pairs)
    (rewritten : List.Forall₂ (Rewrites contracts fromIsoFormat) events others) :
    ∃ pairs', List.Forall₂ (Reads contracts fromIsoFormat) others pairs' ∧
      List.Forall₂ (Redated fromIsoFormat) pairs pairs' := by
  induction reads generalizing others with
  | nil =>
    cases rewritten
    exact ⟨[], .nil, .nil⟩
  | @cons event pair events pairs read _ ih =>
    cases rewritten with
    | cons other later =>
      rcases ih later with ⟨pairs', reads', redated⟩
      rcases other with ⟨parsed, text, held, reread, instant⟩
      rcases read with ⟨first, dated⟩
      cases held.symm.trans first
      rw [dated] at instant
      exact ⟨_, .cons ⟨reread, instant⟩ reads', .cons ⟨text, dated, instant, rfl⟩ redated⟩

theorem deriveDisposition_reads (reads : List.Forall₂ (Reads contracts fromIsoFormat) events pairs) :
    deriveDisposition contracts fromIsoFormat finding events generatedAt =
      .ok (mergeDisposition finding (pairs.insertionSort fun left right => left.1 ≤ right.1) generatedAt) :=
  deriveDisposition_ok_iff.mpr ⟨_, chronological_ok_iff.mpr ⟨pairs, reads, rfl⟩, rfl⟩

theorem deriveDisposition_perm (reads : List.Forall₂ (Reads contracts fromIsoFormat) events pairs)
    (distinct : (pairs.map Prod.fst).Nodup) (perm : events.Perm others) :
    deriveDisposition contracts fromIsoFormat finding others generatedAt =
      deriveDisposition contracts fromIsoFormat finding events generatedAt := by
  rcases reads_perm reads perm with ⟨pairs', reads', perm'⟩
  rw [deriveDisposition_reads reads, deriveDisposition_reads reads', insertionSort_distinct perm' distinct]

theorem deriveDisposition_rewrites (reads : List.Forall₂ (Reads contracts fromIsoFormat) events pairs)
    (rewritten : List.Forall₂ (Rewrites contracts fromIsoFormat) events others) :
    ∃ left right, deriveDisposition contracts fromIsoFormat finding events generatedAt = .ok left ∧
      deriveDisposition contracts fromIsoFormat finding others generatedAt = .ok right ∧
      SameButTimes fromIsoFormat left right := by
  rcases redated_of_rewrites reads rewritten with ⟨pairs', reads', redated⟩
  refine ⟨_, _, deriveDisposition_reads reads, deriveDisposition_reads reads', mergeDisposition_redated _ _ ?_⟩
  apply forall₂_insertionSort _ redated
  intro left left' right right' first second
  rcases first with ⟨_, -, -, rfl⟩
  rcases second with ⟨_, -, -, rfl⟩
  exact Iff.rfl

end Sorting

/-- The engine reads the instants of the events: neither the order they are stored in nor the offsets their times are
    written with change what it derives, but for the times it gives back. -/
theorem disposition_by_instants (contracts : Contracts) (fromIsoFormat : String → Option Int) (finding : Dict)
    (generatedAt : String) (events : List Dict) (distinct : DistinctInstants contracts fromIsoFormat events)
    (permuted : List Dict) (perm : events.Perm permuted) :
    deriveDisposition contracts fromIsoFormat finding permuted generatedAt =
        deriveDisposition contracts fromIsoFormat finding events generatedAt ∧
      ∀ rewritten, List.Forall₂ (Rewrites contracts fromIsoFormat) permuted rewritten →
        ∃ left right, deriveDisposition contracts fromIsoFormat finding events generatedAt = .ok left ∧
          deriveDisposition contracts fromIsoFormat finding rewritten generatedAt = .ok right ∧
          SameButTimes fromIsoFormat left right := by
  rcases distinct with ⟨pairs, reads, apart⟩
  have same : deriveDisposition contracts fromIsoFormat finding permuted generatedAt =
      deriveDisposition contracts fromIsoFormat finding events generatedAt := deriveDisposition_perm reads apart perm
  refine ⟨same, ?_⟩
  intro rewritten rewrites
  rcases reads_perm reads perm with ⟨pairs', reads', -⟩
  rw [← same]
  exact deriveDisposition_rewrites reads' rewrites

theorem readEvent_redated (event : Dict) (text : String) :
    readEvent (event.set "recorded_at" (.str text)) =
      (readEvent event).map fun parsed => { parsed with recordedAt := text } := by
  unfold readEvent
  simp only [Dict.get_set, String.reduceEq, if_false, if_true]
  split
  · split
    · rfl
    · rfl
  · rfl

theorem rewrites_set {event : Dict} {text : String} (same : ((readEvent event).any fun parsed =>
      decide (fromIsoFormat text = fromIsoFormat parsed.recordedAt)) = true) :
    Rewrites referenceContracts fromIsoFormat event (event.set "recorded_at" (.str text)) := by
  rcases (Option.any_eq_true _ _).mp same with ⟨parsed, read, instant⟩
  refine ⟨parsed, text, read, ?_, of_decide_eq_true instant⟩
  change readEvent (event.set "recorded_at" (.str text)) = _
  rw [readEvent_redated, read, Option.map_some]

def instantOf (contracts : Contracts) (fromIsoFormat : String → Option Int) (event : Dict) : Option Int :=
  (contracts.parseEvent event).bind fun parsed => fromIsoFormat parsed.recordedAt

theorem distinctInstants_of_map {events : List Dict} {instants : List Int} (apart : instants.Nodup)
    (read : events.map (instantOf contracts fromIsoFormat) = instants.map some) :
    DistinctInstants contracts fromIsoFormat events := by
  have pairs : ∃ pairs, List.Forall₂ (Reads contracts fromIsoFormat) events pairs ∧ pairs.map Prod.fst = instants := by
    clear apart
    induction events generalizing instants with
    | nil =>
      rw [List.map_nil, eq_comm, List.map_eq_nil_iff] at read
      exact ⟨[], .nil, read.symm⟩
    | cons event events ih =>
      cases instants with
      | nil => cases read
      | cons instant instants =>
        rw [List.map_cons, List.map_cons, List.cons.injEq] at read
        rcases Option.bind_eq_some_iff.mp read.1 with ⟨parsed, parses, dated⟩
        rcases ih read.2 with ⟨pairs, reads, firsts⟩
        exact ⟨(instant, parsed) :: pairs, .cons ⟨parses, dated⟩ reads, by rw [List.map_cons, firsts]⟩
  rcases pairs with ⟨pairs, reads, firsts⟩
  exact ⟨pairs, reads, by rwa [firsts]⟩

def zonedClock (text : String) : Option Int :=
  [(morning, 1772611200000000), ("2026-03-04T13:00:00+05:00", 1772611200000000), (noon, 1772625600000000),
    ("2026-03-04T04:00:00-08:00", 1772625600000000), (evening, 1772647200000000),
    ("2026-03-05T02:00:00+08:00", 1772647200000000)].lookup text

def zonedLog : List Dict :=
  [proofRun morning, refutation noon [("identity", .str "alice")], refutation evening [("identity", .str "bob")]]

def shuffledLog : List Dict :=
  [refutation evening [("identity", .str "bob")], proofRun morning, refutation noon [("identity", .str "alice")]]

def rezonedLog : List Dict :=
  [(refutation evening [("identity", .str "bob")]).set "recorded_at" (.str "2026-03-05T02:00:00+08:00"),
    (proofRun morning).set "recorded_at" (.str "2026-03-04T13:00:00+05:00"),
    (refutation noon [("identity", .str "alice")]).set "recorded_at" (.str "2026-03-04T04:00:00-08:00")]

theorem disposition_by_instants_rezoned :
    ∃ left right, deriveDisposition referenceContracts zonedClock [] zonedLog evening = .ok left ∧
      deriveDisposition referenceContracts zonedClock [] shuffledLog evening = .ok left ∧
      deriveDisposition referenceContracts zonedClock [] rezonedLog evening = .ok right ∧
      left.validity = .str "false_positive" ∧ SameButTimes zonedClock left right := by
  have distinct : DistinctInstants referenceContracts zonedClock zonedLog :=
    distinctInstants_of_map (show [1772611200000000, 1772625600000000, 1772647200000000].Nodup by decide)
      (by decide +kernel)
  have perm : zonedLog.Perm shuffledLog := List.perm_append_singleton _ [_, _]
  rcases disposition_by_instants referenceContracts zonedClock [] evening zonedLog distinct shuffledLog perm with
    ⟨shuffled, rezoned⟩
  rcases rezoned rezonedLog (.cons (rewrites_set (by decide +kernel)) (.cons (rewrites_set (by decide +kernel))
    (.cons (rewrites_set (by decide +kernel)) .nil))) with ⟨left, right, derived, rederived, same⟩
  have verdict : okAnd (deriveDisposition referenceContracts zonedClock [] zonedLog evening)
      (fun disposition => decide (disposition.validity = .str "false_positive")) = true := by
    decide +kernel
  rw [derived] at verdict shuffled
  exact ⟨left, right, derived, shuffled, rederived, of_decide_eq_true verdict, same⟩

end LedgerProof
