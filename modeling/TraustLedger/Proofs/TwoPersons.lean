import TraustLedger.Proofs.Precedence

namespace LedgerProof

open Hashing Python Runs StableSort LedgerModel

def SignedAfter (evts : List Dated) (proof : Dated) (name : String) : Prop :=
  ∃ event ∈ evts, proof.1 < event.1 ∧ asserts "false_positive" event = true ∧ event.2.actor.kind = "human" ∧
    eventActorVerified event.2.actor = true ∧ event.2.actor.identity = some name

def TwoNamed (evts : List Dated) (proof : Dated) : Prop :=
  ∃ first second, first ≠ second ∧ first ≠ "" ∧ second ≠ "" ∧ SignedAfter evts proof first ∧
    SignedAfter evts proof second

/-- One of the false positives counted against the proof names nobody, and another has another identity. -/
def UnnamedCounts (evts : List Dated) (proof : Dated) : Prop :=
  ∃ unnamed ∈ countersigned evts proof, unnamed.2.actor.identity.getD "" = "" ∧
    ∃ other ∈ countersigned evts proof, other.2.actor.identity ≠ unnamed.2.actor.identity

/-- Where the deciding proof says confirmed and the finding is a false positive all the same, two named humans
    signed after the proof. -/
def TwoPersonSound (contracts : Contracts) (fromIsoFormat : String → Option Int) (finding : Dict) (events : List Dict)
    (generatedAt : String) : Prop :=
  ∀ evts disposition proof, chronological contracts fromIsoFormat events = .ok evts →
    deriveDisposition contracts fromIsoFormat finding events generatedAt = .ok disposition →
    latestProof evts = some proof → asserts "confirmed" proof = true →
    disposition.validity = .str "false_positive" → TwoNamed evts proof

theorem signedAfter_of_countersigned {evts : List Dated} {proof event : Dated}
    (counted : event ∈ countersigned evts proof) (named : event.2.actor.identity.getD "" ≠ "") :
    SignedAfter evts proof (event.2.actor.identity.getD "") := by
  rcases mem_countersigned.mp counted with ⟨human, refutes, later, verified⟩
  rcases mem_ofClass.mp human with ⟨member, -, cls⟩
  refine ⟨event, member, later, refutes, eventClass_kind cls, verified, ?_⟩
  cases identity : event.2.actor.identity with
  | none => simp [identity] at named
  | some name => rfl

theorem identity_eq {first second : Option String} (firstNamed : first.getD "" ≠ "") (secondNamed : second.getD "" ≠ "")
    (same : first.getD "" = second.getD "") : first = second := by
  cases first with
  | none => exact absurd rfl firstNamed
  | some name =>
    cases second with
    | none => exact absurd rfl secondNamed
    | some other => exact congrArg some same

theorem twoNamed_of_signers {evts : List Dated} {proof : Dated} (enough : 2 ≤ (signersAfter evts proof).length)
    (named : ¬ UnnamedCounts evts proof) : TwoNamed evts proof := by
  rcases two_signers_iff.mp enough with ⟨first, mem, second, mem', apart⟩
  have firstNamed : first.2.actor.identity.getD "" ≠ "" :=
    fun blank => named ⟨first, mem, blank, second, mem', apart.symm⟩
  have secondNamed : second.2.actor.identity.getD "" ≠ "" :=
    fun blank => named ⟨second, mem', blank, first, mem, apart⟩
  exact ⟨_, _, fun same => apart (identity_eq firstNamed secondNamed same), firstNamed, secondNamed,
    signedAfter_of_countersigned mem firstNamed, signedAfter_of_countersigned mem' secondNamed⟩

/-- The two-person rule is sound exactly where no actor without a name is counted beside another, or two named
    ones have signed as well. -/
theorem two_person_sound_iff (contracts : Contracts) (fromIsoFormat : String → Option Int) (finding : Dict)
    (events : List Dict) (generatedAt : String) :
    TwoPersonSound contracts fromIsoFormat finding events generatedAt ↔
      ∀ evts proof, chronological contracts fromIsoFormat events = .ok evts → latestProof evts = some proof →
        asserts "confirmed" proof = true → UnnamedCounts evts proof → TwoNamed evts proof := by
  constructor
  · intro sound evts proof sorted found confirmed unnamed
    rcases unnamed with ⟨blank, mem, -, other, mem', apart⟩
    have enough := two_signers_iff.mpr ⟨other, mem', blank, mem, apart⟩
    exact sound evts _ proof sorted (deriveDisposition_ok_iff.mpr ⟨evts, sorted, rfl⟩) found confirmed
      ((refuted_iff_signers found).mpr ⟨confirmed, enough⟩)
  · intro condition evts disposition proof sorted derived found confirmed refuted
    rcases deriveDisposition_ok_iff.mp derived with ⟨again, resorted, rfl⟩
    rw [sorted] at resorted
    cases resorted
    by_cases unnamed : UnnamedCounts evts proof
    · exact condition evts proof sorted found confirmed unnamed
    · exact twoNamed_of_signers ((refuted_iff_signers found).mp refuted).2 unnamed

def unnamedLog : List Dict :=
  [proofRun sampleInstant, refutation morning [], refutation noon [("identity", .str "alice")]]

theorem unnamed_second_person :
    ¬ TwoPersonSound referenceContracts clockEnv.fromIsoFormat [] unnamedLog evening := by
  have facts : okAnd (chronological referenceContracts clockEnv.fromIsoFormat unnamedLog) (fun evts =>
      (latestProof evts).any (asserts "confirmed") &&
        decide ((mergeDisposition [] evts evening).validity = .str "false_positive") &&
        evts.all fun event => event.2.actor.identity.getD "alice" == "alice") = true := by
    decide +kernel
  rcases okAnd_iff.mp facts with ⟨evts, sorted, tests⟩
  simp only [Bool.and_eq_true, decide_eq_true_eq, List.all_eq_true, beq_iff_eq] at tests
  rcases tests with ⟨⟨decided, refuted⟩, names⟩
  cases found : latestProof evts with
  | none => simp [found] at decided
  | some proof =>
    rw [found, Option.any_some] at decided
    intro sound
    obtain ⟨first, second, apart, -, -, ⟨event, mem, -, -, -, -, firstIs⟩, other, mem', -, -, -, -, secondIs⟩ :=
      sound evts _ proof sorted (deriveDisposition_ok_iff.mpr ⟨evts, sorted, rfl⟩) found decided refuted
    have firstAlice := names event mem
    have secondAlice := names other mem'
    rw [firstIs, Option.getD_some] at firstAlice
    rw [secondIs, Option.getD_some] at secondAlice
    exact apart (firstAlice.trans secondAlice.symm)

def gatedEvents (contracts : Contracts) (findingRef : String) (events : List Dict) : List Dict :=
  events.filter fun event => (contracts.parseEvent event).any (matchesFinding findingRef)

structure RefutedBy (identity : String) (parsed : ParsedEvent) : Prop where
  human : eventClass parsed = .human
  refutes : parsed.validity = some "false_positive"
  verified : eventActorVerified parsed.actor = true
  signed : parsed.actor.identity = some identity

/-- What makes the gate turn the identity away: an execution confirmed the finding, and the same human has called
    it a false positive before, at whatever time. -/
def SignedBefore (evts : List Dated) (identity : String) : Prop :=
  (∃ event ∈ evts, event.2.sourceType ∈ execSourceTypes ∧ asserts "confirmed" event = true) ∧
  identity ≠ "" ∧ ∃ event ∈ evts, asserts "false_positive" event = true ∧ event.2.actor.kind = "human" ∧
    eventActorVerified event.2.actor = true ∧ event.2.actor.identity = some identity

/-- Where no execution decides: the latest human refutes the finding, or no human speaks and an accepted machine
    report refutes it, or the finding came refuted and the latest report agrees. -/
def StaticallyRefuted (finding : Dict) (evts : List Dated) : Prop :=
  (∃ decision, (ofClass .human evts).getLast? = some decision ∧ asserts "false_positive" decision = true) ∨
  ofClass .human evts = [] ∧
    ((∃ report, (ofClass .machine evts).getLast? = some report ∧ asserts "false_positive" report = true ∧
        report.2.autoAcceptTier = some true) ∨
      baseValidity finding = .str "false_positive" ∧
        ∀ report, (ofClass .machine evts).getLast? = some report → asserts "false_positive" report = true)

/-- One more false positive of this identity, later than every event, would decide nothing. -/
def NothingToAdd (finding : Dict) (evts : List Dated) (identity : String) : Prop :=
  match latestProof evts with
  | none => StaticallyRefuted finding evts
  | some proof => asserts "confirmed" proof = true →
    (∃ first ∈ countersigned evts proof, ∃ second ∈ countersigned evts proof,
      first.2.actor.identity ≠ second.2.actor.identity) ∨
    ∀ event ∈ countersigned evts proof, event.2.actor.identity = some identity

/-- In a layer whose events all parse, the false positive of a verified human on the finding, recorded after
    every stored event of it. -/
structure LastWord (contracts : Contracts) (fromIsoFormat : String → Option Int) (layer : Layer)
    (findingRef identity : String) (event : Dict) (instant : Int) (parsed : ParsedEvent) : Prop where
  parses : ∀ stored ∈ layer.events, (contracts.parseEvent stored).isSome = true
  read : Reads contracts fromIsoFormat event (instant, parsed)
  about : matchesFinding findingRef parsed = true
  signed : RefutedBy identity parsed
  latest : ∀ stored ∈ gatedEvents contracts findingRef layer.events,
    ∃ pair, Reads contracts fromIsoFormat stored pair ∧ pair.1 < instant

def GateAgrees (contracts : Contracts) (fromIsoFormat : String → Option Int) (finding : Dict) (layer : Layer)
    (findingRef identity : String) (event : Dict) (generatedAt : String) : Prop :=
  requireTwoPerson contracts layer findingRef identity "false_positive" ≠ .ok () →
    (deriveDisposition contracts fromIsoFormat finding (gatedEvents contracts findingRef (layer.events ++ [event]))
      generatedAt).map Disposition.validity =
    (deriveDisposition contracts fromIsoFormat finding (gatedEvents contracts findingRef layer.events)
      generatedAt).map Disposition.validity

theorem staticVerdict_refuted_iff {finding : Dict} {evts : List Dated} :
    staticVerdict finding evts = .str "false_positive" ↔ StaticallyRefuted finding evts := by
  unfold staticVerdict staticValidity StaticallyRefuted
  cases human : (ofClass .human evts).getLast? with
  | some decision =>
    have spoken : ofClass .human evts ≠ [] := fun none => by simp [none] at human
    simp [spoken, optionalText_false_positive]
  | none =>
    have silent := List.getLast?_eq_none_iff.mp human
    cases machine : (ofClass .machine evts).getLast? with
    | none => simp [silent]
    | some report =>
      by_cases refutes : asserts "false_positive" report = true
      · cases accepted : report.2.autoAcceptTier with
        | none => simp [silent, refutes, accepted]
        | some flag => cases flag <;> simp [silent, refutes, accepted, optionalText_false_positive]
      · simp [silent, refutes, optionalText_false_positive]

section LastWord

variable {evts : List Dated} {instant : Int} {parsed : ParsedEvent} {identity : String}

theorem ofClass_snoc (cls : EvidenceClass) (evts : List Dated) (event : Dated) :
    ofClass cls (evts ++ [event]) = ofClass cls evts ++ ofClass cls [event] := by
  simp only [ofClass, List.filter_append]

theorem RefutedBy.ofClass_human (signed : RefutedBy identity parsed) :
    ofClass .human [(instant, parsed)] = [(instant, parsed)] := by
  simp [ofClass, signed.human, signed.refutes, speaks]

theorem RefutedBy.ofClass_other (signed : RefutedBy identity parsed) {cls : EvidenceClass} (other : cls ≠ .human) :
    ofClass cls [(instant, parsed)] = [] := by
  simp [ofClass, signed.human, other.symm]

theorem RefutedBy.latestProof_snoc (signed : RefutedBy identity parsed) :
    latestProof (evts ++ [(instant, parsed)]) = latestProof evts := by
  rw [latestProof, latestProof, ofClass_snoc, signed.ofClass_other (by decide), List.append_nil]

theorem RefutedBy.staticVerdict_snoc (signed : RefutedBy identity parsed) {finding : Dict} :
    staticVerdict finding (evts ++ [(instant, parsed)]) = .str "false_positive" := by
  refine staticVerdict_refuted_iff.mpr (.inl ⟨(instant, parsed), ?_, by simp [asserts, signed.refutes]⟩)
  rw [ofClass_snoc, signed.ofClass_human, List.getLast?_concat]

theorem RefutedBy.countersigned_snoc (signed : RefutedBy identity parsed) {proof : Dated} (later : proof.1 < instant) :
    countersigned (evts ++ [(instant, parsed)]) proof = countersigned evts proof ++ [(instant, parsed)] := by
  unfold countersigned
  rw [ofClass_snoc, signed.ofClass_human]
  simp [asserts, signed.refutes, later, signed.verified]

theorem RefutedBy.signers_snoc (signed : RefutedBy identity parsed) {proof : Dated} (later : proof.1 < instant) :
    2 ≤ (signersAfter (evts ++ [(instant, parsed)]) proof).length ↔
      ¬ ∀ event ∈ countersigned evts proof, event.2.actor.identity = some identity := by
  rw [two_signers_iff, signed.countersigned_snoc later]
  simp only [List.mem_append, List.mem_singleton]
  constructor
  · rintro ⟨first, mem, second, mem', apart⟩ alone
    have own : ∀ event : Dated, event ∈ countersigned evts proof ∨ event = (instant, parsed) →
        event.2.actor.identity = some identity := by
      rintro event (held | rfl)
      · exact alone event held
      · exact signed.signed
    exact apart ((own first mem).trans (own second mem').symm)
  · intro other
    push Not at other
    rcases other with ⟨event, held, apart⟩
    exact ⟨event, .inl held, (instant, parsed), .inr rfl, by rwa [signed.signed]⟩

theorem RefutedBy.validity_snoc (signed : RefutedBy identity parsed) (latest : ∀ event ∈ evts, event.1 < instant)
    {finding : Dict} {generatedAt : String} :
    (mergeDisposition finding (evts ++ [(instant, parsed)]) generatedAt).validity =
      (mergeDisposition finding evts generatedAt).validity ↔ NothingToAdd finding evts identity := by
  rw [validity_eq, validity_eq, signed.latestProof_snoc, NothingToAdd]
  cases found : latestProof evts with
  | none =>
    simp only [signed.staticVerdict_snoc]
    rw [eq_comm, staticVerdict_refuted_iff]
  | some proof =>
    have held := latestProof_mem found
    have later : proof.1 < instant := latest proof (mem_ofClass.mp held.1).1
    have standing : optionalText proof.2.validity ≠ .str "false_positive" := by
      rw [Ne, optionalText_false_positive, held.2]
      decide
    by_cases confirmed : asserts "confirmed" proof = true
    · simp only [confirmed, true_and, forall_const, signed.signers_snoc later, ← two_signers_iff]
      by_cases enough : 2 ≤ (signersAfter evts proof).length
      · simp only [enough, if_true, true_or, iff_true, ite_eq_left_iff, not_not]
        intro alone
        rcases two_signers_iff.mp enough with ⟨first, mem, second, mem', apart⟩
        exact absurd ((alone first mem).trans (alone second mem').symm) apart
      · simp only [enough, if_false, false_or, ite_eq_right_iff]
        exact ⟨fun same => by_contra fun other => standing (same other).symm, fun alone other => absurd alone other⟩
    · simp [confirmed]

end LastWord

theorem mem_matching_iff {contracts : Contracts} {events : List Dict} {findingRef : String} {parsed : ParsedEvent} :
    parsed ∈ ((events.map contracts.parseEvent).filterMap fun event => event.filter (matchesFinding findingRef)) ↔
      ∃ event ∈ gatedEvents contracts findingRef events, contracts.parseEvent event = some parsed := by
  simp only [List.mem_filterMap, List.mem_map, gatedEvents, List.mem_filter]
  constructor
  · intro given
    rcases given with ⟨_, ⟨event, stored, rfl⟩, kept⟩
    rcases Option.filter_eq_some_iff.mp kept with ⟨read, about⟩
    exact ⟨event, ⟨stored, by rw [read, Option.any_some, about]⟩, read⟩
  · intro given
    rcases given with ⟨event, ⟨stored, about⟩, read⟩
    rw [read, Option.any_some] at about
    exact ⟨_, ⟨event, stored, rfl⟩, Option.filter_eq_some_iff.mpr ⟨read, about⟩⟩

theorem exists_matching_iff {contracts : Contracts} {fromIsoFormat : String → Option Int} {events : List Dict}
    {findingRef : String} {evts : List Dated}
    (sorted : chronological contracts fromIsoFormat (gatedEvents contracts findingRef events) = .ok evts)
    (test : ParsedEvent → Prop) :
    (∃ parsed ∈ ((events.map contracts.parseEvent).filterMap fun event => event.filter (matchesFinding findingRef)),
      test parsed) ↔ ∃ event ∈ evts, test event.2 := by
  simp only [mem_matching_iff, ← mem_chronological sorted]
  constructor
  · intro given
    rcases given with ⟨_, ⟨event, member, rfl⟩, holds⟩
    exact ⟨event, member, holds⟩
  · intro given
    rcases given with ⟨event, member, holds⟩
    exact ⟨event.2, ⟨event, member, rfl⟩, holds⟩

theorem requireTwoPerson_rejects_iff {contracts : Contracts} {fromIsoFormat : String → Option Int} {layer : Layer}
    {findingRef identity : String} {evts : List Dated}
    (parses : ∀ event ∈ layer.events, (contracts.parseEvent event).isSome = true)
    (sorted : chronological contracts fromIsoFormat (gatedEvents contracts findingRef layer.events) = .ok evts) :
    requireTwoPerson contracts layer findingRef identity "false_positive" ≠ .ok () ↔ SignedBefore evts identity := by
  have readable : ((layer.events.map contracts.parseEvent).any Option.isNone) = false := by
    simp only [List.any_map, List.any_eq_false, Function.comp_apply]
    intro event stored
    simpa [Option.isNone_iff_eq_none, Option.isSome_iff_ne_none] using parses event stored
  have seen := @exists_matching_iff contracts fromIsoFormat layer.events findingRef evts sorted
  unfold requireTwoPerson SignedBefore
  simp only [ne_eq, not_true, if_false, readable, and_true, asserts]
  generalize (layer.events.map contracts.parseEvent).filterMap
    (fun event => event.filter (matchesFinding findingRef)) = matching at seen ⊢
  rw [← seen fun parsed => parsed.sourceType ∈ execSourceTypes ∧ (parsed.validity == some "confirmed") = true,
    ← seen fun parsed => (parsed.validity == some "false_positive") = true ∧ parsed.actor.kind = "human" ∧
      eventActorVerified parsed.actor = true ∧ parsed.actor.identity = some identity]
  split
  · next unconfirmed =>
    simp only [List.any_eq_false, Bool.and_eq_true, decide_eq_true_eq] at unconfirmed
    refine iff_of_false (fun rejected => rejected rfl) ?_
    intro given
    rcases given with ⟨⟨event, member, confirmed⟩, -⟩
    exact unconfirmed event member confirmed
  · next confirmed =>
    simp only [Bool.not_eq_false, List.any_eq_true, Bool.and_eq_true, decide_eq_true_eq] at confirmed
    rw [and_iff_right confirmed]
    simp only [bind_ok_iff, require_ok_iff, true_and, exists_const, List.all_eq_true, not_forall,
      Bool.not_eq_true', Bool.not_eq_false, Bool.and_eq_true, beq_iff_eq, bne_iff_ne]
    constructor
    · intro given
      rcases given with ⟨event, member, ⟨⟨⟨refutes, human⟩, verified⟩, named⟩, signed⟩
      refine ⟨?_, event, member, refutes, human, verified, signed⟩
      rwa [signed, Option.getD_some] at named
    · intro given
      rcases given with ⟨named, event, member, refutes, human, verified, signed⟩
      exact ⟨event, member, ⟨⟨⟨refutes, human⟩, verified⟩, by rwa [signed, Option.getD_some]⟩, signed⟩

theorem chronological_before {contracts : Contracts} {fromIsoFormat : String → Option Int} {events : List Dict}
    {instant : Int} (latest : ∀ event ∈ events, ∃ pair, Reads contracts fromIsoFormat event pair ∧ pair.1 < instant) :
    ∃ evts, chronological contracts fromIsoFormat events = .ok evts ∧ ∀ pair ∈ evts, pair.1 < instant := by
  have dates : ∃ pairs, List.Forall₂ (Reads contracts fromIsoFormat) events pairs ∧ ∀ pair ∈ pairs, pair.1 < instant := by
    induction events with
    | nil => exact ⟨[], .nil, by simp⟩
    | cons event events ih =>
      rw [List.forall_mem_cons] at latest
      rcases latest.1 with ⟨pair, read, before⟩
      rcases ih latest.2 with ⟨pairs, reads, earlier⟩
      exact ⟨pair :: pairs, .cons read reads, List.forall_mem_cons.mpr ⟨before, earlier⟩⟩
  rcases dates with ⟨pairs, reads, earlier⟩
  refine ⟨_, chronological_ok_iff.mpr ⟨pairs, reads, rfl⟩, ?_⟩
  simpa only [List.mem_insertionSort] using earlier

theorem chronological_snoc {contracts : Contracts} {fromIsoFormat : String → Option Int} {events : List Dict}
    {evts : List Dated} {event : Dict} {pair : Dated}
    (sorted : chronological contracts fromIsoFormat events = .ok evts) (read : Reads contracts fromIsoFormat event pair)
    (latest : ∀ earlier ∈ evts, earlier.1 < pair.1) :
    chronological contracts fromIsoFormat (events ++ [event]) = .ok (evts ++ [pair]) := by
  rcases chronological_ok_iff.mp sorted with ⟨pairs, reads, rfl⟩
  refine chronological_ok_iff.mpr ⟨pairs ++ [pair], List.rel_append reads (.cons read .nil), ?_⟩
  rw [insertionSort_snoc]
  intro earlier held
  exact (latest earlier ((List.mem_insertionSort _).mpr held)).le

/-- Gate and derivation agree on the second signer exactly where the false positive of a human who signed before
    has nothing to add. -/
theorem gate_agrees_iff (contracts : Contracts) (fromIsoFormat : String → Option Int) (finding : Dict) (layer : Layer)
    (findingRef identity : String) (event : Dict) (instant : Int) (parsed : ParsedEvent) (generatedAt : String)
    (word : LastWord contracts fromIsoFormat layer findingRef identity event instant parsed) :
    GateAgrees contracts fromIsoFormat finding layer findingRef identity event generatedAt ↔
      ∀ evts, chronological contracts fromIsoFormat (gatedEvents contracts findingRef layer.events) = .ok evts →
        SignedBefore evts identity → NothingToAdd finding evts identity := by
  rcases chronological_before word.latest with ⟨evts, sorted, earlier⟩
  have appended : gatedEvents contracts findingRef (layer.events ++ [event]) =
      gatedEvents contracts findingRef layer.events ++ [event] := by
    simp [gatedEvents, word.read.1, word.about]
  have before : deriveDisposition contracts fromIsoFormat finding _ generatedAt = .ok _ :=
    deriveDisposition_ok_iff.mpr ⟨evts, sorted, rfl⟩
  have after : deriveDisposition contracts fromIsoFormat finding _ generatedAt = .ok _ :=
    deriveDisposition_ok_iff.mpr ⟨_, chronological_snoc sorted word.read earlier, rfl⟩
  rw [GateAgrees, requireTwoPerson_rejects_iff word.parses sorted, appended, before, after]
  simp only [Except.map, Except.ok.injEq, word.signed.validity_snoc earlier, sorted, forall_eq']

def isLastWord (contracts : Contracts) (fromIsoFormat : String → Option Int) (layer : Layer)
    (findingRef identity : String) (event : Dict) (instant : Int) : Bool :=
  (layer.events.all fun stored => (contracts.parseEvent stored).isSome) &&
  ((gatedEvents contracts findingRef layer.events).all fun stored => (contracts.parseEvent stored).any fun parsed =>
    (fromIsoFormat parsed.recordedAt).any fun earlier => decide (earlier < instant)) &&
  (contracts.parseEvent event).any fun parsed => fromIsoFormat parsed.recordedAt == some instant &&
    matchesFinding findingRef parsed && eventClass parsed == .human && asserts "false_positive" (instant, parsed) &&
    eventActorVerified parsed.actor && parsed.actor.identity == some identity

theorem lastWord_of_test {contracts : Contracts} {fromIsoFormat : String → Option Int} {layer : Layer}
    {findingRef identity : String} {event : Dict} {instant : Int}
    (test : isLastWord contracts fromIsoFormat layer findingRef identity event instant = true) :
    ∃ parsed, LastWord contracts fromIsoFormat layer findingRef identity event instant parsed := by
  simp only [isLastWord, Bool.and_eq_true, List.all_eq_true, Option.any_eq_true, decide_eq_true_eq, asserts,
    beq_iff_eq] at test
  rcases test with ⟨⟨parses, dates⟩, parsed, read, ⟨⟨⟨⟨recorded, about⟩, human⟩, refutes⟩, verified⟩, signed⟩
  refine ⟨parsed, parses, ⟨read, recorded⟩, about, ⟨human, refutes, verified, signed⟩, ?_⟩
  intro stored held
  rcases dates stored held with ⟨earlier, parsedStored, instantStored, dated, before⟩
  exact ⟨(instantStored, earlier), ⟨parsedStored, dated⟩, before⟩

def samePersonLayer : Layer :=
  ⟨[], [proofRun sampleInstant, refutation morning [("identity", .str "alice")]], []⟩

def returningLayer : Layer :=
  ⟨[], [refutation sampleInstant [("identity", .str "alice")], proofRun morning,
    refutation noon [("identity", .str "bob")]], []⟩

def aliceAgain : Dict := refutation evening [("identity", .str "alice")]

def eveningInstant : Int := 1772647200000000

theorem gate_agrees_iff_same_person :
    requireTwoPerson referenceContracts samePersonLayer "FIND-1" "alice" "false_positive" ≠ .ok () ∧
    GateAgrees referenceContracts clockEnv.fromIsoFormat [] samePersonLayer "FIND-1" "alice" aliceAgain evening := by
  have facts : isLastWord referenceContracts clockEnv.fromIsoFormat samePersonLayer "FIND-1" "alice" aliceAgain
        eveningInstant = true ∧
      (requireTwoPerson referenceContracts samePersonLayer "FIND-1" "alice" "false_positive").isOk = false ∧
      (okAnd (chronological referenceContracts clockEnv.fromIsoFormat
          (gatedEvents referenceContracts "FIND-1" samePersonLayer.events)) fun evts =>
        (latestProof evts).any fun proof =>
          (countersigned evts proof).all fun event => event.2.actor.identity == some "alice") = true := by
    decide +kernel
  rcases facts with ⟨test, rejected, alone⟩
  rcases lastWord_of_test test with ⟨parsed, word⟩
  refine ⟨ne_ok_of_isOk rejected (), ?_⟩
  refine (gate_agrees_iff referenceContracts clockEnv.fromIsoFormat [] samePersonLayer "FIND-1" "alice" aliceAgain
    eveningInstant parsed evening word).mpr ?_
  intro evts sorted _
  rw [sorted] at alone
  rcases (Option.any_eq_true _ _).mp alone with ⟨proof, found, only⟩
  simp only [NothingToAdd, found]
  exact fun _ => .inr (by simpa using only)

/-- The gate counts the signature from before the proof, the derivation does not: with the one turned away two
    humans would have signed. -/
theorem returning_signer_rejected : ∃ parsed,
    LastWord referenceContracts clockEnv.fromIsoFormat returningLayer "FIND-1" "alice" aliceAgain eveningInstant parsed ∧
    ¬ GateAgrees referenceContracts clockEnv.fromIsoFormat [] returningLayer "FIND-1" "alice" aliceAgain evening := by
  have facts : isLastWord referenceContracts clockEnv.fromIsoFormat returningLayer "FIND-1" "alice" aliceAgain
        eveningInstant = true ∧
      (requireTwoPerson referenceContracts returningLayer "FIND-1" "alice" "false_positive").isOk = false ∧
      (okAnd (deriveDisposition referenceContracts clockEnv.fromIsoFormat []
        (gatedEvents referenceContracts "FIND-1" (returningLayer.events ++ [aliceAgain])) evening) fun disposition =>
          decide (disposition.validity = .str "false_positive")) = true ∧
      (okAnd (deriveDisposition referenceContracts clockEnv.fromIsoFormat []
        (gatedEvents referenceContracts "FIND-1" returningLayer.events) evening) fun disposition =>
          decide (disposition.validity = .str "confirmed")) = true := by
    decide +kernel
  rcases facts with ⟨test, rejected, refuted, confirmed⟩
  rcases lastWord_of_test test with ⟨parsed, word⟩
  refine ⟨parsed, word, fun agrees => ?_⟩
  have same := agrees (ne_ok_of_isOk rejected ())
  rcases okAnd_iff.mp refuted with ⟨after, derived, late⟩
  rcases okAnd_iff.mp confirmed with ⟨before, rederived, early⟩
  rw [derived, rederived] at same
  simp [Except.map, of_decide_eq_true late, of_decide_eq_true early] at same

end LedgerProof
