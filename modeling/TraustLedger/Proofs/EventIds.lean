import TraustLedger.Library.Delimiters
import TraustLedger.Proofs.FileConcurrency
import TraustLedger.Proofs.SignatureBinding
import TraustLedger.Proofs.WriterLog

namespace LedgerProof

open Hashing Python Runs Sha256 Delimiters LedgerModel

/-- What an event id is computed from: a source, a finding and what is determined about it. -/
structure Determination where
  sourceRef : String
  findingRef : String
  validity : Option String
  resolution : Option String
  deriving DecidableEq

namespace Determination

def parts (determination : Determination) : List String :=
  [determination.sourceRef, determination.findingRef, determination.validity.getD "",
    determination.resolution.getD ""]

def fields (determination : Determination) : List (List Char) := determination.parts.map chars

def eventId (H : HashFunction) (determination : Determination) : String :=
  computeEventId H (.str determination.sourceRef) (.str determination.findingRef)
    (optionalText determination.validity) (optionalText determination.resolution)

def payload (determination : Determination) : Bytes := utf8 (['|'].intercalate determination.fields)

def Bound (H : HashFunction) (left right : Determination) : Prop :=
  left.parts = right.parts ∨
    ∃ pair, findCollision H [left.payload, right.payload] = some pair ∧ IsCollision H pair

/-- No other determination has its id. -/
def IdSeparates (H : HashFunction) (determination : Determination) : Prop :=
  ∀ other, determination.eventId H = other.eventId H → Bound H determination other

def ofEvent (event : Dict) : Outcome Determination := do
  let source ← orEmpty (event.get "source")
  let disposition ← orEmpty (event.get "disposition")
  let text (value : Json) : Option String := if value.truthy then some (pyStr value) else none
  return ⟨pyStr (source.getD "ref" (.str "")), pyStr (event.getD "finding_ref" (.str "")),
    text (disposition.get "validity"), text (disposition.get "resolution")⟩

/-- Once the writer took an event with this determination, alone or in a batch, the log has one. -/
def NeverLost (H : HashFunction) (determination : Determination) : Prop :=
  ∀ layer events next ids, WriterLog H layer.events → appendMany H layer events = .ok (next, ids) ∨
      (∃ event id, events = [event] ∧ appendOne H layer event = .ok (next, id)) →
    ∀ event ∈ events, ofEvent event = .ok determination →
      ∃ stored ∈ next.events, ∃ other, ofEvent stored = .ok other ∧ Bound H determination other

theorem payload_eq (determination : Determination) : determination.payload =
    utf8 (chars determination.sourceRef ++ '|' :: (chars determination.findingRef ++
      '|' :: (chars (determination.validity.getD "") ++ '|' :: chars (determination.resolution.getD "")))) := by
  simp only [payload, fields, parts, List.map_cons, List.map_nil, List.intercalate_cons_cons,
    List.intercalate_singleton, List.append_assoc, List.cons_append, List.nil_append]

theorem orEmptyText_optionalText (value : Option String) : orEmptyText (optionalText value) = chars (value.getD "") := by
  cases value with
  | none => rfl
  | some text =>
    by_cases empty : text = ""
    · subst empty
      rfl
    · simp [orEmptyText, optionalText, Json.truthy, empty, pyStr]

theorem orEmptyText_eq (value : Json) :
    orEmptyText value = chars ((if value.truthy then some (pyStr value) else none : Option String).getD "") := by
  unfold orEmptyText
  split
  · rfl
  · rfl

theorem eventId_eq (H : HashFunction) (determination : Determination) :
    determination.eventId H = hexDigest H determination.payload := by
  simp only [eventId, computeEventId, payload_eq, orEmptyText_optionalText, pyStr, List.append_assoc, List.cons_append]

theorem payload_injective {left right : Determination} (free : Free '|' left.fields)
    (same : left.payload = right.payload) : left.parts = right.parts := by
  have count : left.fields.length = right.fields.length := rfl
  have fields : left.fields = right.fields := intercalate_inj free count (utf8_injective same)
  exact List.map_injective_iff.mpr (fun _ _ => chars_injective) fields

theorem idSeparates_of_free {H : HashFunction} {determination : Determination}
    (free : Free '|' determination.fields) : IdSeparates H determination := by
  intro other same
  rw [eventId_eq, eventId_eq] at same
  refine holds_or_findCollision fun distinct => payload_injective free ?_
  exact hexDigest_binding distinct (by simp) (by simp) same

theorem not_bound_of_payload {H : HashFunction} {left right : Determination} (same : left.payload = right.payload)
    (apart : left.parts ≠ right.parts) : ¬ Bound H left right := by
  intro bound
  rcases bound with equal | ⟨pair, found, _⟩
  · exact apart equal
  · rw [findCollision_self same] at found
    cases found

theorem exists_cut {text : String} (held : '|' ∈ chars text) : ∃ before after : String,
    chars text = chars before ++ '|' :: chars after ∧ text ≠ before ∧ text ≠ after := by
  rcases List.append_of_mem held with ⟨before, after, split⟩
  have lengths := congrArg List.length split
  rw [List.length_append, List.length_cons] at lengths
  have cut : ∀ part : List Char, part.length < (chars text).length → text ≠ String.ofList part := by
    intro part shorter same
    rw [same, chars_ofList] at shorter
    exact Nat.lt_irrefl _ shorter
  refine ⟨String.ofList before, String.ofList after, by rw [chars_ofList, chars_ofList, split], cut _ ?_, cut _ ?_⟩
  · omega
  · omega

theorem free_of_idSeparates {H : HashFunction} {determination : Determination}
    (separates : IdSeparates H determination) : Free '|' determination.fields := by
  by_contra held
  have other : ∃ other : Determination, determination.payload = other.payload ∧
      determination.parts ≠ other.parts := by
    rcases determination with ⟨sourceRef, findingRef, validity, resolution⟩
    simp only [Free, fields, parts, List.map_cons, List.map_nil, List.forall_mem_cons, List.not_mem_nil,
      false_imp_iff, implies_true, and_true, not_and_or, not_not] at held
    rcases held with held | held | held | held
    · rcases exists_cut held with ⟨before, after, split, apart, -⟩
      refine ⟨⟨before, String.ofList (chars after ++ '|' :: chars findingRef), validity, resolution⟩, ?_, ?_⟩
      · simp only [payload_eq, split, chars_ofList, List.append_assoc, List.cons_append]
      · simp [parts, apart]
    · rcases exists_cut held with ⟨before, after, split, -, apart⟩
      refine ⟨⟨String.ofList (chars sourceRef ++ '|' :: chars before), after, validity, resolution⟩, ?_, ?_⟩
      · simp only [payload_eq, split, chars_ofList, List.append_assoc, List.cons_append]
      · simp [parts, apart]
    · rcases exists_cut held with ⟨before, after, split, -, apart⟩
      refine ⟨⟨sourceRef, String.ofList (chars findingRef ++ '|' :: chars before), some after, resolution⟩, ?_, ?_⟩
      · simp only [payload_eq, split, chars_ofList, Option.getD_some, List.append_assoc, List.cons_append]
      · simp [parts, apart]
    · rcases exists_cut held with ⟨before, after, split, -, apart⟩
      refine ⟨⟨sourceRef, findingRef, some (String.ofList (chars (validity.getD "") ++ '|' :: chars before)),
        some after⟩, ?_, ?_⟩
      · simp only [payload_eq, split, chars_ofList, Option.getD_some, List.append_assoc, List.cons_append]
      · simp [parts, apart]
  rcases other with ⟨other, same, apart⟩
  have ids : determination.eventId H = other.eventId H := by rw [eventId_eq, eventId_eq, same]
  exact not_bound_of_payload same apart (separates other ids)

theorem canonicalId_eq (H : HashFunction) (event : Dict) :
    canonicalId H event = (ofEvent event).map (eventId H) := by
  have text : ∀ text : String, pyStr (.str text) = text := fun _ => rfl
  unfold canonicalId ofEvent
  cases orEmpty (event.get "source") with
  | error failure => rfl
  | ok source =>
    cases orEmpty (event.get "disposition") with
    | error failure => rfl
    | ok disposition =>
      simp only [bind, Except.bind, pure, Except.pure, Except.map, eventId, computeEventId, text,
        orEmptyText_optionalText, orEmptyText_eq (Dict.get _ _)]

theorem ofEvent_of_canonicalId {H : HashFunction} {event : Dict} {id : String}
    (computed : canonicalId H event = .ok id) : ∃ determination, ofEvent event = .ok determination ∧
      id = determination.eventId H := by
  rw [canonicalId_eq] at computed
  cases read : ofEvent event with
  | error failure =>
    rw [read] at computed
    cases computed
  | ok determination =>
    rw [read] at computed
    cases computed
    exact ⟨determination, rfl, rfl⟩

section Writing

variable {H : HashFunction}

theorem stored_of_holdsId {events : List Dict} (replayable : ∀ event ∈ events, Replayable H event) {id : String}
    (held : holdsId events id = true) :
    ∃ stored ∈ events, ∃ other, ofEvent stored = .ok other ∧ id = other.eventId H := by
  rcases List.any_eq_true.mp held with ⟨stored, member, same⟩
  rcases (replayable stored member).canonical with ⟨canonical, computed, named⟩
  rcases ofEvent_of_canonicalId computed with ⟨other, read, rfl⟩
  rw [named, Json.pyEq_str, decide_eq_true_eq, Json.str.injEq] at same
  exact ⟨stored, member, other, read, same.symm⟩

theorem neverLost_of_free {determination : Determination} (free : Free '|' determination.fields) :
    NeverLost H determination := by
  intro layer events next ids log accepted event offered read
  have held : ∃ id, canonicalId H event = .ok id ∧ holdsId next.events id = true ∧
      ∀ stored ∈ next.events, Replayable H stored := by
    rcases accepted with appending | ⟨single, id, rfl, appending⟩
    · rcases appendMany_holds appending offered with ⟨id, computed, held⟩
      exact ⟨id, computed, held, replayable_appendMany log.replayable appending⟩
    · rw [List.mem_singleton] at offered
      subst offered
      rcases appendOne_holds appending with ⟨computed, held⟩
      exact ⟨id, computed, held, replayable_appendOne log.replayable appending⟩
  rcases held with ⟨id, computed, held, replayable⟩
  rw [canonicalId_eq, read] at computed
  cases computed
  rcases stored_of_holdsId replayable held with ⟨stored, member, other, reread, same⟩
  exact ⟨stored, member, other, reread, idSeparates_of_free free other same⟩

end Writing

end Determination

/-- An id separates its determination from every other one, and the writer loses no event with it, exactly where
    none of its texts holds the separator. -/
theorem event_ids_separate_iff (H : HashFunction) (determination : Determination) :
    determination.IdSeparates H ∧ determination.NeverLost H ↔ ∀ text ∈ determination.parts, '|' ∉ chars text := by
  have free : Free '|' determination.fields ↔ ∀ text ∈ determination.parts, '|' ∉ chars text := by
    simp only [Free, Determination.fields, List.forall_mem_map]
  rw [← free]
  constructor
  · intro given
    exact Determination.free_of_idSeparates given.1
  · intro clean
    exact ⟨Determination.idSeparates_of_free clean, Determination.neverLost_of_free clean⟩

def scanAbout (ref findingRef : String) : Dict :=
  (scanOf ref "confirmed" "machine").set "finding_ref" (.str findingRef)

def scannedFirst : Determination := ⟨"scan", "a|b", some "confirmed", none⟩

def scannedSecond : Determination := ⟨"scan|a", "b", some "confirmed", none⟩

/-- Two scans of two findings have one id, with no collision of the hash: the writer reports the second as stored
    and has the first. -/
theorem second_scan_dropped :
    scannedSecond.parts ≠ scannedFirst.parts ∧ scannedSecond.eventId sha256 = scannedFirst.eventId sha256 ∧
    ¬ Determination.Bound sha256 scannedSecond scannedFirst ∧
    Determination.ofEvent (scanAbout "scan" "a|b") = .ok scannedFirst ∧
    Determination.ofEvent (scanAbout "scan|a" "b") = .ok scannedSecond ∧
    ∃ layer next id, (Prod.fst <$> appendOne sha256 oneClaim (scanAbout "scan" "a|b")) = .ok layer ∧
      appendOne sha256 layer (scanAbout "scan|a" "b") = .ok (next, id) ∧
      (∀ stored ∈ next.events, Determination.ofEvent stored = .ok scannedFirst) := by
  have same : scannedSecond.payload = scannedFirst.payload := by decide +kernel
  have apart : scannedSecond.parts ≠ scannedFirst.parts := by decide
  have written : (okAnd (Prod.fst <$> appendOne sha256 oneClaim (scanAbout "scan" "a|b")) fun layer =>
      okAnd (appendOne sha256 layer (scanAbout "scan|a" "b")) fun answer => answer.1.events.all fun stored =>
        okAnd (Determination.ofEvent stored) fun read => decide (read = scannedFirst)) = true := by
    decide +kernel
  rcases okAnd_iff.mp written with ⟨layer, appended, written⟩
  rcases okAnd_iff.mp written with ⟨⟨next, id⟩, dropped, stored⟩
  refine ⟨apart, ?_, Determination.not_bound_of_payload same apart, rfl, rfl, layer, next, id, appended, dropped, ?_⟩
  · rw [Determination.eventId_eq, Determination.eventId_eq, same]
  · intro event member
    rcases okAnd_iff.mp (List.all_eq_true.mp stored event member) with ⟨read, found, equal⟩
    rw [found, of_decide_eq_true equal]

end LedgerProof
