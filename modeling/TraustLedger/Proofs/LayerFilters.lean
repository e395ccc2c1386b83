import TraustLedger.Queries
import TraustLedger.Library.Delimiters
import TraustLedger.Proofs.ReferenceEnv

namespace LedgerProof

open Hashing Python Runs LedgerModel

variable {parseDatetime : String → Except String Datetime} {raw : String} {filter : Filter} {definition : FilterDef}

theorem partition_eq_some {sep : Char} {text before after : List Char} :
    partition sep text = some (before, after) ↔ text = before ++ sep :: after ∧ sep ∉ before := by
  induction text generalizing before with
  | nil => simp [partition]
  | cons c text ih =>
    rw [partition]
    split_ifs with here
    · subst here
      constructor
      · intro found
        cases found
        simp
      · rintro ⟨shape, absent⟩
        cases before with
        | nil =>
          cases shape
          rfl
        | cons d before =>
          rw [List.cons_append, List.cons.injEq] at shape
          exact absurd (shape.1 ▸ List.mem_cons_self) absent
    · rw [Option.map_eq_some_iff]
      constructor
      · rintro ⟨⟨first, rest⟩, found, same⟩
        cases same
        rcases ih.mp found with ⟨rfl, absent⟩
        exact ⟨rfl, by simpa using ⟨Ne.symm here, absent⟩⟩
      · rintro ⟨shape, absent⟩
        cases before with
        | nil =>
          cases shape
          exact absurd rfl here
        | cons d before =>
          rw [List.cons_append, List.cons.injEq] at shape
          rw [List.mem_cons, not_or] at absent
          exact ⟨(before, after), ih.mpr ⟨shape.2, absent.2⟩, by rw [shape.1]⟩

theorem registered_entry {key : String} (found : filterRegistry.lookup key = some definition) :
    ':' ∉ chars key ∧ (∀ op ∈ definition.ops, definition.ops.find? (fun other => other.name = op.name) = some op) ∧
      (∀ op ∈ definition.ops, op = .eq ∨ op = .isIn → definition.parse = .text) ∧
      ∀ op ∈ definition.ops, op = .gte ∨ op = .lte →
        (definition.target = .column .merkleEpoch ∧ definition.parse = .integer) ∨
          (definition.target = .column .updatedAt ∧ definition.parse = .datetime) := by
  have member : (key, definition) ∈ filterRegistry := by
    rcases List.lookup_eq_some_iff.mp found with ⟨before, after, split, -⟩
    rw [split]
    simp
  simp only [filterRegistry, List.mem_cons, Prod.mk.injEq, List.not_mem_nil, or_false] at member
  rcases member with ⟨rfl, rfl⟩ | ⟨rfl, rfl⟩ | ⟨rfl, rfl⟩ | ⟨rfl, rfl⟩ | ⟨rfl, rfl⟩ | ⟨rfl, rfl⟩ <;> decide

theorem parseFilter_ok_iff : parseFilter parseDatetime raw = .ok filter ↔ ∃ value definition,
    chars raw = chars filter.key ++ ':' :: (chars filter.op.name ++ ':' :: value) ∧
    filterRegistry.lookup filter.key = some definition ∧ filter.target = definition.target ∧
    filter.op ∈ definition.ops ∧ parseValue parseDatetime definition filter.op value = .ok filter.value := by
  have colonless : ∀ op : FilterOp, ':' ∉ chars op.name := by
    intro op
    cases op <;> decide
  unfold parseFilter
  constructor
  · intro parsed
    cases first : partition ':' (chars raw) with
    | none =>
      rw [first] at parsed
      cases parsed
    | some parts =>
      rcases parts with ⟨key, rest⟩
      cases second : partition ':' rest with
      | none =>
        simp only [first, second] at parsed
        cases parsed
      | some more =>
        rcases more with ⟨opText, value⟩
        simp only [first, second] at parsed
        cases found : filterRegistry.lookup (String.ofList key) with
        | none =>
          rw [found] at parsed
          cases parsed
        | some definition =>
          cases chosen : definition.ops.find? (fun other => other.name = String.ofList opText) with
          | none =>
            simp only [found, chosen] at parsed
            cases parsed
          | some op =>
            simp only [found, chosen] at parsed
            rcases bind_ok_iff.mp parsed with ⟨held, valued, result⟩
            cases result
            have same : op.name = String.ofList opText := by simpa using List.find?_some chosen
            rcases partition_eq_some.mp first with ⟨shape, -⟩
            rcases partition_eq_some.mp second with ⟨rfl, -⟩
            refine ⟨value, definition, ?_, found, rfl, List.mem_of_find?_eq_some chosen, ?_⟩
            · rw [chars_ofList, same, chars_ofList, shape]
            · cases valuing : parseValue parseDatetime definition op value with
              | error failure =>
                rw [valuing] at valued
                cases valued
              | ok result =>
                rw [valuing] at valued
                cases valued
                rfl
  · rintro ⟨value, definition, shape, found, target, allowed, valued⟩
    rcases registered_entry found with ⟨free, finds, -⟩
    have first : partition ':' (chars raw) = some (chars filter.key, chars filter.op.name ++ ':' :: value) :=
      partition_eq_some.mpr ⟨shape, free⟩
    have second : partition ':' (chars filter.op.name ++ ':' :: value) = some (chars filter.op.name, value) :=
      partition_eq_some.mpr ⟨rfl, colonless filter.op⟩
    have keyText : String.ofList (chars filter.key) = filter.key := chars_injective (chars_ofList _)
    have opText : String.ofList (chars filter.op.name) = filter.op.name := chars_injective (chars_ofList _)
    simp only [first, second, keyText, opText, found, finds filter.op allowed, valued]
    rcases filter with ⟨key, target', op, parsed⟩
    dsimp only at target
    rw [target]
    rfl

def valueText : Scalar → List Char
  | .text value => chars value
  | .integer value => chars (toString value)
  | .instant value => chars (toString value.clock)

def valueChars : FilterValue → List Char
  | .one value => valueText value
  | .many values => [','].intercalate (values.map valueText)

def rendered (filter : Filter) : String :=
  String.ofList (chars filter.key ++ ':' :: (chars filter.op.name ++ ':' :: valueChars filter.value))

/-- A filter on text as the registry allows it: the members of a list are not empty and have no comma. -/
structure TextFilter (filter : Filter) : Prop where
  registered : ∃ definition, filterRegistry.lookup filter.key = some definition ∧ definition.parse = .text ∧
    filter.target = definition.target ∧ filter.op ∈ definition.ops
  value : (filter.op = .eq ∧ ∃ text, filter.value = .one (.text text)) ∨
    (filter.op = .isIn ∧ ∃ texts : List String, filter.value = .many (texts.map .text) ∧ texts ≠ [] ∧
      ∀ text ∈ texts, text ≠ "" ∧ ',' ∉ chars text)

theorem parseValue_text {op : FilterOp} (kind : definition.parse = .text) (value : List Char) (other : op ≠ .isIn) :
    parseValue parseDatetime definition op value = .ok (.one (.text (String.ofList value))) := by
  rw [parseValue, if_neg other, kind]
  rfl

theorem mapM_parseScalar_text (members : List (List Char)) :
    members.mapM (fun part => parseScalar parseDatetime (String.ofList part) .text) =
      .ok (members.map fun part => .text (String.ofList part)) := by
  rw [mapM_ok_iff]
  induction members with
  | nil => exact .nil
  | cons part members ih => exact .cons rfl ih

theorem parseValue_members (kind : definition.parse = .text) (value : List Char)
    (filled : (value.splitOn ',').filter (· ≠ []) ≠ []) :
    parseValue parseDatetime definition .isIn value =
      .ok (.many (((value.splitOn ',').filter (· ≠ [])).map fun part => .text (String.ofList part))) := by
  rw [parseValue, if_pos rfl, kind]
  simp only [require, if_pos filled, bind, Except.bind, mapM_parseScalar_text]
  rfl

theorem parseFilter_rendered (text : TextFilter filter) : parseFilter parseDatetime (rendered filter) = .ok filter := by
  rcases text.registered with ⟨definition, found, kind, target, allowed⟩
  refine parseFilter_ok_iff.mpr ⟨valueChars filter.value, definition, ?_, found, target, allowed, ?_⟩
  · rw [rendered, chars_ofList]
  · rcases text.value with ⟨isEq, value, held⟩ | ⟨isIn, values, held, filled, plain⟩
    · rw [isEq, held, parseValue_text kind _ (by decide), valueChars, valueText]
      rw [chars_injective (chars_ofList (chars value))]
    · have free : Delimiters.Free ',' (values.map chars) := by
        intro part member
        rcases List.mem_map.mp member with ⟨value, known, rfl⟩
        exact (plain value known).2
      have parts : (valueChars filter.value).splitOn ',' = values.map chars := by
        rw [held, valueChars, List.map_map]
        exact List.splitOn_intercalate ',' free (by simpa using filled)
      have kept : (values.map chars).filter (· ≠ []) = values.map chars := by
        rw [List.filter_eq_self]
        intro part member
        rcases List.mem_map.mp member with ⟨value, known, rfl⟩
        have nonempty : chars value ≠ [] := fun nothing =>
          (plain value known).1 (chars_injective (nothing.trans (by decide : [] = chars "")))
        simpa using nonempty
      rw [isIn, parseValue_members kind _ (by rw [parts, kept]; simpa using filled), parts, kept, held, List.map_map]
      refine congrArg (fun held => Except.ok (FilterValue.many held)) (List.map_congr_left fun value _ => ?_)
      rw [Function.comp_apply, chars_injective (chars_ofList (chars value))]

theorem parseValue_isIn {value : List Char} {parsed : FilterValue} (kind : definition.parse = .text)
    (valued : parseValue parseDatetime definition .isIn value = .ok parsed) :
    (value.splitOn ',').filter (· ≠ []) ≠ [] ∧
      parsed = .many (((value.splitOn ',').filter (· ≠ [])).map fun part => .text (String.ofList part)) := by
  by_cases filled : (value.splitOn ',').filter (· ≠ []) ≠ []
  · rw [parseValue_members kind value filled] at valued
    cases valued
    exact ⟨filled, rfl⟩
  · rw [parseValue, if_pos rfl] at valued
    simp only [require, if_neg filled, bind, Except.bind] at valued
    cases valued

theorem parseScalar_integer {text : String} {value : Scalar}
    (parsed : parseScalar parseDatetime text .integer = .ok value) : ∃ number, value = .integer number := by
  cases read : toInt (.str text) with
  | error failure =>
    rw [parseScalar, read] at parsed
    cases parsed
  | ok number =>
    rw [parseScalar, read] at parsed
    cases parsed
    exact ⟨number, rfl⟩

theorem parseScalar_datetime {text : String} {value : Scalar}
    (parsed : parseScalar parseDatetime text .datetime = .ok value) : ∃ instant, value = .instant instant := by
  cases read : parseDatetime text with
  | error detail =>
    simp only [parseScalar, read] at parsed
    cases parsed
  | ok instant =>
    simp only [parseScalar, read] at parsed
    cases parsed
    exact ⟨instant, rfl⟩

def BoundValue (filter : Filter) : Prop :=
  (filter.target = .column .merkleEpoch ∧ ∃ number, filter.value = .one (.integer number)) ∨
    (filter.target = .column .updatedAt ∧ ∃ instant, filter.value = .one (.instant instant))

theorem parseValue_bound {op : FilterOp} {value : List Char} {parsed : FilterValue} (other : op ≠ .isIn)
    (valued : parseValue parseDatetime definition op value = .ok parsed) :
    ∃ scalar, parseScalar parseDatetime (String.ofList value) definition.parse = .ok scalar ∧ parsed = .one scalar := by
  rw [parseValue, if_neg other] at valued
  cases read : parseScalar parseDatetime (String.ofList value) definition.parse with
  | error failure =>
    rw [read] at valued
    cases valued
  | ok scalar =>
    rw [read] at valued
    cases valued
    exact ⟨scalar, rfl, rfl⟩

/-- Parsing gives back every filter on text from the request that spells it. What it accepts is such a filter, spelled
    as in the request but for the empty members of a list, or a bound on one of the two ordered columns. -/
theorem filter_round_trip (parseDatetime : String → Except String Datetime) (filter : Filter) :
    (TextFilter filter → parseFilter parseDatetime (rendered filter) = .ok filter) ∧
    ∀ raw, parseFilter parseDatetime raw = .ok filter →
      (filter.op = .eq → TextFilter filter ∧ rendered filter = raw) ∧
      (filter.op = .isIn → TextFilter filter ∧ ∃ value,
        chars raw = chars filter.key ++ ':' :: (chars filter.op.name ++ ':' :: value) ∧
        valueChars filter.value = [','].intercalate ((value.splitOn ',').filter (· ≠ []))) ∧
      (filter.op = .gte ∨ filter.op = .lte → BoundValue filter) := by
  refine ⟨parseFilter_rendered, ?_⟩
  intro raw parsed
  rcases parseFilter_ok_iff.mp parsed with ⟨value, definition, shape, found, target, allowed, valued⟩
  rcases registered_entry found with ⟨-, -, texts, bounds⟩
  refine ⟨?_, ?_, ?_⟩
  · intro isEq
    have kind := texts _ allowed (.inl isEq)
    have held : filter.value = .one (.text (String.ofList value)) := by
      rw [parseValue_text kind value (by rw [isEq]; decide)] at valued
      exact (Except.ok.inj valued).symm
    refine ⟨⟨⟨definition, found, kind, target, allowed⟩, .inl ⟨isEq, _, held⟩⟩, ?_⟩
    apply chars_injective
    rw [rendered, chars_ofList, held, valueChars, valueText, chars_ofList value, shape]
  · intro isIn
    have kind := texts _ allowed (.inr isIn)
    rw [isIn] at valued
    rcases parseValue_isIn kind valued with ⟨filled, held⟩
    refine ⟨⟨⟨definition, found, kind, target, allowed⟩, .inr ⟨isIn,
      ((value.splitOn ',').filter (· ≠ [])).map String.ofList, ?_, ?_, ?_⟩⟩, value, shape, ?_⟩
    · rw [held, List.map_map]
      rfl
    · simpa using filled
    · intro text member
      rcases List.mem_map.mp member with ⟨part, listed, rfl⟩
      rw [List.mem_filter] at listed
      rw [chars_ofList]
      refine ⟨?_, Delimiters.splitOn_free ',' value part listed.1⟩
      intro nothing
      have empty : part = [] := by
        rw [← chars_ofList part, nothing]
        decide
      simp [empty] at listed
    · rw [held, valueChars, List.map_map]
      refine congrArg _ ((List.map_congr_left fun part _ => ?_).trans (List.map_id _))
      rw [Function.comp_apply, valueText, chars_ofList, id]
  · intro bound
    have other : filter.op ≠ .isIn := by
      rcases bound with isGte | isLte
      · rw [isGte]
        decide
      · rw [isLte]
        decide
    rcases parseValue_bound other valued with ⟨scalar, read, held⟩
    rcases bounds _ allowed bound with ⟨column, kind⟩ | ⟨column, kind⟩
    · rw [kind] at read
      rcases parseScalar_integer read with ⟨number, rfl⟩
      exact .inl ⟨target.trans column, number, held⟩
    · rw [kind] at read
      rcases parseScalar_datetime read with ⟨instant, rfl⟩
      exact .inr ⟨target.trans column, instant, held⟩

def statusFilter : Filter := ⟨"review_status", .item "status", .eq, .one (.text "open:2026")⟩

theorem filter_round_trip_status :
    TextFilter statusFilter ∧ parseFilter (fun _ => .error "") "review_status:eq:open:2026" = .ok statusFilter := by
  have text : TextFilter statusFilter :=
    ⟨⟨⟨.item "status", [.eq, .isIn], .text⟩, by decide +kernel, rfl, rfl, by decide⟩, .inl ⟨rfl, _, rfl⟩⟩
  refine ⟨text, ?_⟩
  have spelled : rendered statusFilter = "review_status:eq:open:2026" := by decide +kernel
  rw [← spelled]
  exact (filter_round_trip (fun _ => .error "") statusFilter).1 text

end LedgerProof
