import TraustLedger.Identity
import TraustLedger.Library.Trimming
import TraustLedger.Library.OrderedDicts
import Mathlib.Data.List.Chain

namespace LedgerProof

open Python Trimming LedgerModel

section Folding

theorem toNat_ofNat_small {n : Nat} (small : n < 128) : (Char.ofNat n).toNat = n := by
  rw [Char.ofNat, dif_pos (Or.inl (by omega))]
  rfl

theorem toNat_lowerChar (c : Char) :
    (lowerChar c).toNat = if 65 ≤ c.toNat ∧ c.toNat ≤ 90 then c.toNat + 32 else c.toNat := by
  unfold lowerChar
  split
  · exact toNat_ofNat_small (by omega)
  · rfl

theorem toNat_upperChar (c : Char) :
    (upperChar c).toNat = if 97 ≤ c.toNat ∧ c.toNat ≤ 122 then c.toNat - 32 else c.toNat := by
  unfold upperChar
  split
  · exact toNat_ofNat_small (by omega)
  · rfl

theorem char_ext {c d : Char} (same : c.toNat = d.toNat) : c = d := by
  rw [← Char.ofNat_toNat c, same, Char.ofNat_toNat]

theorem lowerChar_lowerChar (c : Char) : lowerChar (lowerChar c) = lowerChar c := by
  apply char_ext
  rw [toNat_lowerChar, toNat_lowerChar]
  split_ifs <;> omega

theorem upperChar_upperChar (c : Char) : upperChar (upperChar c) = upperChar c := by
  apply char_ext
  rw [toNat_upperChar, toNat_upperChar]
  split_ifs <;> omega

theorem isSpace_letter {c : Char} (letter : 65 ≤ c.toNat ∧ c.toNat ≤ 122) : isSpace c = false := by
  simp only [isSpace, Bool.or_eq_false_iff, Bool.and_eq_false_iff, decide_eq_false_iff_not, beq_eq_false_iff_ne]
  omega

theorem isSpace_lowerChar (c : Char) : isSpace (lowerChar c) = isSpace c := by
  by_cases upper : 65 ≤ c.toNat ∧ c.toNat ≤ 90
  · rw [isSpace_letter (c := c) (by omega), isSpace_letter]
    rw [toNat_lowerChar, if_pos upper]
    omega
  · rw [lowerChar, if_neg upper]

theorem isSpace_upperChar (c : Char) : isSpace (upperChar c) = isSpace c := by
  by_cases lower : 97 ≤ c.toNat ∧ c.toNat ≤ 122
  · rw [isSpace_letter (c := c) (by omega), isSpace_letter]
    rw [toNat_upperChar, if_pos lower]
    omega
  · rw [upperChar, if_neg lower]

@[simp] theorem asciiLower_asciiLower (text : List Char) : asciiLower (asciiLower text) = asciiLower text := by
  simp [asciiLower, lowerChar_lowerChar]

@[simp] theorem asciiUpper_asciiUpper (text : List Char) : asciiUpper (asciiUpper text) = asciiUpper text := by
  simp [asciiUpper, upperChar_upperChar]

theorem asciiLower_append (text more : List Char) : asciiLower (text ++ more) = asciiLower text ++ asciiLower more :=
  List.map_append

end Folding

section Stripping

theorem stripChars_eq (text : List Char) : stripChars text = (text.dropWhile isSpace).rdropWhile isSpace := rfl

theorem stripChars_eq_self_iff {text : List Char} :
    stripChars text = text ↔ HeadNot isSpace text ∧ LastNot isSpace text := trim_eq_self_iff

@[simp] theorem stripChars_stripChars (text : List Char) : stripChars (stripChars text) = stripChars text := trim_trim

theorem stripChars_asciiUpper (text : List Char) : stripChars (asciiUpper text) = asciiUpper (stripChars text) :=
  trim_map isSpace_upperChar text

theorem stripChars_asciiLower (text : List Char) : stripChars (asciiLower text) = asciiLower (stripChars text) :=
  trim_map isSpace_lowerChar text

theorem cweText_eq (cwe : Json) : cweText cwe = asciiUpper (stripChars (chars (pyStr cwe))) := by
  rw [cweText, stripChars_asciiUpper, stripChars_stripChars]

end Stripping

section Paths

structure PathText (text : List Char) : Prop where
  filled : text ≠ []
  forward : '\\' ∉ text
  single : text.IsChain fun c d => ¬ (c = '/' ∧ d = '/')
  start : HeadNot (fun c => c == '.' || c == '/') text
  ending : LastNot (· == '/') text

theorem collapseSlashes_cons (c : Char) (rest : List Char) : collapseSlashes (c :: rest) =
    if c = '/' ∧ rest.head? = some '/' then collapseSlashes rest else c :: collapseSlashes rest := rfl

theorem head_collapseSlashes (text : List Char) : (collapseSlashes text).head? = text.head? := by
  induction text with
  | nil => rfl
  | cons c rest ih =>
    rw [collapseSlashes_cons]
    split
    · next doubled => rw [ih, doubled.2, List.head?_cons, doubled.1]
    · rfl

theorem isChain_collapseSlashes (text : List Char) :
    (collapseSlashes text).IsChain fun c d => ¬ (c = '/' ∧ d = '/') := by
  induction text with
  | nil => exact List.IsChain.nil
  | cons c rest ih =>
    rw [collapseSlashes_cons]
    split
    · exact ih
    · next single =>
      rw [List.isChain_cons]
      refine ⟨?_, ih⟩
      intro d first doubled
      rw [head_collapseSlashes, Option.mem_def] at first
      exact single ⟨doubled.1, doubled.2 ▸ first⟩

theorem collapseSlashes_eq_self {text : List Char} (single : text.IsChain fun c d => ¬ (c = '/' ∧ d = '/')) :
    collapseSlashes text = text := by
  induction text with
  | nil => rfl
  | cons c rest ih =>
    rw [List.isChain_cons] at single
    rw [collapseSlashes_cons, if_neg, ih single.2]
    intro doubled
    exact single.1 '/' doubled.2 ⟨doubled.1, rfl⟩

theorem mem_collapseSlashes {c : Char} {text : List Char} (member : c ∈ collapseSlashes text) : c ∈ text := by
  induction text with
  | nil => exact member
  | cons d rest ih =>
    rw [collapseSlashes_cons] at member
    split at member
    · exact List.mem_cons_of_mem _ (ih member)
    · rcases List.mem_cons.mp member with rfl | later
      · exact List.mem_cons_self
      · exact List.mem_cons_of_mem _ (ih later)

theorem pathText_canonPathText {raw : List Char} (filled : canonPathText raw ≠ []) : PathText (canonPathText raw) := by
  have within : canonPathText raw <:+: collapseSlashes ((stripChars raw).map forwardSlash) :=
    (List.rdropWhile_prefix _ _).isInfix.trans (List.dropWhile_suffix _).isInfix
  refine ⟨filled, ?_, ?_, ?_, lastNot_rdropWhile _ _⟩
  · intro member
    rcases List.mem_map.mp (mem_collapseSlashes (within.subset member)) with ⟨c, _, same⟩
    unfold forwardSlash at same
    split at same
    · cases same
    · next other => exact other same
  · have single := isChain_collapseSlashes ((stripChars raw).map forwardSlash)
    rcases within with ⟨before, after, whole⟩
    rw [← whole] at single
    exact single.left_of_append.right_of_append
  · exact headNot_rdropWhile (headNot_dropWhile _ _)

theorem forward_eq_self {text : List Char} (forward : '\\' ∉ text) : text.map forwardSlash = text := by
  conv_rhs => rw [← List.map_id text]
  refine List.map_inj_left.mpr ?_
  intro c member
  refine if_neg ?_
  intro back
  exact forward (back ▸ member)

theorem canonPathText_dotted {text : List Char} (path : PathText text) :
    canonPathText (['.', '/'] ++ text ++ ['/']) = text := by
  have stripped : stripChars (['.', '/'] ++ text ++ ['/']) = ['.', '/'] ++ text ++ ['/'] :=
    stripChars_eq_self_iff.mpr ⟨headNot_cons.mpr (by decide), lastNot_concat.mpr (by decide)⟩
  have forward : (['.', '/'] ++ text ++ ['/']).map forwardSlash = ['.', '/'] ++ text ++ ['/'] := by
    rw [List.map_append, List.map_append, forward_eq_self path.forward]
    rfl
  have single : (['.', '/'] ++ text ++ ['/']).IsChain fun c d => ¬ (c = '/' ∧ d = '/') := by
    rw [List.isChain_append, List.isChain_append]
    refine ⟨⟨by decide, path.single, ?_⟩, List.isChain_singleton _, ?_⟩
    · intro c _ d first doubled
      have start := path.start d first
      rw [doubled.2] at start
      cases start
    · intro c last d _ doubled
      rw [List.getLast?_append_of_ne_nil _ path.filled] at last
      have ending := path.ending c last
      rw [doubled.1] at ending
      cases ending
  rw [canonPathText, stripped, forward, collapseSlashes_eq_self single]
  have dropped : (['.', '/'] ++ text ++ ['/']).dropWhile (fun c => c == '.' || c == '/') = text ++ ['/'] := by
    rw [List.append_assoc, List.dropWhile_append_of_pos (by simp)]
    exact dropWhile_eq_self (path.start.append path.filled)
  simp only [dropped]
  rw [rdropWhile_append_of_all (by simp), rdropWhile_eq_self path.ending]

theorem PathText.join {text more : List Char} (first : PathText text) (second : PathText more) :
    PathText (text ++ ';' :: more) := by
  refine ⟨by simp, ?_, ?_, first.start.append first.filled, ?_⟩
  · intro member
    rcases List.mem_append.mp member with here | later
    · exact first.forward here
    · rcases List.mem_cons.mp later with wrong | there
      · cases wrong
      · exact second.forward there
  · rw [List.isChain_append, List.isChain_cons]
    refine ⟨first.single, ⟨?_, second.single⟩, ?_⟩
    · intro d _ doubled
      cases doubled.1
    · intro c _ d next doubled
      rw [List.head?_cons, Option.mem_some] at next
      rw [← next] at doubled
      cases doubled.2
  · have whole := LastNot.append (l := text ++ [';']) second.ending second.filled
    rwa [List.append_assoc] at whole

end Paths

end LedgerProof
