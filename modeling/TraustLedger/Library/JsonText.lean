import TraustLedger.Library.Json
import TraustLedger.Library.Hashing

namespace Python

open Hashing

def hex4 (n : Nat) : List Char :=
  [Nat.digitChar (n / 4096 % 16), Nat.digitChar (n / 256 % 16), Nat.digitChar (n / 16 % 16),
    Nat.digitChar (n % 16)]

def unicodeEscape (n : Nat) : List Char := '\\' :: 'u' :: hex4 n

def shortEscape (c : Char) : Option Char :=
  if c = '"' then some '"'
  else if c = '\\' then some '\\'
  else if c = '\n' then some 'n'
  else if c = '\r' then some 'r'
  else if c = '\t' then some 't'
  else if c = '\x0c' then some 'f'
  else if c = '\x08' then some 'b'
  else none

def escapeChar (ensureAscii : Bool) (c : Char) : List Char :=
  match shortEscape c with
  | some letter => ['\\', letter]
  | none =>
    if c.toNat < 32 ∨ (ensureAscii = true ∧ 126 < c.toNat ∧ c.toNat < 65536) then unicodeEscape c.toNat
    else if ensureAscii = true ∧ 65536 ≤ c.toNat then
      unicodeEscape (0xd800 + (c.toNat - 65536) / 1024) ++ unicodeEscape (0xdc00 + (c.toNat - 65536) % 1024)
    else [c]

def quote (ensureAscii : Bool) (s : String) : List Char :=
  '"' :: (chars s).flatMap (escapeChar ensureAscii) ++ ['"']

def intText (n : Int) : List Char :=
  if n < 0 then '-' :: Nat.toDigits 10 n.natAbs else Nat.toDigits 10 n.natAbs

mutual

/-- `json.dumps(value, sort_keys=True, separators=(",", ":"), ensure_ascii=ensureAscii)`. -/
def text (ensureAscii : Bool) : Json → List Char
  | .null => ['n', 'u', 'l', 'l']
  | .bool true => ['t', 'r', 'u', 'e']
  | .bool false => ['f', 'a', 'l', 's', 'e']
  | .int n => intText n
  | .float x => x.text.toList
  | .str s => quote ensureAscii s
  | .arr [] => ['[', ']']
  | .arr (item :: items) => '[' :: text ensureAscii item ++ textItems ensureAscii items
  | .obj [] => ['{', '}']
  | .obj ((key, value) :: fields) =>
    '{' :: quote ensureAscii key ++ ':' :: text ensureAscii value ++ textFields ensureAscii fields

def textItems (ensureAscii : Bool) : List Json → List Char
  | [] => [']']
  | item :: items => ',' :: text ensureAscii item ++ textItems ensureAscii items

def textFields (ensureAscii : Bool) : List (String × Json) → List Char
  | [] => ['}']
  | (key, value) :: fields =>
    ',' :: quote ensureAscii key ++ ':' :: text ensureAscii value ++ textFields ensureAscii fields

end

def utf8 (text : List Char) : Bytes := text.flatMap String.utf8EncodeChar

def dumps (ensureAscii : Bool) (value : Json) : Bytes := utf8 (text ensureAscii value)

def hexChars (bytes : Bytes) : List Char :=
  bytes.flatMap fun b => [Nat.digitChar (b.toNat / 16), Nat.digitChar (b.toNat % 16)]

def hex (bytes : Bytes) : String := String.ofList (hexChars bytes)

section Repr

def reprChar (quoteMark c : Char) : List Char :=
  if c = '\\' then ['\\', '\\']
  else if c = quoteMark then ['\\', c]
  else if c = '\n' then ['\\', 'n']
  else if c = '\r' then ['\\', 'r']
  else if c = '\t' then ['\\', 't']
  else if c.toNat < 32 ∨ (127 ≤ c.toNat ∧ c.toNat ≤ 160) ∨ c.toNat = 173 then
    ['\\', 'x', Nat.digitChar (c.toNat / 16), Nat.digitChar (c.toNat % 16)]
  else [c]

def reprString (s : String) : List Char :=
  let quoteMark := if (chars s).contains '\'' && !(chars s).contains '"' then '"' else '\''
  quoteMark :: (chars s).flatMap (reprChar quoteMark) ++ [quoteMark]

mutual

def reprText : Json → List Char
  | .null => ['N', 'o', 'n', 'e']
  | .bool true => ['T', 'r', 'u', 'e']
  | .bool false => ['F', 'a', 'l', 's', 'e']
  | .int n => intText n
  | .float x => x.text.toList
  | .str s => reprString s
  | .arr [] => ['[', ']']
  | .arr (item :: items) => '[' :: reprText item ++ reprItems items
  | .obj [] => ['{', '}']
  | .obj ((key, value) :: fields) => '{' :: reprString key ++ ':' :: ' ' :: reprText value ++ reprFields fields

def reprItems : List Json → List Char
  | [] => [']']
  | item :: items => ',' :: ' ' :: reprText item ++ reprItems items

def reprFields : List (String × Json) → List Char
  | [] => ['}']
  | (key, value) :: fields => ',' :: ' ' :: reprString key ++ ':' :: ' ' :: reprText value ++ reprFields fields

end

/-- Python's `repr(value)`, with every character past Latin-1 taken as printable. -/
def pyRepr (value : Json) : String := String.ofList (reprText value)

def pyStr : Json → String
  | .str s => s
  | value => pyRepr value

end Repr

example : String.ofList (text true (.obj [("a", .arr [.int (-12), .null]), ("é", .str "\n😀")])) =
    "\x7b\"a\":[-12,null],\"\\u00e9\":\"\\n\\ud83d\\ude00\"\x7d" := by
  decide +kernel

section Strings

def hexValue (c : Char) : Nat := if c.toNat < 58 then c.toNat - 48 else c.toNat - 87

def hex4Value (a b c d : Char) : Nat :=
  4096 * hexValue a + 256 * hexValue b + 16 * hexValue c + hexValue d

def shortUnescape (c : Char) : Char :=
  if c = 'n' then '\n'
  else if c = 'r' then '\r'
  else if c = 't' then '\t'
  else if c = 'f' then '\x0c'
  else if c = 'b' then '\x08'
  else c

def unescape : List Char → Option (Char × List Char)
  | '\\' :: 'u' :: a :: b :: c :: d :: rest =>
    if 0xd800 ≤ hex4Value a b c d ∧ hex4Value a b c d < 0xdc00 then
      match rest with
      | _ :: _ :: a' :: b' :: c' :: d' :: rest' =>
        some (Char.ofNat (65536 + (hex4Value a b c d - 0xd800) * 1024 + (hex4Value a' b' c' d' - 0xdc00)),
          rest')
      | _ => none
    else some (Char.ofNat (hex4Value a b c d), rest)
  | '\\' :: letter :: rest => some (shortUnescape letter, rest)
  | c :: rest => some (c, rest)
  | [] => none

theorem hexValue_digitChar : ∀ d, d < 16 → hexValue (Nat.digitChar d) = d := by
  decide

theorem hex4Value_digits {n : Nat} (small : n < 65536) :
    hex4Value (Nat.digitChar (n / 4096 % 16)) (Nat.digitChar (n / 256 % 16))
      (Nat.digitChar (n / 16 % 16)) (Nat.digitChar (n % 16)) = n := by
  rw [hex4Value, hexValue_digitChar _ (by omega), hexValue_digitChar _ (by omega),
    hexValue_digitChar _ (by omega), hexValue_digitChar _ (by omega)]
  omega

theorem unescape_unicodeEscape {n : Nat} (small : n < 65536) (plain : n < 0xd800 ∨ 0xdfff < n)
    (rest : List Char) : unescape (unicodeEscape n ++ rest) = some (Char.ofNat n, rest) := by
  simp only [unicodeEscape, hex4, List.cons_append, List.nil_append, unescape, hex4Value_digits small]
  rw [if_neg (by omega)]

theorem unescape_surrogates {n : Nat} (lower : 65536 ≤ n) (upper : n < 0x110000) (rest : List Char) :
    unescape (unicodeEscape (0xd800 + (n - 65536) / 1024) ++
      (unicodeEscape (0xdc00 + (n - 65536) % 1024) ++ rest)) = some (Char.ofNat n, rest) := by
  have high : 0xd800 + (n - 65536) / 1024 < 65536 := by omega
  have low : 0xdc00 + (n - 65536) % 1024 < 65536 := by omega
  simp only [unicodeEscape, hex4, List.cons_append, List.nil_append, unescape, hex4Value_digits high,
    hex4Value_digits low]
  rw [if_pos (by omega)]
  have rebuilt : 65536 + (0xd800 + (n - 65536) / 1024 - 0xd800) * 1024 +
      (0xdc00 + (n - 65536) % 1024 - 0xdc00) = n := by omega
  rw [rebuilt]

theorem unescape_plain {c : Char} (plain : c ≠ '\\') (rest : List Char) :
    unescape (c :: rest) = some (c, rest) := by
  unfold unescape
  split <;> simp_all

theorem unescape_short {c letter : Char} (short : shortEscape c = some letter) (rest : List Char) :
    unescape ('\\' :: letter :: rest) = some (c, rest) := by
  unfold shortEscape at short
  repeat' split at short
  all_goals simp only [Option.some.injEq, reduceCtorEq] at short
  all_goals
    subst_vars
    simp [unescape, shortUnescape]

theorem unescape_escapeChar (ensureAscii : Bool) (c : Char) (rest : List Char) :
    unescape (escapeChar ensureAscii c ++ rest) = some (c, rest) := by
  have valid : c.toNat < 0xd800 ∨ (0xdfff < c.toNat ∧ c.toNat < 0x110000) := c.valid
  unfold escapeChar
  split
  · next letter short => exact unescape_short short rest
  · next long =>
    split
    · rw [unescape_unicodeEscape (by omega) (by omega), Char.ofNat_toNat]
    · split
      · rw [List.append_assoc, unescape_surrogates (by omega) (by omega), Char.ofNat_toNat]
      · refine unescape_plain ?_ rest
        rintro rfl
        simp [shortEscape] at long

theorem escapeChar_ne_quote {ensureAscii : Bool} {c : Char} {rest tail : List Char} :
    escapeChar ensureAscii c ++ rest ≠ '"' :: tail := by
  intro same
  have read := unescape_escapeChar ensureAscii c rest
  rw [same, unescape_plain (by decide)] at read
  simp only [Option.some.injEq, Prod.mk.injEq] at read
  rw [← read.1] at same
  simp [escapeChar, shortEscape] at same

theorem escaped_inj {ensureAscii : Bool} {a b r s : List Char}
    (same : a.flatMap (escapeChar ensureAscii) ++ '"' :: r = b.flatMap (escapeChar ensureAscii) ++ '"' :: s) :
    a = b ∧ r = s := by
  induction a generalizing b with
  | nil =>
    cases b with
    | nil => simpa using same
    | cons d b =>
      rw [List.flatMap_cons, List.append_assoc] at same
      exact absurd same.symm escapeChar_ne_quote
  | cons c a ih =>
    cases b with
    | nil =>
      rw [List.flatMap_cons, List.append_assoc] at same
      exact absurd same escapeChar_ne_quote
    | cons d b =>
      rw [List.flatMap_cons, List.flatMap_cons, List.append_assoc, List.append_assoc] at same
      have read := congrArg unescape same
      rw [unescape_escapeChar, unescape_escapeChar] at read
      simp only [Option.some.injEq, Prod.mk.injEq] at read
      have tail := ih read.2
      exact ⟨by rw [read.1, tail.1], tail.2⟩

theorem quote_inj {ensureAscii : Bool} {a b : String} {r s : List Char}
    (same : quote ensureAscii a ++ r = quote ensureAscii b ++ s) : a = b ∧ r = s := by
  simp only [quote, List.cons_append, List.append_assoc, List.cons.injEq, true_and,
    List.nil_append] at same
  have body := escaped_inj same
  exact ⟨chars_injective body.1, body.2⟩

end Strings

section Atoms

def atomChar (c : Char) : Bool := c.isAlpha || numberChar c

def Closed (rest : List Char) : Prop := ∀ c ∈ rest.head?, atomChar c = false

theorem closed_cons {c : Char} (outside : atomChar c = false) (rest : List Char) : Closed (c :: rest) := by
  intro d head
  cases head
  exact outside

theorem atoms_inj {a b r s : List Char} (aAtoms : a.all atomChar = true) (bAtoms : b.all atomChar = true)
    (rClosed : Closed r) (sClosed : Closed s) (same : a ++ r = b ++ s) : a = b ∧ r = s := by
  induction a generalizing b with
  | nil =>
    cases b with
    | nil => exact ⟨rfl, same⟩
    | cons d b =>
      simp only [List.all_cons, Bool.and_eq_true] at bAtoms
      have outside := rClosed d (by rw [show r = d :: (b ++ s) from same]; rfl)
      rw [bAtoms.1] at outside
      cases outside
  | cons c a ih =>
    simp only [List.all_cons, Bool.and_eq_true] at aAtoms
    cases b with
    | nil =>
      have outside := sClosed c (by rw [show s = c :: (a ++ r) from same.symm]; rfl)
      rw [aAtoms.1] at outside
      cases outside
    | cons d b =>
      simp only [List.all_cons, Bool.and_eq_true] at bAtoms
      simp only [List.cons_append, List.cons.injEq] at same
      have tail := ih aAtoms.2 bAtoms.2 same.2
      exact ⟨by rw [same.1, tail.1], tail.2⟩

theorem digits_isDigit (n : Nat) : ∀ c ∈ Nat.toDigits 10 n, c.isDigit = true :=
  fun _ member => Nat.isDigit_of_mem_toDigits (by decide) (by decide) member

theorem intText_number (n : Int) : (intText n).all numberChar = true := by
  have digits : (Nat.toDigits 10 n.natAbs).all numberChar = true := by
    rw [List.all_eq_true]
    intro c member
    simp [numberChar, digits_isDigit _ c member]
  unfold intText
  split
  · simpa [numberChar] using digits
  · exact digits

theorem intText_exact (n : Int) : (intText n).any (fun c => c == '.' || c == 'e') = false := by
  have digits : (Nat.toDigits 10 n.natAbs).any (fun c => c == '.' || c == 'e') = false := by
    rw [List.any_eq_false]
    intro c member point
    have digit := digits_isDigit _ c member
    simp only [Bool.or_eq_true, beq_iff_eq] at point
    rcases point with rfl | rfl <;> cases digit
  unfold intText
  split
  · simpa using digits
  · exact digits

theorem toDigits_inj {m n : Nat} (same : Nat.toDigits 10 m = Nat.toDigits 10 n) : m = n := by
  have values := congrArg (Nat.ofDigitChars 10 · 0) same
  simpa only [Nat.ofDigitChars_ten_toDigits] using values

theorem toDigits_ne_minus {n : Nat} {rest : List Char} : Nat.toDigits 10 n ≠ '-' :: rest := by
  intro same
  have digit := digits_isDigit n '-' (by rw [same]; exact List.mem_cons_self)
  cases digit

theorem intText_inj {m n : Int} (same : intText m = intText n) : m = n := by
  unfold intText at same
  split at same <;> split at same
  · have digits := toDigits_inj (List.cons.inj same).2
    omega
  · exact absurd same.symm toDigits_ne_minus
  · exact absurd same toDigits_ne_minus
  · have digits := toDigits_inj same
    omega

def isAtom : Json → Bool
  | .str _ | .arr _ | .obj _ => false
  | _ => true

variable {ensureAscii : Bool}

theorem atom_chars {v : Json} (atom : isAtom v = true) : (text ensureAscii v).all atomChar = true := by
  have widen : ∀ l : List Char, l.all numberChar = true → l.all atomChar = true := by
    intro l numbers
    rw [List.all_eq_true] at numbers ⊢
    intro c member
    simp [atomChar, numbers c member]
  cases v with
  | null => rfl
  | bool b => cases b <;> rfl
  | int n => exact widen _ (intText_number n)
  | float x => exact widen _ x.number
  | str _ | arr _ | obj _ => cases atom

theorem keyword_ne_number {c : Char} {word : List Char} (keyword : numberChar c = false) {l : List Char}
    (number : l.all numberChar = true) : c :: word ≠ l := by
  rintro rfl
  rw [List.all_cons, keyword] at number
  cases number

theorem atom_inj {v w : Json} (vAtom : isAtom v = true) (wAtom : isAtom w = true)
    (same : text ensureAscii v = text ensureAscii w) : v = w := by
  have mixed : ∀ (n : Int) (x : FloatText), intText n ≠ x.text.toList := by
    intro n x equal
    have exact := intText_exact n
    rw [equal, x.inexact] at exact
    cases exact
  cases v with
  | null =>
    cases w with
    | null => rfl
    | bool b => cases b <;> simp [text] at same
    | int n => exact absurd same (keyword_ne_number rfl (intText_number n))
    | float x => exact absurd same (keyword_ne_number rfl x.number)
    | str _ | arr _ | obj _ => cases wAtom
  | bool a =>
    cases w with
    | null => cases a <;> simp [text] at same
    | bool b => cases a <;> cases b <;> simp [text] at same ⊢
    | int n => cases a <;> exact absurd same (keyword_ne_number rfl (intText_number n))
    | float x => cases a <;> exact absurd same (keyword_ne_number rfl x.number)
    | str _ | arr _ | obj _ => cases wAtom
  | int m =>
    cases w with
    | null => exact absurd same.symm (keyword_ne_number rfl (intText_number m))
    | bool b => cases b <;> exact absurd same.symm (keyword_ne_number rfl (intText_number m))
    | int n => rw [intText_inj same]
    | float x => exact absurd same (mixed m x)
    | str _ | arr _ | obj _ => cases wAtom
  | float x =>
    cases w with
    | null => exact absurd same.symm (keyword_ne_number rfl x.number)
    | bool b => cases b <;> exact absurd same.symm (keyword_ne_number rfl x.number)
    | int n => exact absurd same.symm (mixed n x)
    | float y =>
      have texts : x.text = y.text := String.toList_injective same
      cases x
      cases y
      simp only at texts
      subst texts
      rfl
    | str _ | arr _ | obj _ => cases wAtom
  | str _ | arr _ | obj _ => cases vAtom

end Atoms

section Values

variable {ensureAscii : Bool}

theorem intText_ne_nil (n : Int) : intText n ≠ [] := by
  unfold intText
  split
  · simp
  · exact Nat.toDigits_ne_nil

theorem atom_ne_nil {v : Json} (atom : isAtom v = true) : text ensureAscii v ≠ [] := by
  cases v with
  | null => simp [text]
  | bool b => cases b <;> simp [text]
  | int n => exact intText_ne_nil n
  | float x =>
    intro empty
    have inexact := x.inexact
    rw [show x.text.toList = [] from empty] at inexact
    cases inexact
  | str _ | arr _ | obj _ => cases atom

theorem atom_head {v : Json} (atom : isAtom v = true) :
    ∃ c rest, text ensureAscii v = c :: rest ∧ atomChar c = true := by
  have chars := @atom_chars ensureAscii v atom
  cases shape : text ensureAscii v with
  | nil => exact absurd shape (atom_ne_nil atom)
  | cons c rest =>
    rw [shape, List.all_cons, Bool.and_eq_true] at chars
    exact ⟨c, rest, rfl, chars.1⟩

theorem compound_head {v : Json} (compound : isAtom v = false) :
    ∃ c rest, text ensureAscii v = c :: rest ∧ atomChar c = false ∧ c ≠ ']' := by
  cases v with
  | str s => exact ⟨'"', _, rfl, by decide, by decide⟩
  | arr items => cases items <;> exact ⟨'[', _, rfl, by decide, by decide⟩
  | obj fields => cases fields <;> exact ⟨'{', _, rfl, by decide, by decide⟩
  | null | bool _ | int _ | float _ => cases compound

theorem text_ne_close (v : Json) (r s : List Char) : text ensureAscii v ++ r ≠ ']' :: s := by
  cases atom : isAtom v with
  | true =>
    obtain ⟨c, rest, shape, inside⟩ := @atom_head ensureAscii v atom
    rw [shape]
    rintro same
    cases same
    cases inside
  | false =>
    obtain ⟨c, rest, shape, -, other⟩ := @compound_head ensureAscii v atom
    rw [shape]
    intro same
    exact other (List.cons.inj same).1

theorem atom_text_inj {v w : Json} {r s : List Char} (vAtom : isAtom v = true) (rClosed : Closed r)
    (sClosed : Closed s) (same : text ensureAscii v ++ r = text ensureAscii w ++ s) : v = w ∧ r = s := by
  cases wAtom : isAtom w with
  | true =>
    have parts := atoms_inj (atom_chars vAtom) (atom_chars wAtom) rClosed sClosed same
    exact ⟨atom_inj vAtom wAtom parts.1, parts.2⟩
  | false =>
    obtain ⟨c, rest, vShape, inside⟩ := @atom_head ensureAscii v vAtom
    obtain ⟨d, rest', wShape, outside, -⟩ := @compound_head ensureAscii w wAtom
    rw [vShape, wShape] at same
    rw [(List.cons.inj same).1, outside] at inside
    cases inside

theorem textItems_closed (items : List Json) (r : List Char) :
    Closed (textItems ensureAscii items ++ r) := by
  cases items <;> exact closed_cons (by decide) _

theorem textFields_closed (fields : List (String × Json)) (r : List Char) :
    Closed (textFields ensureAscii fields ++ r) := by
  cases fields with
  | nil => exact closed_cons (by decide) _
  | cons entry fields => exact closed_cons (by decide) _

mutual

/-- No text of a value is a proper start of another, once what follows it is closed. -/
theorem text_inj : ∀ (v w : Json) (r s : List Char), Closed r → Closed s →
    text ensureAscii v ++ r = text ensureAscii w ++ s → v = w ∧ r = s
  | .null, _, _, _, rClosed, sClosed, same => atom_text_inj rfl rClosed sClosed same
  | .bool _, _, _, _, rClosed, sClosed, same => atom_text_inj rfl rClosed sClosed same
  | .int _, _, _, _, rClosed, sClosed, same => atom_text_inj rfl rClosed sClosed same
  | .float _, _, _, _, rClosed, sClosed, same => atom_text_inj rfl rClosed sClosed same
  | .str a, w, r, s, rClosed, sClosed, same => by
    cases w with
    | str b =>
      have strings := quote_inj same
      exact ⟨by rw [strings.1], strings.2⟩
    | arr items => cases items <;> simp [text, quote] at same
    | obj fields => cases fields <;> simp [text, quote] at same
    | null | bool _ | int _ | float _ => cases (atom_text_inj rfl sClosed rClosed same.symm).1
  | .arr [], w, r, s, rClosed, sClosed, same => by
    cases w with
    | arr items =>
      cases items with
      | nil => simpa [text] using same
      | cons item items =>
        simp only [text, List.cons_append, List.append_assoc, List.cons.injEq, true_and,
          List.nil_append] at same
        exact absurd same.symm (text_ne_close item _ _)
    | str b => simp [text, quote] at same
    | obj fields => cases fields <;> simp [text] at same
    | null | bool _ | int _ | float _ => cases (atom_text_inj rfl sClosed rClosed same.symm).1
  | .arr (item :: items), w, r, s, rClosed, sClosed, same => by
    cases w with
    | arr others =>
      cases others with
      | nil =>
        simp only [text, List.cons_append, List.append_assoc, List.cons.injEq, true_and,
          List.nil_append] at same
        exact absurd same (text_ne_close item _ _)
      | cons other others =>
        simp only [text, List.cons_append, List.append_assoc, List.cons.injEq, true_and] at same
        have first := text_inj item other _ _ (textItems_closed items r) (textItems_closed others s) same
        have others := textItems_inj items others r s first.2
        exact ⟨by rw [first.1, others.1], others.2⟩
    | str b => simp [text, quote] at same
    | obj fields => cases fields <;> simp [text] at same
    | null | bool _ | int _ | float _ => cases (atom_text_inj rfl sClosed rClosed same.symm).1
  | .obj [], w, r, s, rClosed, sClosed, same => by
    cases w with
    | obj fields =>
      cases fields with
      | nil => simpa [text] using same
      | cons entry fields => simp [text, quote] at same
    | str b => simp [text, quote] at same
    | arr items => cases items <;> simp [text] at same
    | null | bool _ | int _ | float _ => cases (atom_text_inj rfl sClosed rClosed same.symm).1
  | .obj ((key, value) :: fields), w, r, s, rClosed, sClosed, same => by
    cases w with
    | obj others =>
      cases others with
      | nil => simp [text, quote] at same
      | cons entry others =>
        simp only [text, List.cons_append, List.append_assoc, List.cons.injEq, true_and] at same
        have keys := quote_inj same
        have first := text_inj value entry.2 _ _ (textFields_closed fields r) (textFields_closed others s)
          (List.cons.inj keys.2).2
        have others := textFields_inj fields others r s first.2
        exact ⟨by rw [keys.1, first.1, others.1], others.2⟩
    | str b => simp [text, quote] at same
    | arr items => cases items <;> simp [text] at same
    | null | bool _ | int _ | float _ => cases (atom_text_inj rfl sClosed rClosed same.symm).1

theorem textItems_inj : ∀ (items others : List Json) (r s : List Char),
    textItems ensureAscii items ++ r = textItems ensureAscii others ++ s → items = others ∧ r = s
  | [], [], _, _, same => ⟨rfl, by simpa [textItems] using same⟩
  | [], _ :: _, _, _, same => by simp [textItems] at same
  | _ :: _, [], _, _, same => by simp [textItems] at same
  | item :: items, other :: others, r, s, same => by
    simp only [textItems, List.cons_append, List.append_assoc, List.cons.injEq, true_and] at same
    have first := text_inj item other _ _ (textItems_closed items r) (textItems_closed others s) same
    have rest := textItems_inj items others r s first.2
    exact ⟨by rw [first.1, rest.1], rest.2⟩

theorem textFields_inj : ∀ (fields others : List (String × Json)) (r s : List Char),
    textFields ensureAscii fields ++ r = textFields ensureAscii others ++ s → fields = others ∧ r = s
  | [], [], _, _, same => ⟨rfl, by simpa [textFields] using same⟩
  | [], (_, _) :: _, _, _, same => by simp [textFields] at same
  | (_, _) :: _, [], _, _, same => by simp [textFields] at same
  | (key, value) :: fields, (other, value') :: others, r, s, same => by
    simp only [textFields, List.cons_append, List.append_assoc, List.cons.injEq, true_and] at same
    have keys := quote_inj same
    have first := text_inj value value' _ _ (textFields_closed fields r) (textFields_closed others s)
      (List.cons.inj keys.2).2
    have rest := textFields_inj fields others r s first.2
    exact ⟨by rw [keys.1, first.1, rest.1], rest.2⟩

end

theorem utf8_injective {a b : List Char} (same : utf8 a = utf8 b) : a = b := by
  have encoded : a.utf8Encode = b.utf8Encode := congrArg List.toByteArray same
  have decoded := congrArg ByteArray.utf8Decode? encoded
  rw [List.utf8Decode?_utf8Encode, List.utf8Decode?_utf8Encode] at decoded
  simpa using decoded

/-- The encoder is injective: a document can be read off its canonical bytes. -/
theorem dumps_injective {v w : Json} (same : dumps ensureAscii v = dumps ensureAscii w) : v = w := by
  have closed : Closed [] := fun _ head => nomatch head
  exact (text_inj v w [] [] closed closed (by simpa using utf8_injective same)).1

theorem digitChar_inj : ∀ m, m < 16 → ∀ n, n < 16 → Nat.digitChar m = Nat.digitChar n → m = n := by
  decide

theorem hexChars_injective {a b : Bytes} (same : hexChars a = hexChars b) : a = b := by
  induction a generalizing b with
  | nil =>
    cases b with
    | nil => rfl
    | cons y b => simp [hexChars] at same
  | cons x a ih =>
    cases b with
    | nil => simp [hexChars] at same
    | cons y b =>
      simp only [hexChars, List.flatMap_cons, List.cons_append, List.nil_append, List.cons.injEq] at same
      obtain ⟨high, low, rest⟩ := same
      have highs := digitChar_inj _ (by have := x.toNat_lt; omega) _ (by have := y.toNat_lt; omega) high
      have lows := digitChar_inj _ (by omega) _ (by omega) low
      have byte : x = y := UInt8.toNat_inj.mp (by omega)
      rw [byte, ih rest]

theorem hex_injective {a b : Bytes} (same : hex a = hex b) : a = b :=
  hexChars_injective (String.ofList_injective same)

end Values

end Python
