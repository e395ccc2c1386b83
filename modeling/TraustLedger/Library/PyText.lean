import Mathlib.Algebra.Group.Nat.Defs
import Mathlib.Tactic.Common

namespace Python

/-- The characters of a string. An ASCII string is its bytes, which the kernel reads faster. -/
def chars (s : String) : List Char :=
  let bytes := s.toByteArray.data.toList
  if bytes.all (fun b => decide (b.toNat < 128)) then bytes.map fun b => Char.ofNat b.toNat else s.toList

theorem ascii_utf8EncodeChar {c : Char}
    (ascii : (String.utf8EncodeChar c).all (fun b => decide (b.toNat < 128)) = true) :
    (String.utf8EncodeChar c).map (fun b => Char.ofNat b.toNat) = [c] := by
  unfold String.utf8EncodeChar at ascii ⊢
  by_cases small : c.val.toNat ≤ 127
  · have byte : (UInt8.ofNat c.val.toNat).toNat = c.toNat := by
      rw [UInt8.toNat_ofNat']
      exact Nat.mod_eq_of_lt (by omega)
    simp only [if_pos small, List.map_cons, List.map_nil, byte, Char.ofNat_toNat]
  · -- every longer encoding starts with a byte of at least 0xc0
    simp only [if_neg small] at ascii
    split_ifs at ascii <;>
      simp only [List.all_cons, Bool.and_eq_true, decide_eq_true_eq, UInt8.toNat_ofNat'] at ascii <;> omega

theorem ascii_utf8 {l : List Char}
    (ascii : (l.flatMap String.utf8EncodeChar).all (fun b => decide (b.toNat < 128)) = true) :
    (l.flatMap String.utf8EncodeChar).map (fun b => Char.ofNat b.toNat) = l := by
  induction l with
  | nil => rfl
  | cons c l ih =>
    rw [List.flatMap_cons, List.all_append, Bool.and_eq_true] at ascii
    rw [List.flatMap_cons, List.map_append, ascii_utf8EncodeChar ascii.1, ih ascii.2]
    rfl

theorem chars_eq_toList (s : String) : chars s = s.toList := by
  have bytes : s.toByteArray.data.toList = s.toList.flatMap String.utf8EncodeChar := by
    rw [← String.utf8Encode_toList]
    simp [List.utf8Encode]
  unfold chars
  rw [bytes]
  simp only
  split
  · next ascii => exact ascii_utf8 ascii
  · rfl

@[simp] theorem chars_ofList (text : List Char) : chars (String.ofList text) = text := by
  rw [chars_eq_toList, String.toList_ofList]

theorem chars_injective {s t : String} (same : chars s = chars t) : s = t := by
  rw [chars_eq_toList, chars_eq_toList] at same
  exact String.toList_injective same

def isSpace (c : Char) : Bool :=
  let n := c.toNat
  (9 ≤ n && n ≤ 13) || (0x1c ≤ n && n ≤ 0x20) || n == 0x85 || n == 0xa0 || n == 0x1680 ||
    (0x2000 ≤ n && n ≤ 0x200a) || n == 0x2028 || n == 0x2029 || n == 0x202f || n == 0x205f || n == 0x3000

def stripChars (text : List Char) : List Char :=
  ((text.dropWhile isSpace).reverse.dropWhile isSpace).reverse

def strip (text : String) : String := String.ofList (stripChars (chars text))

def decimalZeros : List Nat :=
  [0x30, 0x660, 0x6f0, 0x7c0, 0x966, 0x9e6, 0xa66, 0xae6, 0xb66, 0xbe6, 0xc66, 0xce6, 0xd66, 0xde6,
   0xe50, 0xed0, 0xf20, 0x1040, 0x1090, 0x17e0, 0x1810, 0x1946, 0x19d0, 0x1a80, 0x1a90, 0x1b50, 0x1bb0,
   0x1c40, 0x1c50, 0xa620, 0xa8d0, 0xa900, 0xa9d0, 0xa9f0, 0xaa50, 0xabf0, 0xff10, 0x104a0, 0x10d30,
   0x11066, 0x110f0, 0x11136, 0x111d0, 0x112f0, 0x11450, 0x114d0, 0x11650, 0x116c0, 0x11730, 0x118e0,
   0x11950, 0x11c50, 0x11d50, 0x11da0, 0x16a60, 0x16ac0, 0x16b50, 0x1d7ce, 0x1d7d8, 0x1d7e2, 0x1d7ec,
   0x1d7f6, 0x1e140, 0x1e2f0, 0x1e950, 0x1fbf0]

def digitValue (c : Char) : Option Nat :=
  (decimalZeros.find? fun base => decide (base ≤ c.toNat ∧ c.toNat < base + 10)).map (c.toNat - ·)

def parseDigits (pending : Bool) (value : Nat) : List Char → Option Nat
  | [] => if pending then none else some value
  | '_' :: rest => if pending then none else parseDigits true value rest
  | c :: rest => match digitValue c with
    | some digit => parseDigits false (10 * value + digit) rest
    | none => none

def parseInt (text : String) : Option Int :=
  match stripChars (chars text) with
  | '-' :: digits => (parseDigits true 0 digits).map fun n => -(n : Int)
  | '+' :: digits => (parseDigits true 0 digits).map fun n => (n : Int)
  | digits => (parseDigits true 0 digits).map fun n => (n : Int)

def numberChar (c : Char) : Bool := c.isDigit || c == '-' || c == '+' || c == '.' || c == 'e'

/-- A finite float, kept as the text `repr` prints for it. -/
structure FloatText where
  text : String
  number : text.toList.all numberChar = true
  inexact : text.toList.any (fun c => c == '.' || c == 'e') = true
  deriving DecidableEq

def nearestDouble (n : Nat) : Nat :=
  let shift := Nat.log2 n + 1 - 53
  let kept := n >>> shift
  let lost := n % 2 ^ shift
  let rounded := if 2 ^ shift < 2 * lost ∨ (2 * lost = 2 ^ shift ∧ kept % 2 = 1) then kept + 1 else kept
  rounded <<< shift

namespace FloatText

variable (x : FloatText)

def negative : Bool := x.text.toList.head? == some '-'

def significand : List Char := (x.text.toList.dropWhile (· == '-')).takeWhile (· != 'e')

def exponent : Int :=
  let power := String.ofList ((x.text.toList.dropWhile (· != 'e')).drop 1)
  (parseInt power).getD 0 - ((x.significand.dropWhile (· != '.')).drop 1).length

def mantissa : Nat := (x.significand.filter (· != '.')).foldl (fun n c => 10 * n + (c.toNat - 48)) 0

def magnitude : Nat :=
  if 0 ≤ x.exponent then nearestDouble (x.mantissa * 10 ^ x.exponent.toNat)
  else nearestDouble (x.mantissa / 10 ^ (-x.exponent).toNat)

def trunc : Int := if x.negative then -(x.magnitude : Int) else x.magnitude

def integral : Option Int :=
  if 0 ≤ x.exponent ∨ x.mantissa % 10 ^ (-x.exponent).toNat = 0 then some x.trunc else none

end FloatText

example : (parseInt " -1_000\n", parseInt "1__0", parseInt "", parseInt "+7") =
    (some (-1000), none, none, some 7) := by
  decide +kernel

example : (FloatText.mk "-2.5" rfl rfl).trunc = -2 ∧ (FloatText.mk "-2.5" rfl rfl).integral = none ∧
    (FloatText.mk "1e+23" rfl rfl).integral = some 99999999999999991611392 := by
  decide +kernel

end Python
