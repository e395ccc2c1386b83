import TraustLedger.Library.Hashing

namespace Sha256

open Hashing

-- Words are naturals below 2^32 and a block is one natural below 2^512, so that the kernel evaluates
-- digests with its own arithmetic.
def word (n : Nat) : Nat := n % 4294967296

def doubled (x : Nat) : Nat := x * 4294967297

def bigSigma (i j k x : Nat) : Nat :=
  word (((doubled x >>> i) ^^^ (doubled x >>> j)) ^^^ (doubled x >>> k))

def smallSigma (i j k x : Nat) : Nat :=
  word ((doubled x >>> i) ^^^ (doubled x >>> j)) ^^^ (x >>> k)

def choose (x y z : Nat) : Nat := z ^^^ (x &&& (y ^^^ z))

def majority (x y z : Nat) : Nat := (x &&& y) ||| (z &&& (x ||| y))

def roundConstants : List Nat :=
  [0x428a2f98, 0x71374491, 0xb5c0fbcf, 0xe9b5dba5, 0x3956c25b, 0x59f111f1, 0x923f82a4, 0xab1c5ed5,
   0xd807aa98, 0x12835b01, 0x243185be, 0x550c7dc3, 0x72be5d74, 0x80deb1fe, 0x9bdc06a7, 0xc19bf174,
   0xe49b69c1, 0xefbe4786, 0x0fc19dc6, 0x240ca1cc, 0x2de92c6f, 0x4a7484aa, 0x5cb0a9dc, 0x76f988da,
   0x983e5152, 0xa831c66d, 0xb00327c8, 0xbf597fc7, 0xc6e00bf3, 0xd5a79147, 0x06ca6351, 0x14292967,
   0x27b70a85, 0x2e1b2138, 0x4d2c6dfc, 0x53380d13, 0x650a7354, 0x766a0abb, 0x81c2c92e, 0x92722c85,
   0xa2bfe8a1, 0xa81a664b, 0xc24b8b70, 0xc76c51a3, 0xd192e819, 0xd6990624, 0xf40e3585, 0x106aa070,
   0x19a4c116, 0x1e376c08, 0x2748774c, 0x34b0bcb5, 0x391c0cb3, 0x4ed8aa4a, 0x5b9cca4f, 0x682e6ff3,
   0x748f82ee, 0x78a5636f, 0x84c87814, 0x8cc70208, 0x90befffa, 0xa4506ceb, 0xbef9a3f7, 0xc67178f2]

structure State where
  a : Nat
  b : Nat
  c : Nat
  d : Nat
  e : Nat
  f : Nat
  g : Nat
  h : Nat

def initial : State :=
  ⟨0x6a09e667, 0xbb67ae85, 0x3c6ef372, 0xa54ff53a, 0x510e527f, 0x9b05688c, 0x1f83d9ab, 0x5be0cd19⟩

def round (s : State) (constant scheduled : Nat) : State :=
  let t1 := s.h + bigSigma 6 11 25 s.e + choose s.e s.f s.g + constant + scheduled
  ⟨word (t1 + bigSigma 2 13 22 s.a + majority s.a s.b s.c), s.a, s.b, s.c, word (s.d + t1), s.e, s.f, s.g⟩

def nextWord (window : Nat) : Nat :=
  word ((window >>> 480) + smallSigma 7 18 3 (word (window >>> 448)) + (window >>> 192) +
    smallSigma 17 19 10 (word (window >>> 32)))

def rounds : List Nat → Nat → State → State
  | [], _, s => s
  | constant :: constants, window, s =>
    rounds constants ((window % 2 ^ 480) <<< 32 ||| nextWord window) (round s constant (window >>> 480))

def compress (s : State) (block : Nat) : State :=
  let r := rounds roundConstants block s
  ⟨word (s.a + r.a), word (s.b + r.b), word (s.c + r.c), word (s.d + r.d),
   word (s.e + r.e), word (s.f + r.f), word (s.g + r.g), word (s.h + r.h)⟩

def ofBytes (bytes : Bytes) : Nat := bytes.foldl (fun n b => n <<< 8 ||| b.toNat) 0

def bigEndian (count n : Nat) : Bytes :=
  (List.range count).map fun i => UInt8.ofNat (n >>> (8 * (count - 1 - i)))

def pad (message : Bytes) : Bytes :=
  message ++ 0x80 :: List.replicate ((119 - message.length % 64) % 64) 0 ++
    bigEndian 8 (8 * message.length)

def blocks : Nat → Bytes → State → State
  | 0, _, s => s
  | n + 1, bytes, s => blocks n (bytes.drop 64) (compress s (ofBytes (bytes.take 64)))

def digest (message : Bytes) : Bytes :=
  let padded := pad message
  let s := blocks (padded.length / 64) padded initial
  [s.a, s.b, s.c, s.d, s.e, s.f, s.g, s.h].flatMap (bigEndian 4)

theorem digest_length (message : Bytes) : (digest message).length = 32 := by
  simp [digest, bigEndian]

def sha256 : HashFunction := ⟨digest, digest_length⟩

-- The first and last words of the standard's digests of the empty message and of "abc".
example : (digest []).take 4 = [0xe3, 0xb0, 0xc4, 0x42] ∧ (digest []).drop 28 = [0x78, 0x52, 0xb8, 0x55] := by
  decide +kernel

example : (digest [0x61, 0x62, 0x63]).take 4 = [0xba, 0x78, 0x16, 0xbf] ∧
    (digest [0x61, 0x62, 0x63]).drop 28 = [0xf2, 0x00, 0x15, 0xad] := by
  decide +kernel

end Sha256
