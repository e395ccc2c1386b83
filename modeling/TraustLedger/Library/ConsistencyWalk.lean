import TraustLedger.Library.MerkleTree

namespace MerkleTree

/-- Where the old tree of `m` leaves ends on the way down a tree of `n` leaves: `true` when it ends
    in the left subtree, so the sibling only extends the new root; `false` when the left subtree is
    shared and the sibling extends both roots. -/
def extensions (m n : Nat) : List Bool :=
  if m = n then []
  else if _ : 2 ≤ n then
    if m ≤ splitPoint n then true :: extensions m (splitPoint n)
    else false :: extensions (m - splitPoint n) (n - splitPoint n)
  else []
termination_by n
decreasing_by
  · exact splitPoint_lt ‹2 ≤ n›
  · have := splitPoint_pos ‹2 ≤ n›
    omega

@[simp] theorem extensions_self (n : Nat) : extensions n n = [] := by
  rw [extensions]
  simp

theorem extensions_left {m n : Nat} (positive : 0 < m) (lt : m < n) (left : m ≤ splitPoint n) :
    extensions m n = true :: extensions m (splitPoint n) := by
  rw [extensions]
  simp [lt.ne, show 2 ≤ n by omega, left]

theorem extensions_right {m n : Nat} (positive : 0 < m) (lt : m < n) (right : ¬ m ≤ splitPoint n) :
    extensions m n = false :: extensions (m - splitPoint n) (n - splitPoint n) := by
  rw [extensions]
  simp [lt.ne, show 2 ≤ n by omega, right]

theorem extensions_ne_nil {m n : Nat} (positive : 0 < m) (lt : m < n) : extensions m n ≠ [] := by
  by_cases left : m ≤ splitPoint n
  · simp [extensions_left positive lt left]
  · simp [extensions_right positive lt left]

def shiftWhileOdd (fn sn : Nat) : Nat × Nat :=
  if _ : fn % 2 = 1 then shiftWhileOdd (fn / 2) (sn / 2) else (fn, sn)
termination_by fn
decreasing_by omega

theorem shiftWhileOdd_odd {fn sn : Nat} (odd : fn % 2 = 1) :
    shiftWhileOdd fn sn = shiftWhileOdd (fn / 2) (sn / 2) := by
  conv => lhs; rw [shiftWhileOdd]
  simp [odd]

theorem shiftWhileOdd_even {fn sn : Nat} (even : fn % 2 = 0) : shiftWhileOdd fn sn = (fn, sn) := by
  rw [shiftWhileOdd]
  simp [even]

def shiftWhileEven (fn sn : Nat) : Nat × Nat :=
  if _ : fn % 2 = 0 ∧ fn ≠ 0 then shiftWhileEven (fn / 2) (sn / 2) else (fn, sn)
termination_by fn
decreasing_by omega

theorem shiftWhileEven_even {fn sn : Nat} (even : fn % 2 = 0) (nonzero : fn ≠ 0) :
    shiftWhileEven fn sn = shiftWhileEven (fn / 2) (sn / 2) := by
  conv => lhs; rw [shiftWhileEven]
  simp [even, nonzero]

theorem shiftWhileEven_odd {fn sn : Nat} (odd : fn % 2 = 1) : shiftWhileEven fn sn = (fn, sn) := by
  rw [shiftWhileEven]
  simp [odd]

theorem shiftWhileEven_le (fn sn : Nat) : (shiftWhileEven fn sn).2 ≤ sn := by
  induction fn using Nat.strongRecOn generalizing sn with
  | ind fn ih =>
    by_cases even : fn % 2 = 0 ∧ fn ≠ 0
    · rw [shiftWhileEven_even even.1 even.2]
      have below := ih (fn / 2) (by omega) (sn / 2)
      omega
    · rw [shiftWhileEven]
      simp [even]

/-- The steps the RFC 9162 §2.1.4.2 loop takes on `(fn, sn)` until `sn` is used up, bottom first. -/
def walk (fn sn : Nat) : List Bool :=
  if _ : sn = 0 then []
  else if fn % 2 = 1 ∨ fn = sn then
    false :: walk ((shiftWhileEven fn sn).1 / 2) ((shiftWhileEven fn sn).2 / 2)
  else true :: walk (fn / 2) (sn / 2)
termination_by sn
decreasing_by
  · have := shiftWhileEven_le fn sn
    omega
  · omega

@[simp] theorem walk_zero (fn : Nat) : walk fn 0 = [] := by
  rw [walk]
  simp

theorem walk_odd {fn sn : Nat} (remaining : sn ≠ 0) (odd : fn % 2 = 1) :
    walk fn sn = false :: walk (fn / 2) (sn / 2) := by
  rw [walk]
  simp [remaining, odd, shiftWhileEven_odd odd]

theorem walk_left {fn sn : Nat} (remaining : sn ≠ 0) (even : fn % 2 = 0) (differ : fn ≠ sn) :
    walk fn sn = true :: walk (fn / 2) (sn / 2) := by
  rw [walk]
  simp [remaining, even, differ]

theorem walk_same_even {n : Nat} (even : n % 2 = 0) : walk n n = walk (n / 2) (n / 2) := by
  by_cases zero : n = 0
  · simp [zero]
  -- `shiftWhileEven` stops at an odd value, where the two loops take the same step
  have stops : ∀ k, k ≠ 0 → ∃ odd, odd % 2 = 1 ∧ shiftWhileEven k k = (odd, odd) := by
    intro k
    induction k using Nat.strongRecOn with
    | ind k ih =>
      intro nonzero
      by_cases parity : k % 2 = 1
      · exact ⟨k, parity, shiftWhileEven_odd parity⟩
      · rw [shiftWhileEven_even (by omega) nonzero]
        exact ih (k / 2) (by omega) (by omega)
  obtain ⟨odd, isOdd, shifted⟩ := stops (n / 2) (by omega)
  have shiftedTwice : shiftWhileEven n n = (odd, odd) := by
    rw [shiftWhileEven_even even zero, shifted]
  have half : n / 2 ≠ 0 := by omega
  have lower : walk n n = false :: walk (odd / 2) (odd / 2) := by
    rw [walk]
    simp [zero, shiftedTwice]
  have upper : walk (n / 2) (n / 2) = false :: walk (odd / 2) (odd / 2) := by
    rw [walk]
    simp [half, shifted]
  rw [lower, upper]

theorem walk_extend_left (t fn sn : Nat) (old : fn < 2 ^ t) (low : 2 ^ t ≤ sn) (high : sn < 2 ^ (t + 1)) :
    walk fn sn = walk fn (2 ^ t - 1) ++ [true] := by
  induction t generalizing fn sn with
  | zero =>
    have fnZero : fn = 0 := by omega
    have snOne : sn = 1 := by omega
    subst fnZero snOne
    rw [walk_left (by omega) (by omega) (by omega)]
    simp
  | succ t ih =>
    rw [Nat.pow_succ] at old low high
    have positive : 0 < 2 ^ t := Nat.two_pow_pos t
    have half : (2 ^ (t + 1) - 1) / 2 = 2 ^ t - 1 := by rw [Nat.pow_succ]; omega
    have remaining : 2 ^ (t + 1) - 1 ≠ 0 := by rw [Nat.pow_succ]; omega
    have below := ih (fn / 2) (sn / 2) (by omega) (by omega) (by omega)
    by_cases odd : fn % 2 = 1
    · rw [walk_odd (by omega) odd, walk_odd remaining odd, half, below]
      rfl
    · rw [walk_left (by omega) (by omega) (by omega),
        walk_left remaining (by omega) (by rw [Nat.pow_succ]; omega), half, below]
      rfl

theorem walk_extend_right (t fn sn : Nat) (le : fn ≤ sn) (high : sn < 2 ^ t) :
    walk (2 ^ t + fn) (2 ^ t + sn) = walk fn sn ++ [false] := by
  induction t generalizing fn sn with
  | zero =>
    have fnZero : fn = 0 := by omega
    have snZero : sn = 0 := by omega
    subst fnZero snZero
    rw [walk_odd (by simp) (by simp)]
    simp
  | succ t ih =>
    rw [Nat.pow_succ] at high
    have positive : 0 < 2 ^ t := Nat.two_pow_pos t
    have fnHalf : (2 ^ (t + 1) + fn) / 2 = 2 ^ t + fn / 2 := by rw [Nat.pow_succ]; omega
    have snHalf : (2 ^ (t + 1) + sn) / 2 = 2 ^ t + sn / 2 := by rw [Nat.pow_succ]; omega
    have parity : (2 ^ (t + 1) + fn) % 2 = fn % 2 := by rw [Nat.pow_succ]; omega
    have remaining : 2 ^ (t + 1) + sn ≠ 0 := by rw [Nat.pow_succ]; omega
    have below := ih (fn / 2) (sn / 2) (by omega) (by omega)
    by_cases odd : fn % 2 = 1
    · rw [walk_odd remaining (by omega), walk_odd (by omega) odd, fnHalf, snHalf, below]
      rfl
    · by_cases same : fn = sn
      · subst same
        rw [walk_same_even (by omega), walk_same_even (n := fn) (by omega), fnHalf, below]
      · rw [walk_left remaining (by omega) (by omega), walk_left (by omega) (by omega) same,
          fnHalf, snHalf, below]
        rfl

def strippedWalk (fn sn : Nat) : List Bool :=
  walk (shiftWhileOdd fn sn).1 (shiftWhileOdd fn sn).2

theorem strippedWalk_left (t fn sn : Nat) (old : fn < 2 ^ t) (low : 2 ^ t ≤ sn)
    (high : sn < 2 ^ (t + 1)) :
    strippedWalk fn sn = strippedWalk fn (2 ^ t - 1) ++ [true] := by
  induction t generalizing fn sn with
  | zero =>
    have fnZero : fn = 0 := by omega
    subst fnZero
    simp only [strippedWalk, shiftWhileOdd_even (Nat.zero_mod 2)]
    exact walk_extend_left 0 0 sn (by simp) low high
  | succ t ih =>
    by_cases odd : fn % 2 = 1
    · have positive : 0 < 2 ^ t := Nat.two_pow_pos t
      rw [Nat.pow_succ] at old low high
      have half : (2 ^ (t + 1) - 1) / 2 = 2 ^ t - 1 := by rw [Nat.pow_succ]; omega
      have below := ih (fn / 2) (sn / 2) (by omega) (by omega) (by omega)
      simpa only [strippedWalk, shiftWhileOdd_odd odd, half] using below
    · simp only [strippedWalk, shiftWhileOdd_even (show fn % 2 = 0 by omega)]
      exact walk_extend_left (t + 1) fn sn old low high

theorem strippedWalk_right (t fn sn : Nat) (lt : fn < sn) (high : sn < 2 ^ t) :
    strippedWalk (2 ^ t + fn) (2 ^ t + sn) = strippedWalk fn sn ++ [false] := by
  induction t generalizing fn sn with
  | zero => omega
  | succ t ih =>
    by_cases odd : fn % 2 = 1
    · rw [Nat.pow_succ] at high
      have positive : 0 < 2 ^ t := Nat.two_pow_pos t
      have fnHalf : (2 ^ (t + 1) + fn) / 2 = 2 ^ t + fn / 2 := by rw [Nat.pow_succ]; omega
      have snHalf : (2 ^ (t + 1) + sn) / 2 = 2 ^ t + sn / 2 := by rw [Nat.pow_succ]; omega
      have parity : (2 ^ (t + 1) + fn) % 2 = 1 := by rw [Nat.pow_succ]; omega
      have below := ih (fn / 2) (sn / 2) (by omega) (by omega)
      simpa only [strippedWalk, shiftWhileOdd_odd odd, shiftWhileOdd_odd parity, fnHalf, snHalf]
        using below
    · have parity : (2 ^ (t + 1) + fn) % 2 = 0 := by rw [Nat.pow_succ]; omega
      simp only [strippedWalk, shiftWhileOdd_even parity, shiftWhileOdd_even (show fn % 2 = 0 by omega)]
      exact walk_extend_right (t + 1) fn sn lt.le high

theorem strippedWalk_complete (t : Nat) : strippedWalk (2 ^ t - 1) (2 ^ t - 1) = [] := by
  induction t with
  | zero => simp [strippedWalk, shiftWhileOdd_even]
  | succ t ih =>
    have positive : 0 < 2 ^ t := Nat.two_pow_pos t
    have half : (2 ^ (t + 1) - 1) / 2 = 2 ^ t - 1 := by rw [Nat.pow_succ]; omega
    have odd : (2 ^ (t + 1) - 1) % 2 = 1 := by rw [Nat.pow_succ]; omega
    simpa only [strippedWalk, shiftWhileOdd_odd odd, half] using ih

/-- The loop's bit walk is the recursion of the tree, read from the leaves up. -/
theorem strippedWalk_extensions {m n : Nat} (positive : 0 < m) (lt : m < n) :
    strippedWalk (m - 1) (n - 1) = (extensions m n).reverse := by
  induction n using Nat.strongRecOn generalizing m with
  | ind n ih =>
    obtain ⟨t, split, below, above⟩ := splitPoint_bounds (n := n) (by omega)
    by_cases left : m ≤ splitPoint n
    · rw [extensions_left positive lt left, List.reverse_cons,
        strippedWalk_left t (m - 1) (n - 1) (by omega) (by omega) (by omega)]
      congr 1
      rcases left.lt_or_eq with inside | complete
      · rw [← ih (splitPoint n) (by omega) positive inside, split]
      · rw [complete, split, strippedWalk_complete]
        simp
    · rw [extensions_right positive lt left, List.reverse_cons, split,
        ← ih (n - 2 ^ t) (by have := Nat.two_pow_pos t; omega) (by omega) (by omega)]
      have fnSplit : m - 1 = 2 ^ t + (m - 2 ^ t - 1) := by omega
      have snSplit : n - 1 = 2 ^ t + (n - 2 ^ t - 1) := by omega
      rw [fnSplit, snSplit]
      rw [Nat.pow_succ] at above
      exact strippedWalk_right t _ _ (by omega) (by omega)

end MerkleTree
