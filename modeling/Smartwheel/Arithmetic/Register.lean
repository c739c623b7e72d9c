import Mathlib.Data.Nat.Bitwise
import Mathlib.Data.Nat.Count
import Mathlib.Logic.Function.Iterate

/-! A shift register that bits are fed into, the lowest bit of it leaving first. Where its taps keep the bit that leaves, it
does not forget bits that fit into it together. -/
namespace Register
variable {w : ℕ}

/-- The first bits of a sequence, from the lowest one up. -/
def ofBits (w : ℕ) (bits : ℕ → Bool) : ℕ → BitVec w
  | 0 => 0
  | k + 1 => ofBits w bits k ^^^ (if bits k then BitVec.twoPow w k else 0)

theorem getLsbD_ofBits (bits : ℕ → Bool) (k : ℕ) {i : ℕ} (inside : i < w) : (ofBits w bits k).getLsbD i = (decide (i < k) && bits i) := by
  induction k with
  | zero => simp [ofBits]
  | succ k ih =>
    rw [ofBits, BitVec.getLsbD_xor, ih]
    rcases Nat.lt_trichotomy i k with before | rfl | after
    · have other : ¬k = i := by omega
      cases bits k <;> simp [other, before, Nat.lt_succ_of_lt before]
    · cases bits i <;> simp [inside]
    · have other : ¬k = i := by omega
      have later : ¬i < k + 1 := by omega
      cases bits k <;> simp [other, later, Nat.lt_asymm after]

theorem ofBits_getLsbD (c : BitVec w) : ofBits w c.getLsbD w = c := by
  refine BitVec.eq_of_getLsbD_eq fun i inside => ?_
  rw [getLsbD_ofBits _ _ inside, decide_eq_true inside, Bool.true_and]

variable (taps : BitVec w)

def shift (c : BitVec w) : BitVec w := (c >>> 1) ^^^ (if c.getLsbD 0 then taps else 0)

def feed (c : BitVec w) (bit : Bool) : BitVec w := shift taps (c ^^^ if bit then BitVec.twoPow w 0 else 0)

/-- The register after the first bits of a sequence. -/
def feeds (bits : ℕ → Bool) (c : BitVec w) : ℕ → BitVec w
  | 0 => c
  | k + 1 => feed taps (feeds bits c k) (bits k)

theorem shift_xor (a b : BitVec w) : shift taps (a ^^^ b) = shift taps a ^^^ shift taps b := by
  unfold shift
  rw [BitVec.ushiftRight_xor_distrib, BitVec.getLsbD_xor]
  refine BitVec.eq_of_getLsbD_eq fun i _ => ?_
  cases a.getLsbD 0 <;> cases b.getLsbD 0 <;> simp [Bool.xor_comm, Bool.xor_left_comm]

theorem shift_zero : shift taps 0 = 0 := by simp [shift]

theorem shifts_xor (n : ℕ) (a b : BitVec w) : (shift taps)^[n] (a ^^^ b) = (shift taps)^[n] a ^^^ (shift taps)^[n] b := by
  induction n generalizing a b with
  | zero => rfl
  | succ n ih => rw [Function.iterate_succ_apply, shift_xor, ih, Function.iterate_succ_apply, Function.iterate_succ_apply]

theorem shifts_zero (n : ℕ) : (shift taps)^[n] 0 = 0 := Function.iterate_fixed (shift_zero taps) n

/-- A bit moves down before it leaves. -/
theorem shifts_twoPow {k : ℕ} (inside : k < w) : (shift taps)^[k] (BitVec.twoPow w k) = BitVec.twoPow w 0 := by
  induction k with
  | zero => rfl
  | succ k ih =>
    have down : shift taps (BitVec.twoPow w (k + 1)) = BitVec.twoPow w k := by
      refine BitVec.eq_of_getLsbD_eq fun i _ => ?_
      have same : (k + 1 = 1 + i) ↔ k = i := by omega
      have bound : k < w := by omega
      simp [shift, same, inside, bound]
    rw [Function.iterate_succ_apply, down, ih (by omega)]

theorem feeds_ofBits (bits : ℕ → Bool) (c : BitVec w) {k : ℕ} (fits : k ≤ w) :
    feeds taps bits c k = (shift taps)^[k] (c ^^^ ofBits w bits k) := by
  induction k with
  | zero => simp [feeds, ofBits]
  | succ k ih =>
    have fed : (if bits k then BitVec.twoPow w 0 else 0) = (shift taps)^[k] (if bits k then BitVec.twoPow w k else 0) := by
      cases bits k
      · exact (shifts_zero taps k).symm
      · exact (shifts_twoPow taps fits).symm
    rw [feeds, feed, ih (by omega), fed, ← shifts_xor, ofBits, BitVec.xor_assoc, Function.iterate_succ_apply']

theorem feeds_add (bits : ℕ → Bool) (c : BitVec w) (a b : ℕ) :
    feeds taps bits c (a + b) = feeds taps (fun p => bits (a + p)) (feeds taps bits c a) b := by
  induction b with
  | zero => rfl
  | succ b ih => rw [← Nat.add_assoc, feeds, ih, feeds]

theorem feeds_quiet {bits : ℕ → Bool} (c : BitVec w) {k : ℕ} (quiet : ∀ p < k, bits p = false) :
    feeds taps bits c k = (shift taps)^[k] c := by
  induction k with
  | zero => rfl
  | succ k ih =>
    rw [feeds, feed, quiet k (Nat.lt_succ_self k), ih fun p before => quiet p (Nat.lt_succ_of_lt before), Function.iterate_succ_apply']
    simp

variable {taps}

/-- The bit that left is the highest one. -/
theorem eq_zero_of_shift (keep : taps.getLsbD (w - 1) = true) {c : BitVec w} (zero : shift taps c = 0) : c = 0 := by
  have left : c.getLsbD 0 = false := by
    by_contra set
    rw [Bool.not_eq_false] at set
    have top := congrArg (fun x => x.getLsbD (w - 1)) zero
    have beyond : c.getLsbD (1 + (w - 1)) = false := BitVec.getLsbD_of_ge _ _ (by omega)
    simp [shift, set, keep, beyond] at top
  refine BitVec.eq_of_getLsbD_eq fun i _ => ?_
  cases i with
  | zero => simpa using left
  | succ i =>
    have moved := congrArg (fun x => x.getLsbD i) zero
    simpa [shift, left, Nat.add_comm] using moved

theorem eq_zero_of_shifts (keep : taps.getLsbD (w - 1) = true) {c : BitVec w} {n : ℕ} (zero : (shift taps)^[n] c = 0) : c = 0 := by
  induction n with
  | zero => exact zero
  | succ n ih =>
    rw [Function.iterate_succ_apply'] at zero
    exact ih (eq_zero_of_shift keep zero)

/-- Bits that are no farther apart than the register is wide leave something in it. -/
theorem feeds_burst (keep : taps.getLsbD (w - 1) = true) {bits : ℕ → Bool} {start n : ℕ} (seen : bits start = true)
    (within : ∀ p, bits p = true → start ≤ p ∧ p < start + w ∧ p < n) : feeds taps bits 0 n ≠ 0 := by
  intro zero
  obtain ⟨-, wide, before⟩ := within start seen
  have quiet {p : ℕ} (outside : ¬(start ≤ p ∧ p < start + w ∧ p < n)) : bits p = false :=
    Bool.eq_false_iff.mpr fun set => outside (within p set)
  -- whether the input ends inside of the burst does not matter: no bit comes after it
  have longer : feeds taps bits 0 (n + w) = 0 := by
    rw [feeds_add, zero, feeds_quiet taps _ fun p _ => quiet (by omega), shifts_zero]
  have first : feeds taps bits 0 start = 0 := by rw [feeds_quiet taps _ fun p _ => quiet (by omega), shifts_zero]
  have last (c : BitVec w) : feeds taps (fun p => bits (start + (w + p))) c (n - start) = (shift taps)^[n - start] c :=
    feeds_quiet taps _ fun p _ => quiet (by omega)
  have burst : feeds taps bits 0 (n + w) = (shift taps)^[n - start] ((shift taps)^[w] (ofBits w (fun p => bits (start + p)) w)) := by
    have parts : n + w = start + (w + (n - start)) := by omega
    rw [parts, feeds_add, first, feeds_add, last, feeds_ofBits taps _ _ le_rfl, BitVec.ofNat_eq_ofNat, BitVec.zero_xor]
  rw [longer] at burst
  have empty := eq_zero_of_shifts keep (eq_zero_of_shifts keep burst.symm)
  have lowest : (ofBits w (fun p => bits (start + p)) w).getLsbD 0 = (decide (0 < w) && bits start) := getLsbD_ofBits _ _ (by omega)
  rw [empty, seen, BitVec.ofNat_eq_ofNat, BitVec.getLsbD_zero, Bool.and_true] at lowest
  exact of_decide_eq_false lowest.symm (by omega)

/-- How many of the first bits of a sequence are set. -/
def ones (bits : ℕ → Bool) : ℕ → ℕ := Nat.count fun i => bits i = true

theorem ones_succ (bits : ℕ → Bool) (n : ℕ) : ones bits (n + 1) = ones bits n + (bits n).toNat := by
  rw [ones, Nat.count_succ]
  cases bits n <;> rfl

theorem ones_xor (a b : BitVec w) (n : ℕ) : ones (a ^^^ b).getLsbD n % 2 = (ones a.getLsbD n + ones b.getLsbD n) % 2 := by
  induction n with
  | zero => rfl
  | succ n ih =>
    have bit : ∀ x y : Bool, (x ^^ y).toNat % 2 = (x.toNat + y.toNat) % 2 := by decide
    have last := bit (a.getLsbD n) (b.getLsbD n)
    rw [ones_succ, ones_succ, ones_succ, BitVec.getLsbD_xor]
    omega

theorem ones_zero (n : ℕ) : ones (0#w).getLsbD n = 0 := by simp [ones]

theorem ones_low (wide : 0 < w) : ones (BitVec.twoPow w 0).getLsbD w = 1 := by
  obtain ⟨w, rfl⟩ := Nat.exists_eq_add_one_of_ne_zero wide.ne'
  rw [ones, Nat.count_succ']
  simp [BitVec.getLsbD_twoPow]

theorem ones_shiftRight (c : BitVec w) : ones (c >>> 1).getLsbD w + (c.getLsbD 0).toNat = ones c.getLsbD w := by
  have top : ones c.getLsbD (w + 1) = ones c.getLsbD w := by simp [ones_succ]
  rw [← top, ones, ones, Nat.count_succ']
  simp only [BitVec.getLsbD_ushiftRight, Nat.add_comm 1]
  cases c.getLsbD 0 <;> rfl

variable (odd : ones taps.getLsbD w % 2 = 1)
include odd

/-- The taps give back what the bit that leaves takes away. -/
theorem ones_shift (c : BitVec w) : ones (shift taps c).getLsbD w % 2 = ones c.getLsbD w % 2 := by
  have rest := ones_shiftRight c
  rw [shift, ones_xor]
  cases left : c.getLsbD 0 <;> rw [left] at rest
  · rw [if_neg Bool.false_ne_true, BitVec.ofNat_eq_ofNat, ones_zero, ← rest]
    rfl
  · rw [if_pos rfl, ← rest, Bool.toNat_true]
    omega

theorem ones_feeds (bits : ℕ → Bool) (c : BitVec w) (n : ℕ) :
    ones (feeds taps bits c n).getLsbD w % 2 = (ones c.getLsbD w + ones bits n) % 2 := by
  have wide : 0 < w := Nat.pos_of_ne_zero fun none_ => by subst none_; cases odd
  induction n with
  | zero => rfl
  | succ n ih =>
    have low := ones_low wide
    rw [feeds, feed, ones_shift odd, ones_xor, ones_succ]
    cases bits n
    · rw [if_neg Bool.false_ne_true, BitVec.ofNat_eq_ofNat, ones_zero]
      exact ih
    · rw [if_pos rfl, Bool.toNat_true]
      omega

end Register
