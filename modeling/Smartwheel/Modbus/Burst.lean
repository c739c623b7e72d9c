import Mathlib.Data.Finset.Max
import Smartwheel.Arithmetic.Register
import Smartwheel.Modbus.Frame

/-! A frame of which bits near each other, or an odd number of bits, were flipped is refused. -/
namespace Smartwheel.Modbus
open Register

/-- `frame` with bits flipped, which are counted as `crc16` takes them: from the low bit of a byte up. -/
def flipBits (positions : Finset ℕ) (frame : Bytes) : Bytes :=
  frame.mapIdx fun i byte => byte ^^^ ofBits 8 (fun j => decide (8 * i + j ∈ positions)) 8

theorem crcShift_shift : crcShift = shift 0xa001 := by
  funext crc
  have low : crc &&& 1 = 1 ↔ crc.getLsbD 0 = true := by
    have masked : crc &&& 1 = BitVec.setWidth 16 (BitVec.ofBool (crc.getLsbD 0)) := BitVec.and_one_eq_setWidth_ofBool_getLsbD
    rw [masked]
    cases crc.getLsbD 0 <;> decide
  unfold crcShift shift
  simp only [low]

theorem ofBits_setWidth (bits : ℕ → Bool) : (ofBits 8 bits 8).setWidth 16 = ofBits 16 bits 8 := by
  refine BitVec.eq_of_getLsbD_eq fun i inside => ?_
  rw [BitVec.getLsbD_setWidth, getLsbD_ofBits _ _ inside]
  by_cases low : i < 8
  · rw [getLsbD_ofBits _ _ low, decide_eq_true inside, Bool.true_and]
  · simp [BitVec.getLsbD_of_ge _ i (Nat.le_of_not_lt low), low]

theorem crcByte_ofBits (crc : Word) (bits : ℕ → Bool) : crcByte crc (ofBits 8 bits 8) = feeds 0xa001 bits crc 8 := by
  rw [crcByte, crcShift_shift, ofBits_setWidth, feeds_ofBits _ _ _ (by decide)]

theorem crcByte_xor (a b : Word) (x y : Byte) : crcByte (a ^^^ b) (x ^^^ y) = crcByte a x ^^^ crcByte b y := by
  have mixed : a ^^^ b ^^^ (x ^^^ y).setWidth 16 = (a ^^^ x.setWidth 16) ^^^ (b ^^^ y.setWidth 16) := by
    rw [BitVec.setWidth_xor]
    ac_rfl
  rw [crcByte, crcByte, crcByte, crcShift_shift, mixed, shifts_xor]

/-- What flipped bits add to the CRC. -/
theorem flipBits_residue (positions : Finset ℕ) (frame : Bytes) (crc : Word) :
    (flipBits positions frame).foldl crcByte crc =
      frame.foldl crcByte crc ^^^ feeds 0xa001 (fun p => decide (p ∈ positions)) 0 (8 * frame.length) := by
  unfold flipBits
  induction frame using List.reverseRecOn with
  | nil => simp [feeds]
  | append_singleton frame byte ih =>
    rw [List.mapIdx_append, List.foldl_append, ih, List.foldl_append, List.length_append, List.length_singleton, Nat.mul_succ, feeds_add,
      ← crcByte_ofBits]
    simp only [List.mapIdx_cons, List.mapIdx_nil, List.foldl_cons, List.foldl_nil, Nat.zero_add]
    exact crcByte_xor ..

theorem withCrc_residue (payload : Bytes) : (withCrc payload).foldl crcByte 0xffff = 0 := by
  generalize residue : payload.foldl crcByte 0xffff = crc
  have low : crc.extractLsb' 0 8 = ofBits 8 crc.getLsbD 8 := by
    refine BitVec.eq_of_getLsbD_eq fun i inside => ?_
    rw [BitVec.getLsbD_extractLsb', getLsbD_ofBits _ _ inside, Nat.zero_add]
  have high : crc.extractLsb' 8 8 = ofBits 8 (fun j => crc.getLsbD (8 + j)) 8 := by
    refine BitVec.eq_of_getLsbD_eq fun i inside => ?_
    rw [BitVec.getLsbD_extractLsb', getLsbD_ofBits _ _ inside]
  have both : feeds 0xa001 crc.getLsbD crc (8 + 8) = 0 := by
    rw [feeds_ofBits _ _ _ (by decide), ofBits_getLsbD, BitVec.xor_self]
    exact shifts_zero _ _
  unfold withCrc crc16
  dsimp only
  rw [List.foldl_append, residue, low, high]
  simp only [List.foldl_cons, List.foldl_nil]
  rw [crcByte_ofBits, crcByte_ofBits, ← feeds_add, both]

theorem burst_rejected (message : Bytes) (flipped : Finset ℕ) (some_ : flipped.Nonempty)
    (inside : ∀ p ∈ flipped, p < 8 * (withCrc message).length) (burst : ∀ p ∈ flipped, ∀ q ∈ flipped, q < p + 16) :
    checkedFrame (flipBits flipped (withCrc message)) = .error (.feedback "invalid RTU length or CRC") := by
  unfold checkedFrame
  refine if_neg fun ⟨_, _, matched⟩ => ?_
  generalize received : flipBits flipped (withCrc message) = frame at matched
  have residue : frame.foldl crcByte 0xffff = 0 := by
    have whole : frame = withCrc (frame.take (frame.length - 2)) := by rw [withCrc, matched, List.take_append_drop]
    rw [whole]
    exact withCrc_residue _
  rw [← received, flipBits_residue, withCrc_residue, BitVec.ofNat_eq_ofNat, BitVec.zero_xor] at residue
  refine feeds_burst (by decide) (decide_eq_true (flipped.min'_mem some_)) (fun p set => ?_) residue
  have there := of_decide_eq_true set
  exact ⟨flipped.min'_le p there, burst _ (flipped.min'_mem some_) p there, inside p there⟩

theorem burst_rejected_bits :
    checkedFrame (flipBits {11, 26} (withCrc (readPayload 1 0x20AB 2))) = .error (.feedback "invalid RTU length or CRC") :=
  burst_rejected (readPayload 1 0x20AB 2) {11, 26} (by decide) (by decide) (by decide)

theorem odd_rejected (message : Bytes) (flipped : Finset ℕ) (odd : Odd flipped.card)
    (inside : ∀ p ∈ flipped, p < 8 * (withCrc message).length) :
    checkedFrame (flipBits flipped (withCrc message)) = .error (.feedback "invalid RTU length or CRC") := by
  unfold checkedFrame
  refine if_neg fun ⟨_, _, matched⟩ => ?_
  generalize received : flipBits flipped (withCrc message) = frame at matched
  have residue : frame.foldl crcByte 0xffff = 0 := by
    have whole : frame = withCrc (frame.take (frame.length - 2)) := by rw [withCrc, matched, List.take_append_drop]
    rw [whole]
    exact withCrc_residue _
  rw [← received, flipBits_residue, withCrc_residue, BitVec.ofNat_eq_ofNat, BitVec.zero_xor] at residue
  have counted := ones_feeds (by decide : ones (0xa001 : Word).getLsbD 16 % 2 = 1) (fun p => decide (p ∈ flipped)) 0#16 (8 * (withCrc message).length)
  have set : ones (fun p => decide (p ∈ flipped)) (8 * (withCrc message).length) = flipped.card := by
    simp only [ones, Nat.count_eq_card_filter_range, decide_eq_true_eq]
    congr 1
    ext p
    simpa using inside p
  rw [residue, ones_zero, set, Nat.zero_add, Nat.odd_iff.mp odd] at counted
  cases counted

theorem odd_rejected_bits :
    checkedFrame (flipBits {0, 20, 57} (withCrc (readPayload 1 0x20AB 2))) = .error (.feedback "invalid RTU length or CRC") :=
  odd_rejected (readPayload 1 0x20AB 2) {0, 20, 57} (by decide) (by decide)

end Smartwheel.Modbus
