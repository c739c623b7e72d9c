import Smartwheel.Modbus.Exchange

/-! A field of one or two registers, and what its registers say: every value of its range has an encoding of its own,
whatever the width, the sign and the order of the words. -/
namespace Smartwheel.Modbus

/-- `Field`, and the data it is made from. -/
structure Field where
  address : ℤ
  words : ℤ
  signed : Bool
  wordOrder : String
  scale : ℚ
  unit : String
deriving DecidableEq, Repr

/-- `int.from_bytes(_, 'big', signed=_)`. -/
def fromBytes (signed : Bool) (bytes : Bytes) : ℤ :=
  let value : ℤ := bytes.foldl (fun total byte => total * 256 + byte.toNat) 0
  if signed = true ∧ 2 ^ (8 * bytes.length - 1) ≤ value then value - 2 ^ (8 * bytes.length) else value

namespace Field

def fromDict (data : Field) : Except Fault Field := do
  integer data.address "field address" 0 65535
  if ¬(data.words = 1 ∨ data.words = 2) ∨ data.address + data.words > 65536 then
    .error (.feedback "field must contain one or two registers")
  if ¬(data.wordOrder = "big" ∨ data.wordOrder = "little") then
    .error (.feedback "explicit signedness and word_order required")
  if data.scale ≤ 0 then .error (.feedback "positive finite unit scale required")
  if ¬(data.unit = "motor_rpm" ∨ data.unit = "motor_counts") then .error (.feedback "unknown feedback unit")
  if data.unit = "motor_counts" ∧ data.scale ≠ 1 then
    .error (.feedback "position counts must remain exact integers; scale must be one")
  .ok data

def rawValue (f : Field) (words : List Word) : ℤ :=
  fromBytes f.signed (packWords (if f.wordOrder = "little" then words.reverse else words))

def quantity (f : Field) (value : ℤ) : ℚ := if f.unit = "motor_counts" then value else value * f.scale

def decode (f : Field) (start : ℤ) (values : List Word) : Except Fault ℚ :=
  let offset := f.address - start
  if offset < 0 ∨ offset + f.words > values.length then
    .error (.feedback "reply does not contain both complete wheel fields")
  else .ok (f.quantity (f.rawValue ((values.drop offset.toNat).take f.words.toNat)))

/-! The registers of a value. -/

def bigWords : ℕ → ℤ → List Word
  | 0, _ => []
  | count + 1, value => bigWords count (value / 65536) ++ [.ofInt 16 value]

def encode (f : Field) (value : ℤ) : List Word :=
  if f.wordOrder = "little" then (bigWords f.words.toNat value).reverse else bigWords f.words.toNat value

def Holds (f : Field) (value : ℤ) : Prop :=
  if f.signed = true then -2 ^ (16 * f.words.toNat - 1) ≤ value ∧ value < 2 ^ (16 * f.words.toNat - 1)
  else 0 ≤ value ∧ value < 2 ^ (16 * f.words.toNat)

instance (f : Field) (value : ℤ) : Decidable (f.Holds value) := by
  unfold Holds
  infer_instance

@[simp] theorem bigWords_length (count : ℕ) (value : ℤ) : (bigWords count value).length = count := by
  induction count generalizing value with
  | zero => rfl
  | succ count ih => simp [bigWords, ih]

@[simp] theorem encode_length (f : Field) (value : ℤ) : (f.encode value).length = f.words.toNat := by
  unfold encode
  split <;> simp

theorem foldl_packWords (words : List Word) (total : ℤ) :
    (packWords words).foldl (fun total byte => total * 256 + (byte.toNat : ℤ)) total =
      words.foldl (fun total w => total * 65536 + (w.toNat : ℤ)) total := by
  induction words generalizing total with
  | nil => rfl
  | cons w rest ih =>
    have bytes : (w.extractLsb' 8 8).toNat * 256 + (w.extractLsb' 0 8).toNat = w.toNat := by
      have high : (w.extractLsb' 8 8).toNat = w.toNat / 256 % 256 := by simp [Nat.shiftRight_eq_div_pow]
      have low : (w.extractLsb' 0 8).toNat = w.toNat % 256 := by simp
      have bound := w.isLt
      omega
    have first : packWords (w :: rest) = w.extractLsb' 8 8 :: w.extractLsb' 0 8 :: packWords rest := rfl
    rw [first, List.foldl_cons, List.foldl_cons, List.foldl_cons, ih]
    congr 1
    omega

theorem foldl_bigWords (count : ℕ) (value : ℤ) :
    (bigWords count value).foldl (fun total w => total * 65536 + (w.toNat : ℤ)) 0 = value % 65536 ^ count := by
  induction count generalizing value with
  | zero => simp [bigWords]
  | succ count ih =>
    have last : ((BitVec.ofInt 16 value).toNat : ℤ) = value % 65536 := by
      rw [BitVec.toNat_ofInt]
      omega
    rw [bigWords, List.foldl_append, ih]
    simp only [List.foldl_cons, List.foldl_nil]
    rw [last, pow_succ', Int.emod_def value (65536 * 65536 ^ count), ← Int.ediv_ediv_of_nonneg (by norm_num), Int.emod_def (value / 65536),
      Int.emod_def value 65536]
    ring

theorem rawValue_encode {f : Field} {value : ℤ} (words : f.words = 1 ∨ f.words = 2) (holds : f.Holds value) :
    f.rawValue (f.encode value) = value := by
  have order : (if f.wordOrder = "little" then (f.encode value).reverse else f.encode value) = bigWords f.words.toNat value := by
    unfold encode
    split <;> simp
  have size : (packWords (bigWords f.words.toNat value)).length = 2 * f.words.toNat := by simp
  rw [rawValue, order, fromBytes, foldl_packWords, foldl_bigWords, size]
  unfold Holds at holds
  have widths : f.words.toNat = 1 ∨ f.words.toNat = 2 := by omega
  generalize f.words.toNat = count at holds widths ⊢
  cases sign : f.signed with
  | true =>
    rw [if_pos sign] at holds
    rcases widths with rfl | rfl
    · norm_num at holds ⊢
      split <;> omega
    · norm_num at holds ⊢
      split <;> omega
  | false =>
    rw [if_neg (by simp [sign])] at holds
    rcases widths with rfl | rfl
    · norm_num at holds ⊢
      omega
    · norm_num at holds ⊢
      omega

theorem fromDict_eq_ok {data f : Field} (accepted : fromDict data = .ok f) :
    f = data ∧ (f.words = 1 ∨ f.words = 2) ∧ 0 < f.scale ∧ (f.unit = "motor_counts" → f.scale = 1) := by
  unfold fromDict integer at accepted
  by_cases addresses : 0 ≤ data.address ∧ data.address ≤ 65535
  · simp only [addresses, and_self, if_true, bind, Except.bind] at accepted
    split at accepted
    · cases accepted
    · rename_i registers
      split at accepted
      · cases accepted
      · split at accepted
        · cases accepted
        · rename_i positive
          split at accepted
          · cases accepted
          · split at accepted
            · cases accepted
            · rename_i exact_
              obtain rfl : data = f := Except.ok.inj accepted
              have widths : data.words = 1 ∨ data.words = 2 := not_not.mp (not_or.mp registers).1
              exact ⟨rfl, widths, not_le.mp positive, fun counts => not_not.mp fun other => exact_ ⟨counts, other⟩⟩
  · simp [addresses, bind, Except.bind] at accepted

theorem decode_encode {data f : Field} (accepted : fromDict data = .ok f) {value : ℤ} (holds : f.Holds value) {start : ℤ}
    {before : List Word} (here : start + before.length = f.address) (after : List Word) :
    f.decode start (before ++ f.encode value ++ after) = .ok (f.quantity value) := by
  obtain ⟨-, words, -⟩ := fromDict_eq_ok accepted
  have offset : (f.address - start).toNat = before.length := by omega
  have inside : ¬(f.address - start < 0 ∨ f.address - start + f.words > ((before ++ f.encode value ++ after).length : ℤ)) := by
    simp only [List.length_append, encode_length]
    omega
  have registers : ((before ++ f.encode value ++ after).drop before.length).take f.words.toNat = f.encode value := by
    rw [List.append_assoc, List.drop_left, List.take_append_of_le_length (by simp), List.take_of_length_le (by simp)]
  rw [decode, if_neg inside, offset, registers, rawValue_encode words holds]

theorem encode_injective {data f : Field} (accepted : fromDict data = .ok f) {value other : ℤ} (holds : f.Holds value)
    (holds' : f.Holds other) (same : f.encode value = f.encode other) : value = other := by
  obtain ⟨-, words, -⟩ := fromDict_eq_ok accepted
  rw [← rawValue_encode words holds, same, rawValue_encode words holds']

theorem quantity_injective {data f : Field} (accepted : fromDict data = .ok f) {value other : ℤ}
    (same : f.quantity value = f.quantity other) : value = other := by
  obtain ⟨-, -, positive, -⟩ := fromDict_eq_ok accepted
  unfold quantity at same
  split at same
  · exact_mod_cast same
  · exact_mod_cast mul_right_cancel₀ positive.ne' same

end Field

/-- A reply is parsed if and only if it is the encoding of registers, as many as were asked for, and gives these; a
field is decoded to the value that was encoded, and no two values have one encoding. -/
theorem modbus_exact :
    (∀ (slave address count : ℤ) (request : Bytes), readRequest slave address count = .ok request →
      ∀ (response : Bytes) (words : List Word), parseExchange request response = .ok words ↔
        (words.length : ℤ) = count ∧ response = reply (.ofInt 8 slave) words) ∧
    ∀ data f : Field, Field.fromDict data = .ok f →
      (∀ value, f.Holds value → ∀ (start : ℤ) (before after : List Word), start + before.length = f.address →
        f.decode start (before ++ f.encode value ++ after) = .ok (f.quantity value)) ∧
      ∀ value other, f.Holds value → f.Holds other → value ≠ other →
        f.encode value ≠ f.encode other ∧ f.quantity value ≠ f.quantity other := by
  refine ⟨fun slave address count request built response words => ?_, fun data f accepted => ⟨?_, ?_⟩⟩
  · obtain ⟨-, -, counts, -⟩ := readRequest_eq_ok built
    have size : (words.length : ℤ) = count ↔ words.length = count.toNat := by omega
    rw [parseExchange_built built, parseReply_eq_ok_iff (by omega), size]
  · exact fun value holds start before after here => Field.decode_encode accepted holds here after
  · intro value other holds holds' different
    exact ⟨fun same => different (Field.encode_injective accepted holds holds' same),
      fun same => different (Field.quantity_injective accepted same)⟩

/-- The wheel speeds of a reply to the feedback query, and a position of two registers with the low one first. -/
theorem query_exact :
    parseExchange query (reply 1 [0xFFFE, 3]) = .ok [0xFFFE, 3] ∧
      Field.decode ⟨10, 2, true, "little", 1, "motor_counts"⟩ 9 [7, 0xFFFE, 0xFFFF] = .ok (-2) := by
  have built : readRequest 1 0x20AB 2 = .ok query := readRequest_query
  have accepted : Field.fromDict ⟨10, 2, true, "little", 1, "motor_counts"⟩ = .ok ⟨10, 2, true, "little", 1, "motor_counts"⟩ := by
    decide +kernel
  have decoded := (modbus_exact.2 _ _ accepted).1 (-2) (by decide +kernel) 9 [7] [] rfl
  exact ⟨(modbus_exact.1 1 0x20AB 2 query built _ _).mpr ⟨rfl, rfl⟩, decoded.trans (congrArg Except.ok rfl)⟩

end Smartwheel.Modbus
