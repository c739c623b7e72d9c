import Mathlib.Data.Int.Notation
import Smartwheel.Modbus.Frame

/-! What passes for a reply to a read request, and how a field is decoded from its registers: the words of a reply
and the values of a field each have one encoding. -/
namespace Smartwheel.Modbus

/-- `b''.join(struct.pack('>H', w) for w in words)`. -/
def packWords (words : List Word) : Bytes := words.flatMap bigEndian

def reply (slave : Byte) (words : List Word) : Bytes :=
  withCrc (slave :: 3 :: .ofNat 8 (2 * words.length) :: packWords words)

theorem word_bigEndian (w : Word) : word (w.extractLsb' 8 8) (w.extractLsb' 0 8) = w := by
  apply BitVec.eq_of_getLsbD_eq
  intro i h
  unfold word
  rw [BitVec.getLsbD_append]
  by_cases low : i < 8
  · simp [low]
  · have high : i - 8 < 8 := by omega
    have back : 8 + (i - 8) = i := by omega
    simp [low, high, back]

theorem bigEndian_word (high low : Byte) : bigEndian (word high low) = [high, low] := by
  have first : (word high low).extractLsb' 8 8 = high := by
    apply BitVec.eq_of_getLsbD_eq
    intro i h
    unfold word
    rw [BitVec.getLsbD_extractLsb', BitVec.getLsbD_append]
    simp [h]
  have second : (word high low).extractLsb' 0 8 = low := by
    apply BitVec.eq_of_getLsbD_eq
    intro i h
    unfold word
    rw [BitVec.getLsbD_extractLsb', BitVec.getLsbD_append]
    simp [h]
  simp [bigEndian, first, second]
@[simp] theorem packWords_length (words : List Word) : (packWords words).length = 2 * words.length := by
  induction words with
  | nil => rfl
  | cons w rest ih =>
    simp only [packWords, List.flatMap_cons, List.length_append, List.length_cons] at ih ⊢
    rw [ih]
    simp only [bigEndian, List.length_cons, List.length_nil]
    omega

theorem unpackWords_packWords (words : List Word) : unpackWords (packWords words) = words := by
  induction words with
  | nil => rfl
  | cons w rest ih =>
    have first : unpackWords (packWords (w :: rest)) =
        word (w.extractLsb' 8 8) (w.extractLsb' 0 8) :: unpackWords (packWords rest) := rfl
    rw [first, word_bigEndian, ih]

theorem packWords_unpackWords {bytes : Bytes} {count : ℕ} (size : bytes.length = 2 * count) :
    packWords (unpackWords bytes) = bytes ∧ (unpackWords bytes).length = count := by
  induction count generalizing bytes with
  | zero =>
    obtain rfl : bytes = [] := List.length_eq_zero_iff.mp size
    exact ⟨rfl, rfl⟩
  | succ count ih =>
    match bytes, size with
    | high :: low :: rest, size =>
      have tail : rest.length = 2 * count := by
        simp only [List.length_cons] at size
        omega
      obtain ⟨same, length⟩ := ih tail
      have first : packWords (unpackWords (high :: low :: rest)) = bigEndian (word high low) ++ packWords (unpackWords rest) := rfl
      refine ⟨by rw [first, bigEndian_word, same]; rfl, ?_⟩
      simp [unpackWords, length]

theorem checkedFrame_eq_ok_iff {frame : Bytes} :
    checkedFrame frame = .ok frame ↔ 5 ≤ frame.length ∧ frame.length ≤ 256 ∧
      frame = withCrc (frame.take (frame.length - 2)) := by
  have parts : frame.take (frame.length - 2) ++ frame.drop (frame.length - 2) = frame := List.take_append_drop _ _
  unfold checkedFrame
  constructor
  · intro h
    split at h
    · rename_i fine
      refine ⟨fine.1, fine.2.1, ?_⟩
      rw [withCrc, fine.2.2, parts]
    · cases h
  · rintro ⟨first, second, same⟩
    have appended : frame.take (frame.length - 2) ++ crc16 (frame.take (frame.length - 2)) =
        frame.take (frame.length - 2) ++ frame.drop (frame.length - 2) := same.symm.trans parts.symm
    exact if_pos ⟨first, second, List.append_cancel_left appended⟩

theorem readRequest_eq_ok {slave address count : ℤ} {request : Bytes} (built : readRequest slave address count = .ok request) :
    (1 ≤ slave ∧ slave ≤ 247) ∧ (0 ≤ address ∧ address ≤ 65535) ∧ (1 ≤ count ∧ count ≤ 125) ∧
      request = withCrc (readPayload (.ofInt 8 slave) (.ofInt 16 address) (.ofInt 16 count)) := by
  unfold readRequest integer at built
  by_cases slaves : 1 ≤ slave ∧ slave ≤ 247
  · by_cases addresses : 0 ≤ address ∧ address ≤ 65535
    · by_cases counts : 1 ≤ count ∧ count ≤ 125
      · simp only [slaves, addresses, counts, and_self, if_true, bind, Except.bind] at built
        split at built
        · cases built
        · exact ⟨slaves, addresses, counts, (Except.ok.inj built).symm⟩
      · simp [slaves, addresses, counts, bind, Except.bind] at built
    · simp [slaves, addresses, bind, Except.bind] at built
  · simp [slaves, bind, Except.bind] at built

theorem byte_toNat {value : ℤ} (first : 0 ≤ value) (last : value < 256) : ((BitVec.ofInt 8 value).toNat : ℤ) = value := by
  rw [BitVec.toNat_ofInt]
  omega

theorem word_toNat {value : ℤ} (first : 0 ≤ value) (last : value < 65536) : ((BitVec.ofInt 16 value).toNat : ℤ) = value := by
  rw [BitVec.toNat_ofInt]
  omega

def parseReply (slave : Byte) (count : ℕ) (response : Bytes) : Except Fault (List Word) := do
  if response.getD 0 0 ≠ slave then .error (.feedback "response slave mismatch")
  if functionCode response = 0x83 then .error (.feedback s!"Modbus read exception {(response.getD 2 0).toNat}")
  if functionCode response ≠ 3 ∨ (response.getD 2 0).toNat ≠ count * 2 ∨ response.length ≠ 5 + count * 2 then
    .error (.feedback "response function/byte count mismatch")
  .ok (unpackWords ((response.drop 3).take (count * 2)))

theorem parseExchange_built {slave address count : ℤ} {request : Bytes} (built : readRequest slave address count = .ok request)
    (response : Bytes) :
    parseExchange request response = checkedFrame response >>= parseReply (.ofInt 8 slave) count.toNat := by
  obtain ⟨slaves, addresses, counts, rfl⟩ := readRequest_eq_ok built
  have passes := checkedFrame_withCrc (readPayload (.ofInt 8 slave) (.ofInt 16 address) (.ofInt 16 count))
    (by simp [readPayload, bigEndian]) (by simp [readPayload, bigEndian])
  have first : addressOf (withCrc (readPayload (.ofInt 8 slave) (.ofInt 16 address) (.ofInt 16 count))) = .ofInt 16 address :=
    word_bigEndian _
  have second : countOf (withCrc (readPayload (.ofInt 8 slave) (.ofInt 16 address) (.ofInt 16 count))) = .ofInt 16 count :=
    word_bigEndian _
  have slaveByte : ((BitVec.ofInt 8 slave).toNat : ℤ) = slave := byte_toNat (by omega) (by omega)
  have addressWord : ((BitVec.ofInt 16 address).toNat : ℤ) = address := word_toNat (by omega) (by omega)
  have countWord : ((BitVec.ofInt 16 count).toNat : ℤ) = count := word_toNat (by omega) (by omega)
  have slaveFirst : (withCrc (readPayload (.ofInt 8 slave) (.ofInt 16 address) (.ofInt 16 count))).getD 0 0 = .ofInt 8 slave := rfl
  have requests : ¬((withCrc (readPayload (.ofInt 8 slave) (.ofInt 16 address) (.ofInt 16 count))).length ≠ 8 ∨
      functionCode (withCrc (readPayload (.ofInt 8 slave) (.ofInt 16 address) (.ofInt 16 count))) ≠ 3 ∨
      ¬(1 ≤ (BitVec.ofInt 8 slave).toNat ∧ (BitVec.ofInt 8 slave).toNat ≤ 247)) := by
    have unicast : 1 ≤ (BitVec.ofInt 8 slave).toNat ∧ (BitVec.ofInt 8 slave).toNat ≤ 247 := by omega
    have function : functionCode (withCrc (readPayload (.ofInt 8 slave) (.ofInt 16 address) (.ofInt 16 count))) = 3 := rfl
    have length : (withCrc (readPayload (.ofInt 8 slave) (.ofInt 16 address) (.ofInt 16 count))).length = 8 := rfl
    exact fun wrong => wrong.elim (· length) fun wrong => wrong.elim (· function) (· unicast)
  have counted : (BitVec.ofInt 16 count).toNat = count.toNat := by omega
  unfold parseExchange
  simp only [passes, bind, Except.bind, slaveFirst, first, second, slaveByte, addressWord, countWord, built, if_neg requests]
  cases checkedFrame response with
  | error error => rfl
  | ok response =>
    simp only [ne_eq, not_true_eq_false, if_false, counted]
    rfl

theorem reply_length (slave : Byte) (words : List Word) : (reply slave words).length = 5 + words.length * 2 := by
  simp only [reply, withCrc_length, List.length_cons, packWords_length]
  omega

theorem parseReply_eq_ok_iff {slave : Byte} {count : ℕ} (few : count ≤ 125) {response : Bytes} {words : List Word} :
    (checkedFrame response >>= parseReply slave count) = .ok words ↔ words.length = count ∧ response = reply slave words := by
  constructor
  · intro parsed
    cases checked : checkedFrame response with
    | error error =>
      rw [checked] at parsed
      cases parsed
    | ok frame =>
      obtain rfl := checkedFrame_eq_ok checked
      obtain ⟨-, -, whole⟩ := checkedFrame_eq_ok_iff.mp checked
      rw [checked] at parsed
      simp only [bind, Except.bind, parseReply] at parsed
      split at parsed
      · cases parsed
      · rename_i slaves
        split at parsed
        · cases parsed
        · split at parsed
          · cases parsed
          · rename_i shape
            simp only [not_or, ne_eq, not_not] at shape slaves
            obtain ⟨function, bytes, length⟩ := shape
            match frame, length with
            | first :: second :: third :: rest, length =>
              have tail : rest.length = 2 * count + 2 := by
                simp only [List.length_cons] at length
                omega
              have size : (rest.take (count * 2)).length = 2 * count := by
                rw [List.length_take]
                omega
              obtain ⟨same, registers⟩ := packWords_unpackWords size
              obtain rfl : unpackWords (rest.take (count * 2)) = words := Except.ok.inj parsed
              refine ⟨registers, ?_⟩
              have before : (first :: second :: third :: rest).take ((first :: second :: third :: rest).length - 2) =
                  first :: second :: third :: rest.take (count * 2) := by
                have last : (first :: second :: third :: rest).length - 2 = count * 2 + 1 + 1 + 1 := by
                  simp only [List.length_cons]
                  omega
                rw [last]
                rfl
              have counted : third = .ofNat 8 (2 * count) := by
                apply BitVec.eq_of_toNat_eq
                have counted : third.toNat = count * 2 := bytes
                rw [BitVec.toNat_ofNat]
                omega
              have slaves : first = slave := slaves
              have function : second = 3 := function
              rw [whole, before, reply, same, registers, slaves, function, counted]
  · rintro ⟨length, rfl⟩
    have size := reply_length slave words
    have checked : checkedFrame (reply slave words) = .ok (reply slave words) := by
      refine checkedFrame_withCrc _ ?_ ?_
      · simp
      · simp only [List.length_cons, packWords_length]
        omega
    have registers : ((reply slave words).drop 3).take (count * 2) = packWords words := by
      have rest : (reply slave words).drop 3 = packWords words ++ crc16 (slave :: 3 :: .ofNat 8 (2 * words.length) :: packWords words) := rfl
      rw [rest, List.take_append_of_le_length (by simp; omega), List.take_of_length_le (by simp; omega)]
    have counted : ((reply slave words).getD 2 0).toNat = count * 2 := by
      show (BitVec.ofNat 8 (2 * words.length)).toNat = count * 2
      rw [BitVec.toNat_ofNat]
      omega
    have fine : ¬(functionCode (reply slave words) ≠ 3 ∨ ((reply slave words).getD 2 0).toNat ≠ count * 2 ∨
        (reply slave words).length ≠ 5 + count * 2) := by
      have function : functionCode (reply slave words) = 3 := rfl
      have bytes : (reply slave words).length = 5 + count * 2 := by rw [size, length]
      exact fun wrong => wrong.elim (· function) fun wrong => wrong.elim (· counted) (· bytes)
    have slaves : ¬(reply slave words).getD 0 0 ≠ slave := not_not.mpr rfl
    have noException : ¬functionCode (reply slave words) = 0x83 := fun wrong => absurd (show (3 : Byte) = 0x83 from wrong) (by decide)
    rw [checked]
    simp only [bind, Except.bind, parseReply, if_neg fine, if_neg slaves, if_neg noException, registers, unpackWords_packWords]

end Smartwheel.Modbus
