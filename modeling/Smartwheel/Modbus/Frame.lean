import Mathlib.Data.List.Basic
import Mathlib.Logic.Function.Iterate
import Smartwheel.Basic

/-! Modbus RTU frames of the wheel controller: CRC, frame check, FC03 requests and replies.
Bytes are 8-bit words, registers are 16-bit words, frames are lists of bytes. -/
namespace Smartwheel
namespace Modbus

abbrev Byte := BitVec 8
abbrev Word := BitVec 16
abbrev Bytes := List Byte

instance : LawfulBEq Bytes := List.instLawfulBEq

def crcShift (crc : Word) : Word := (crc >>> 1) ^^^ (if crc &&& 1 = 1 then 0xa001 else 0)

def crcByte (crc : Word) (byte : Byte) : Word := crcShift^[8] (crc ^^^ byte.setWidth 16)

/-- High byte first (`>H`). -/
def bigEndian (w : Word) : Bytes := [w.extractLsb' 8 8, w.extractLsb' 0 8]

def word (high low : Byte) : Word := high ++ low

/-- The CRC as it is sent, low byte first (`<H`). -/
def crc16 (payload : Bytes) : Bytes :=
  let crc := payload.foldl crcByte 0xffff
  [crc.extractLsb' 0 8, crc.extractLsb' 8 8]

def withCrc (payload : Bytes) : Bytes := payload ++ crc16 payload

def checkedFrame (frame : Bytes) : Except Fault Bytes :=
  if 5 ≤ frame.length ∧ frame.length ≤ 256 ∧
      crc16 (frame.take (frame.length - 2)) = frame.drop (frame.length - 2) then .ok frame
  else .error (.feedback "invalid RTU length or CRC")

def integer (value : Int) (name : String) (lower upper : Int) : Except Fault Unit :=
  if lower ≤ value ∧ value ≤ upper then .ok ()
  else .error (.feedback s!"{name} must be integer in [{lower}, {upper}]")

def readPayload (slave : Byte) (address count : Word) : Bytes :=
  slave :: 3 :: (bigEndian address ++ bigEndian count)

def readRequest (slave address count : Int) : Except Fault Bytes := do
  integer slave "slave" 1 247
  integer address "address" 0 65535
  integer count "count" 1 125
  if address + count > 65536 then .error (.feedback "register range overflow")
  else .ok (withCrc (readPayload (.ofInt 8 slave) (.ofInt 16 address) (.ofInt 16 count)))

/-- `struct.unpack('>HH..', payload)`; a single left-over byte is not a register. -/
def unpackWords : Bytes → List Word
  | high :: low :: rest => word high low :: unpackWords rest
  | _ => []

def functionCode (frame : Bytes) : Byte := frame.getD 1 0

def addressOf (request : Bytes) : Word := word (request.getD 2 0) (request.getD 3 0)

def countOf (request : Bytes) : Word := word (request.getD 4 0) (request.getD 5 0)

/-- The registers of a reply matched to its FC03 request; the source also returns the slave and the
address, which are bytes of the request. -/
def parseExchange (request response : Bytes) : Except Fault (List Word) := do
  let request ← checkedFrame request
  let response ← checkedFrame response
  let slave := request.getD 0 0
  if request.length ≠ 8 ∨ functionCode request ≠ 3 ∨ ¬(1 ≤ slave.toNat ∧ slave.toNat ≤ 247) then
    .error (.feedback "only unicast FC03 read requests are accepted")
  let count := (countOf request).toNat
  let expected ← readRequest slave.toNat (addressOf request).toNat count
  if request ≠ expected then .error (.feedback "invalid FC03 request")
  if response.getD 0 0 ≠ slave then .error (.feedback "response slave mismatch")
  if functionCode response = 0x83 then
    .error (.feedback s!"Modbus read exception {(response.getD 2 0).toNat}")
  if functionCode response ≠ 3 ∨ (response.getD 2 0).toNat ≠ count * 2 ∨
      response.length ≠ 5 + count * 2 then
    .error (.feedback "response function/byte count mismatch")
  .ok (unpackWords ((response.drop 3).take (count * 2)))

def query : Bytes := withCrc (readPayload 1 0x20AB 2)

def speedWrite (left right : Word) : Bytes :=
  withCrc ([1, 0x10, 0x20, 0x88, 0, 2, 4] ++ bigEndian left ++ bigEndian right)

def zeroRequest : Bytes := speedWrite 0 0

def signed (w : Word) : Int := w.toInt

theorem readRequest_query : readRequest 1 0x20AB 2 = .ok query := by decide +kernel

example : checkedFrame query = .ok query := by decide +kernel

theorem withCrc_length (payload : Bytes) : (withCrc payload).length = payload.length + 2 := by
  simp [withCrc, crc16]

theorem checkedFrame_withCrc (payload : Bytes) (h3 : 3 ≤ payload.length) (h254 : payload.length ≤ 254) :
    checkedFrame (withCrc payload) = .ok (withCrc payload) := by
  have hl := withCrc_length payload
  have ht : (withCrc payload).take ((withCrc payload).length - 2) = payload := by
    rw [hl]; simp [withCrc]
  have hd : (withCrc payload).drop ((withCrc payload).length - 2) = crc16 payload := by
    rw [hl]; simp [withCrc]
  rw [checkedFrame, if_pos ⟨by omega, by omega, by rw [ht, hd]⟩]

theorem checkedFrame_eq_ok {frame checked : Bytes} (h : checkedFrame frame = .ok checked) :
    checked = frame := by
  unfold checkedFrame at h
  split at h
  · exact (Except.ok.inj h).symm
  · cases h

end Modbus
end Smartwheel
