import Mathlib.Data.Finset.Insert
import Mathlib.Data.Rat.Defs

/-! The byte stream of the H30: header, TID, length, TLVs and a two-byte additive checksum. Floats are rationals. -/
namespace Smartwheel.Imu

abbrev Byte := BitVec 8
abbrev Bytes := List Byte

/-- `HEADER`. -/
def syncA : Byte := 0x59
def syncB : Byte := 0x53

def maxPacket : ℕ := 262

/-- `_LENGTHS`. -/
def lengths : List (Byte × ℕ) :=
  [(0x01, 2), (0x10, 12), (0x20, 12), (0x30, 12), (0x31, 12), (0x40, 12),
   (0x41, 16), (0x50, 11), (0x51, 4), (0x52, 4), (0x68, 20), (0x70, 12), (0x80, 1)]

def h30Checksum (data : Bytes) : Bytes :=
  let sums := data.foldl (fun (ck : Byte × Byte) value => (ck.1 + value, ck.2 + (ck.1 + value))) (0, 0)
  [sums.1, sums.2]

inductive Reading where
  | int (value : ℤ)
  | ints (values : List ℤ)
  | real (value : ℚ)
  | reals (values : List ℚ)
deriving DecidableEq

structure H30Frame where
  tid : ℕ
  rawPacket : Bytes
  rawTlvs : List (Byte × Bytes)
  fields : List (String × Reading)
  presentIds : Finset Byte
deriving DecidableEq

/-- `struct.unpack('<H')` and `'<I'`. -/
def unpackUnsigned : Bytes → ℕ
  | [] => 0
  | b :: rest => b.toNat + 256 * unpackUnsigned rest

/-- `struct.unpack('<h')` and `'<i'`. -/
def unpackSigned (value : Bytes) : ℤ := (BitVec.ofNat (8 * value.length) (unpackUnsigned value)).toInt

/-- `struct.unpack('<iii')` and `'<iiii'`. -/
def unpackInts : Bytes → List ℤ
  | a :: b :: c :: d :: rest => unpackSigned [a, b, c, d] :: unpackInts rest
  | _ => []

def scaledFields (pi : ℚ) : List (Byte × String × ℚ) :=
  [(0x10, "acceleration_m_s2", 1/10^6), (0x20, "angular_velocity_rad_s", 1/10^6 * pi / 180),
   (0x30, "magnetic_normalized", 1/10^6), (0x31, "magnetic_mgauss", 1/10^3),
   (0x40, "euler_pitch_roll_yaw_rad", 1/10^6 * pi / 180), (0x70, "velocity_enu_m_s", 1/10^3)]

def fieldsOf (pi : ℚ) (fieldId : Byte) (value : Bytes) : List (String × Reading) :=
  if fieldId = 0x01 then
    [("temperature_raw", .int (unpackSigned value)), ("temperature_c", .real (unpackSigned value * (1/100)))]
  else if fieldId = 0x41 then
    let raw := unpackInts value
    [("orientation_wxyz_raw", .ints raw),
     ("orientation_xyzw", .reals ([1, 2, 3, 0].map fun i => (raw.getD i 0 : ℚ) * (1/10^6)))]
  else if fieldId = 0x51 then [("sample_timestamp_raw", .int (unpackUnsigned value))]
  else if fieldId = 0x52 then [("dataready_timestamp_raw", .int (unpackUnsigned value))]
  else match (scaledFields pi).lookup fieldId with
    | some (name, scale) =>
      [(name ++ "_raw", .ints (unpackInts value)), (name, .reals ((unpackInts value).map fun v => (v : ℚ) * scale))]
    | none => []

/-- `fields.update(new)`. -/
def update (fields new : List (String × Reading)) : List (String × Reading) :=
  fields.filter (fun old => old.1 ∉ new.map Prod.fst) ++ new

/-- The variables of the loop of `_decode_packet`. -/
structure Decoding where
  tlvs : List (Byte × Bytes)
  seen : Finset Byte
  fields : List (String × Reading)

def Decoding.add (pi : ℚ) (state : Decoding) (fieldId : Byte) (value : Bytes) : Decoding where
  tlvs := state.tlvs ++ [(fieldId, value)]
  seen := insert fieldId state.seen
  fields := update state.fields (fieldsOf pi fieldId value)

def decodeFrom (pi : ℚ) (payload : Bytes) (state : Decoding) : Except String Decoding :=
  match payload with
  | [] => .ok state
  | [_] => .error "truncated TLV header"
  | fieldId :: length :: rest =>
    if length.toNat > rest.length then .error "TLV extends beyond payload"
    else if fieldId ∈ state.seen then .error "duplicate TLV id"
    else if ∃ known ∈ lengths.lookup fieldId, length.toNat ≠ known then .error "known TLV has incorrect length"
    else decodeFrom pi (rest.drop length.toNat) (state.add pi fieldId (rest.take length.toNat))
termination_by payload.length
decreasing_by simp only [List.length_drop, List.length_cons]; omega

/-- `packet[:-2]` and `packet[-2:]`. -/
def covered (packet : Bytes) : Bytes := packet.take (packet.length - 2)
def trailer (packet : Bytes) : Bytes := packet.drop (packet.length - 2)

def decodePacket (pi : ℚ) (packet : Bytes) : Except String H30Frame := do
  let state ← decodeFrom pi ((covered packet).drop 5) ⟨[], ∅, []⟩
  .ok ⟨unpackUnsigned ((packet.drop 2).take 2), packet, state.tlvs, state.fields, state.seen⟩

structure Stats where
  frames : ℕ
  checksumErrors : ℕ
  malformedTlv : ℕ
  discardedBytes : ℕ
  resets : ℕ
deriving DecidableEq

structure H30Parser where
  buffer : Bytes
  stats : Stats
deriving DecidableEq

namespace H30Parser

def fresh : H30Parser := ⟨[], ⟨0, 0, 0, 0, 0⟩⟩

def reset (p : H30Parser) : H30Parser :=
  ⟨[], { p.stats with discardedBytes := p.stats.discardedBytes + p.buffer.length, resets := p.stats.resets + 1 }⟩

def extend (p : H30Parser) (slice : Bytes) : H30Parser := { p with buffer := p.buffer ++ slice }

def discard (p : H30Parser) (count : ℕ) : H30Parser :=
  ⟨p.buffer.drop count, { p.stats with discardedBytes := p.stats.discardedBytes + count }⟩

def checksumError (p : H30Parser) : H30Parser := { p with stats.checksumErrors := p.stats.checksumErrors + 1 }
def malformed (p : H30Parser) : H30Parser := { p with stats.malformedTlv := p.stats.malformedTlv + 1 }

def accept (p : H30Parser) (count : ℕ) : H30Parser :=
  ⟨p.buffer.drop count, { p.stats with frames := p.stats.frames + 1 }⟩

end H30Parser

/-- `bytearray.find(HEADER)`. -/
def findHeader : Bytes → Option ℕ
  | a :: b :: rest => if a = syncA ∧ b = syncB then some 0 else (findHeader (b :: rest)).map (· + 1)
  | _ => none

/-- How a round of the loop of `_drain` ends. -/
inductive Round where
  | stop (p : H30Parser)
  | again (p : H30Parser) (frame : Option H30Frame)

def packetLength (buffer : Bytes) : ℕ := (buffer.getD 4 0).toNat + 7

def candidate (pi : ℚ) (p : H30Parser) : Round :=
  if p.buffer.length < 5 then .stop p
  else if p.buffer.length < packetLength p.buffer then .stop p
  else
    let packet := p.buffer.take (packetLength p.buffer)
    if h30Checksum ((covered packet).drop 2) ≠ trailer packet then .again (p.checksumError.discard 1) none
    else match decodePacket pi packet with
      | .error _ => .again (p.malformed.discard (packetLength p.buffer)) none
      | .ok frame => .again (p.accept (packetLength p.buffer)) (some frame)

def round (pi : ℚ) (p : H30Parser) : Round :=
  match findHeader p.buffer with
  | none => .stop (p.discard (p.buffer.length - if p.buffer.getLast? = some syncA then 1 else 0))
  | some start => candidate pi (p.discard start)

theorem candidate_shorter {pi : ℚ} {p q : H30Parser} {frame : Option H30Frame} (h : candidate pi p = .again q frame) :
    q.buffer.length < p.buffer.length := by
  unfold candidate at h
  split at h
  · cases h
  · rename_i short
    have long : 0 < p.buffer.length := by omega
    have positive : 0 < packetLength p.buffer := by unfold packetLength; omega
    split at h
    · cases h
    · dsimp only at h
      split at h
      · cases h
        simp only [H30Parser.discard, H30Parser.checksumError, List.length_drop]
        omega
      · split at h <;> cases h <;>
          simp only [H30Parser.discard, H30Parser.malformed, H30Parser.accept, List.length_drop] <;> omega

theorem round_shorter {pi : ℚ} {p q : H30Parser} {frame : Option H30Frame} (h : round pi p = .again q frame) :
    q.buffer.length < p.buffer.length := by
  unfold round at h
  split at h
  · cases h
  · have shorter := candidate_shorter h
    simp only [H30Parser.discard, List.length_drop] at shorter
    omega

/-- `_drain`: the parser after it and the frames it appends. -/
def drain (pi : ℚ) (p : H30Parser) : H30Parser × List H30Frame :=
  if p.buffer = [] then (p, [])
  else match _h : round pi p with
    | .stop q => (q, [])
    | .again q frame => ((drain pi q).1, frame.toList ++ (drain pi q).2)
termination_by p.buffer.length
decreasing_by all_goals exact round_shorter _h

/-- `incoming[start:start + MAX_PACKET]` for the starts of the loop. -/
def slices (incoming : Bytes) : List Bytes :=
  (List.range ((incoming.length + (maxPacket - 1)) / maxPacket)).map fun k =>
    (incoming.drop (maxPacket * k)).take maxPacket

/-- The loop of `feed`. -/
def feedSlices (pi : ℚ) (p : H30Parser) : List Bytes → H30Parser × List H30Frame
  | [] => (p, [])
  | slice :: rest =>
    let first := drain pi (p.extend slice)
    let later := feedSlices pi first.1 rest
    (later.1, first.2 ++ later.2)

def feed (pi : ℚ) (p : H30Parser) (data : Bytes) : H30Parser × List H30Frame := feedSlices pi p (slices data)

/-- Calls of `feed`, one after the other, and the frames of all of them. -/
def feedAll (pi : ℚ) (p : H30Parser) : List Bytes → H30Parser × List H30Frame
  | [] => (p, [])
  | data :: rest =>
    let first := feed pi p data
    let later := feedAll pi first.1 rest
    (later.1, first.2 ++ later.2)

end Smartwheel.Imu
