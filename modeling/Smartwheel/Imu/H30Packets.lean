import Mathlib.Algebra.BigOperators.Group.List.Lemmas
import Mathlib.Algebra.GroupWithZero.Nat
import Smartwheel.Imu.H30Run

/-! Laws of the stream: every cut of it gives the same frames and the same statistics, no byte is lost, the buffer stays
below a packet, and packets sent one after the other come back as they were sent. -/
namespace Smartwheel.Imu
open Scan.Scanner

variable {pi : ℚ} {p q r : H30Parser} {data data' : Bytes} {frames frames' : List H30Frame}

/-- `data` came in, and the parser is done with it. -/
structure Fed (pi : ℚ) (p : H30Parser) (data : Bytes) (q : H30Parser) (frames : List H30Frame) : Prop where
  follows : Follows pi (p.extend data) q frames
  idle : data = [] → q = p
  settled : data ≠ [] → (scanner pi).Settled q.buffer

theorem Fed.nil : Fed pi p [] p [] where
  follows := ⟨[], by simpa [H30Parser.extend] using Takes.done p.buffer, rfl, rfl⟩
  idle _ := rfl
  settled some_ := absurd rfl some_

theorem Fed.trans (first : Fed pi p data q frames) (second : Fed pi q data' r frames') :
    Fed pi p (data ++ data') r (frames ++ frames') where
  follows := by
    obtain ⟨found, takes, stats, rfl⟩ := first.follows
    obtain ⟨found', takes', stats', rfl⟩ := second.follows
    refine ⟨found ++ found', ?_, ?_, by simp [framesOf]⟩
    · have whole := takes.pieces takes'
      rw [H30Parser.extend, List.append_assoc] at whole
      exact whole
    · rw [stats', List.foldl_append]
      exact congrArg (fun s => found'.foldl Stats.record s) stats
  idle empty := by
    obtain ⟨first_, second_⟩ := List.append_eq_nil_iff.mp empty
    rw [second.idle second_, first.idle first_]
  settled some_ := by
    by_cases last : data' = []
    · rw [second.idle last]
      exact first.settled fun empty => some_ (by rw [empty, last]; rfl)
    · exact second.settled last

theorem Fed.unique (h : Fed pi p data q frames) (h' : Fed pi p data r frames') : q = r ∧ frames = frames' := by
  obtain ⟨found, takes, stats, rfl⟩ := h.follows
  obtain ⟨found', takes', stats', rfl⟩ := h'.follows
  by_cases empty : data = []
  · obtain rfl := h.idle empty
    obtain rfl := h'.idle empty
    subst empty
    have nothing : ∀ {found : List (Bytes × Finding)}, (scanner pi).Takes (r.extend []).buffer found r.buffer → found = [] := by
      intro found takes
      have same : (r.extend []).buffer = r.buffer := List.append_nil _
      rw [same] at takes
      cases takes with
      | done => rfl
      | take looks later =>
        have kept := later.conserved
        have shorter := congrArg List.length kept
        have taken := (scanner pi).advances looks
        simp only [List.length_drop, List.length_append] at shorter
        omega
    exact ⟨rfl, by rw [nothing takes, nothing takes']⟩
  · obtain ⟨rfl, same⟩ := takes.unique (h.settled empty) takes' (h'.settled empty)
    refine ⟨?_, rfl⟩
    cases q
    cases r
    simp_all

theorem drain_fed (pi : ℚ) (p : H30Parser) (slice : Bytes) :
    Fed pi p slice (drain pi (p.extend slice)).1 (drain pi (p.extend slice)).2 ∨ slice = [] := by
  by_cases empty : slice = []
  · exact .inr empty
  · exact .inl ⟨(drain_follows _).1, fun none_ => absurd none_ empty, fun _ => (drain_follows _).2⟩

theorem feedSlices_fed (pi : ℚ) (slices : List Bytes) (nonempty : ∀ slice ∈ slices, slice ≠ []) (p : H30Parser) :
    Fed pi p slices.flatten (feedSlices pi p slices).1 (feedSlices pi p slices).2 := by
  induction slices generalizing p with
  | nil => exact .nil
  | cons slice rest ih =>
    have first := (drain_fed pi p slice).resolve_right (nonempty slice List.mem_cons_self)
    exact first.trans (ih (fun other there => nonempty other (List.mem_cons_of_mem _ there)) _)

theorem flatten_slices (data : Bytes) (size count : ℕ) :
    ((List.range count).map fun k => (data.drop (size * k)).take size).flatten = data.take (size * count) := by
  induction count with
  | zero => simp
  | succ count ih =>
    rw [List.range_succ, List.map_append, List.flatten_append, ih, Nat.mul_succ, List.take_add]
    simp

theorem slices_flatten (data : Bytes) : (slices data).flatten = data := by
  unfold slices
  rw [flatten_slices, List.take_of_length_le]
  unfold maxPacket
  omega

theorem slices_nonempty (data : Bytes) : ∀ slice ∈ slices data, slice ≠ [] := by
  intro slice there
  obtain ⟨k, below, rfl⟩ := List.mem_map.mp there
  rw [List.mem_range] at below
  have inside : maxPacket * k < data.length := by
    unfold maxPacket at below ⊢
    omega
  intro empty
  have none_ := congrArg List.length empty
  simp only [List.length_take, List.length_drop, List.length_nil, maxPacket] at none_ inside
  omega

theorem feed_fed (pi : ℚ) (p : H30Parser) (data : Bytes) : Fed pi p data (feed pi p data).1 (feed pi p data).2 := by
  have fed := feedSlices_fed pi (slices data) (slices_nonempty data) p
  rw [slices_flatten] at fed
  exact fed

theorem feedAll_fed (pi : ℚ) (pieces : List Bytes) (p : H30Parser) :
    Fed pi p pieces.flatten (feedAll pi p pieces).1 (feedAll pi p pieces).2 := by
  induction pieces generalizing p with
  | nil => exact .nil
  | cons data rest ih => exact (feed_fed pi p data).trans (ih _)

/-! Conservation and the bound. -/

def frameBytes (frames : List H30Frame) : ℕ := (frames.map fun f => f.rawPacket.length).sum

def Whole (piece : Bytes × Finding) : Prop := ∀ f, piece.2 = .frame f → f.rawPacket = piece.1

theorem verdict_whole {packet : Bytes} {count : ℕ} {f : H30Frame} (judged : verdict pi packet = (count, .frame f)) :
    count = packet.length ∧ decodePacket pi packet = .ok f := by
  unfold verdict at judged
  split at judged
  · cases judged
  · split at judged
    · cases judged
    · rename_i reads
      cases judged
      exact ⟨rfl, reads⟩

theorem look_whole {held : Bytes} {count : ℕ} {x : Finding} (looks : look pi held = some (count, x)) :
    Whole (held.take count, x) := by
  rintro f rfl
  have packet : lookPacket pi held = some (count, .frame f) := by
    match held with
    | [] => cases looks
    | [a] => by_cases sync : a = syncA <;> simp [look, sync] at looks
    | a :: b :: rest =>
      by_cases sync : a = syncA ∧ b = syncB
      · rw [look, if_pos sync] at looks
        exact looks
      · simp [look, sync] at looks
  unfold lookPacket at packet
  split at packet
  · cases packet
  · rename_i long
    obtain ⟨size, reads⟩ := verdict_whole (Option.some.inj packet)
    obtain ⟨tlvs, -, -, rfl⟩ := decodePacket_eq_ok_iff.mp reads
    rw [not_or, not_lt, not_lt] at long
    rw [List.length_take, Nat.min_eq_left long.2] at size
    rw [size]
    rfl

theorem takes_whole {held rest : Bytes} {found : List (Bytes × Finding)} (takes : (scanner pi).Takes held found rest) :
    ∀ piece ∈ found, Whole piece := by
  induction takes with
  | done => simp
  | take looks _ ih =>
    intro piece there
    rcases List.mem_cons.mp there with rfl | later
    · exact look_whole looks
    · exact ih piece later

theorem record_bytes (found : List (Bytes × Finding)) (whole : ∀ piece ∈ found, Whole piece) (s : Stats) :
    s.discardedBytes + (found.map Prod.fst).flatten.length =
      frameBytes (framesOf found) + (found.foldl Stats.record s).discardedBytes := by
  induction found generalizing s with
  | nil => simp [framesOf, frameBytes]
  | cons piece rest ih =>
    have later := ih (fun other there => whole other (List.mem_cons_of_mem _ there)) (s.record piece)
    have here := whole piece List.mem_cons_self
    obtain ⟨bytes, finding⟩ := piece
    simp only [List.map_cons, List.flatten_cons, List.length_append, List.foldl_cons]
    cases finding with
    | frame f =>
      have same := here f rfl
      simp only [framesOf, frameBytes, List.filterMap_cons, Finding.toFrame, List.map_cons, List.sum_cons, same] at later ⊢
      simp only [Stats.record] at later ⊢
      omega
    | noise | checksumError | malformed =>
      simp only [framesOf, frameBytes, List.filterMap_cons, Finding.toFrame] at later ⊢
      simp only [Stats.record] at later ⊢
      omega

theorem Fed.bytes (h : Fed pi p data q frames) : p.buffer.length + data.length + p.stats.discardedBytes =
    frameBytes frames + q.stats.discardedBytes + q.buffer.length := by
  obtain ⟨found, takes, stats, rfl⟩ := h.follows
  have all := congrArg List.length takes.conserved
  have counted := record_bytes found (takes_whole takes) p.stats
  have same : (p.extend data).stats = p.stats := rfl
  rw [same] at stats
  rw [stats]
  simp only [H30Parser.extend, List.length_append] at all
  omega

theorem settled_short {held : Bytes} (settled : (scanner pi).Settled held) : held.length ≤ 261 := by
  have waits : look pi held = none := settled
  match held with
  | [] => simp
  | [a] => simp
  | a :: b :: rest =>
    by_cases sync : a = syncA ∧ b = syncB
    · rw [look, if_pos sync, lookPacket] at waits
      split at waits
      · rename_i short
        have largest : packetLength (a :: b :: rest) ≤ 262 := by
          have byte := ((a :: b :: rest).getD 4 0).isLt
          unfold packetLength
          omega
        omega
      · cases waits
    · simp [look, sync] at waits

theorem Fed.short (h : Fed pi p data q frames) (short : p.buffer.length ≤ 261) : q.buffer.length ≤ 261 := by
  by_cases empty : data = []
  · rw [h.idle empty]
    exact short
  · exact settled_short (h.settled empty)

end Smartwheel.Imu

/-! ### Packets as they are sent, and the laws of the stream put together. -/
namespace Smartwheel.Imu
open Scan.Scanner

structure Packet where
  low : Byte
  high : Byte
  tlvs : List Tlv
  admissible : Admissible tlvs
  fits : (encodeTlvs tlvs).length < 256

namespace Packet

def body (k : Packet) : Bytes := k.low :: k.high :: BitVec.ofNat 8 (encodeTlvs k.tlvs).length :: encodeTlvs k.tlvs

def encode (k : Packet) : Bytes := syncA :: syncB :: (k.body ++ h30Checksum k.body)

def frame (pi : ℚ) (k : Packet) : H30Frame := frameOf pi k.encode k.tlvs

variable {pi : ℚ} (k : Packet)

theorem encode_length : k.encode.length = (encodeTlvs k.tlvs).length + 7 := by
  simp [encode, body, h30Checksum]

theorem encode_split : k.encode = (syncA :: syncB :: k.body) ++ h30Checksum k.body := rfl

theorem covered_encode : covered k.encode = syncA :: syncB :: k.body := by
  have size : k.encode.length - 2 = (syncA :: syncB :: k.body).length := by
    rw [encode_length]
    simp [body]
  rw [covered, size, encode_split, List.take_left]

theorem trailer_encode : trailer k.encode = h30Checksum k.body := by
  have size : k.encode.length - 2 = (syncA :: syncB :: k.body).length := by
    rw [encode_length]
    simp [body]
  rw [trailer, size, encode_split, List.drop_left]

theorem decode_encode : decodePacket pi k.encode = .ok (k.frame pi) := by
  refine decodePacket_eq_ok_iff.mpr ⟨k.tlvs, ?_, k.admissible, rfl⟩
  rw [covered_encode]
  rfl

theorem packetLength_encode (more : Bytes) : packetLength (k.encode ++ more) = k.encode.length := by
  have small := k.fits
  rw [encode_length]
  simp [packetLength, encode, body, Nat.mod_eq_of_lt small]

theorem look_encode (more : Bytes) : look pi (k.encode ++ more) = some (k.encode.length, .frame (k.frame pi)) := by
  have header : look pi (k.encode ++ more) = lookPacket pi (k.encode ++ more) := by
    rw [encode, List.cons_append, List.cons_append, look, if_pos ⟨rfl, rfl⟩]
  have long : ¬ ((k.encode ++ more).length < 5 ∨ (k.encode ++ more).length < packetLength (k.encode ++ more)) := by
    rw [packetLength_encode, List.length_append, encode_length]
    omega
  have sums : ¬ h30Checksum ((covered k.encode).drop 2) ≠ trailer k.encode := by
    rw [covered_encode, trailer_encode]
    simp
  rw [header, lookPacket, if_neg long, packetLength_encode, List.take_left, verdict, if_neg sums, decode_encode]

end Packet

variable {pi : ℚ}

theorem packets_taken (packets : List Packet) : (scanner pi).Takes (packets.flatMap Packet.encode)
    (packets.map fun k => (k.encode, .frame (k.frame pi))) [] := by
  induction packets with
  | nil => exact .done []
  | cons k rest ih =>
    have looks : (scanner pi).look (k.encode ++ rest.flatMap Packet.encode) =
      some (k.encode.length, .frame (k.frame pi)) := k.look_encode _
    have first := Takes.one looks
    rw [List.take_left, List.drop_left] at first
    exact first.trans ih

theorem packets_counted (packets : List Packet) (s : Stats) :
    (packets.map fun k => (k.encode, Finding.frame (k.frame pi))).foldl Stats.record s =
      { s with frames := s.frames + packets.length } := by
  induction packets generalizing s with
  | nil => rfl
  | cons k rest ih =>
    rw [List.map_cons, List.foldl_cons, ih, List.length_cons]
    simp only [Stats.record]
    congr 1
    omega

theorem packets_frames (packets : List Packet) :
    framesOf (packets.map fun k => (k.encode, Finding.frame (k.frame pi))) = packets.map (Packet.frame pi) := by
  induction packets with
  | nil => rfl
  | cons k rest ih =>
    simp only [List.map_cons, framesOf, List.filterMap_cons, Finding.toFrame] at ih ⊢
    rw [ih]

theorem feed_packets {p : H30Parser} (empty : p.buffer = []) (packets : List Packet) :
    feed pi p (packets.flatMap Packet.encode) =
      ({ p with stats.frames := p.stats.frames + packets.length }, packets.map (Packet.frame pi)) := by
  have fed := feed_fed pi p (packets.flatMap Packet.encode)
  have sent : Fed pi p (packets.flatMap Packet.encode) { p with stats.frames := p.stats.frames + packets.length }
      (packets.map (Packet.frame pi)) := by
    refine ⟨⟨_, ?_, (packets_counted packets p.stats).symm, (packets_frames packets).symm⟩, fun none_ => ?_, fun _ => ?_⟩
    · have whole : (p.extend (packets.flatMap Packet.encode)).buffer = packets.flatMap Packet.encode := by
        rw [H30Parser.extend, empty, List.nil_append]
      rw [whole, empty]
      exact packets_taken packets
    · cases packets with
      | nil => rfl
      | cons k rest => simp [Packet.encode] at none_
    · show look pi p.buffer = none
      rw [empty, look]
  obtain ⟨same, frames⟩ := fed.unique sent
  exact Prod.ext same frames

/-! Runs of the parser. -/

inductive Call where
  | feed (data : Bytes)
  | reset

def Call.bytes : Call → ℕ
  | .feed data => data.length
  | .reset => 0

def call (pi : ℚ) (p : H30Parser) : Call → H30Parser × List H30Frame
  | .feed data => feed pi p data
  | .reset => (p.reset, [])

def runCalls (pi : ℚ) (p : H30Parser) : List Call → H30Parser × List H30Frame
  | [] => (p, [])
  | c :: rest =>
    let first := call pi p c
    let later := runCalls pi first.1 rest
    (later.1, first.2 ++ later.2)

theorem call_bytes (pi : ℚ) (p : H30Parser) (c : Call) : p.buffer.length + c.bytes + p.stats.discardedBytes =
    frameBytes (call pi p c).2 + (call pi p c).1.stats.discardedBytes + (call pi p c).1.buffer.length := by
  cases c with
  | feed data => exact (feed_fed pi p data).bytes
  | reset => simp [Call.bytes, call, H30Parser.reset, frameBytes]; omega

theorem call_short (pi : ℚ) (p : H30Parser) (c : Call) (short : p.buffer.length ≤ 261) :
    (call pi p c).1.buffer.length ≤ 261 := by
  cases c with
  | feed data => exact (feed_fed pi p data).short short
  | reset => simp [call, H30Parser.reset]

theorem frameBytes_append (frames frames' : List H30Frame) :
    frameBytes (frames ++ frames') = frameBytes frames + frameBytes frames' := by
  simp [frameBytes]

theorem runCalls_bytes (pi : ℚ) (calls : List Call) (p : H30Parser) (short : p.buffer.length ≤ 261) :
    p.buffer.length + (calls.map Call.bytes).sum + p.stats.discardedBytes =
        frameBytes (runCalls pi p calls).2 + (runCalls pi p calls).1.stats.discardedBytes +
          (runCalls pi p calls).1.buffer.length ∧
      (runCalls pi p calls).1.buffer.length ≤ 261 := by
  induction calls generalizing p with
  | nil => exact ⟨by simp [runCalls, frameBytes]; omega, short⟩
  | cons c rest ih =>
    have here := call_bytes pi p c
    obtain ⟨later, bound⟩ := ih (call pi p c).1 (call_short pi p c short)
    refine ⟨?_, bound⟩
    simp only [runCalls, List.map_cons, List.sum_cons, frameBytes_append]
    omega

/-- How the stream is cut changes neither the frames nor the parser; all bytes are in frames, discarded or in the
buffer, which stays below a packet; packets sent one after the other come back; and a payload is accepted if and only
if it encodes TLVs with distinct ids and the known lengths, which are those of the frame. -/
theorem h30_stream_laws (pi : ℚ) :
    (∀ p pieces pieces', pieces.flatten = pieces'.flatten → feedAll pi p pieces = feedAll pi p pieces') ∧
    (∀ calls, (calls.map Call.bytes).sum = frameBytes (runCalls pi .fresh calls).2 +
        (runCalls pi .fresh calls).1.stats.discardedBytes + (runCalls pi .fresh calls).1.buffer.length ∧
      (runCalls pi .fresh calls).1.buffer.length ≤ 261) ∧
    (∀ (p : H30Parser) (packets : List Packet), p.buffer = [] → feed pi p (packets.flatMap Packet.encode) =
      ({ p with stats.frames := p.stats.frames + packets.length }, packets.map (Packet.frame pi))) ∧
    ∀ packet tlvs, (∃ frame, decodePacket pi packet = .ok frame ∧ frame.rawTlvs = tlvs) ↔
      (covered packet).drop 5 = encodeTlvs tlvs ∧ Admissible tlvs := by
  refine ⟨fun p pieces pieces' same => ?_, fun calls => ?_, fun p packets empty => feed_packets empty packets, ?_⟩
  · have first := feedAll_fed pi pieces p
    have second := feedAll_fed pi pieces' p
    rw [same] at first
    obtain ⟨parser, frames⟩ := first.unique second
    exact Prod.ext parser frames
  · simpa [H30Parser.fresh] using runCalls_bytes pi calls .fresh (by simp [H30Parser.fresh])
  · intro packet tlvs
    constructor
    · rintro ⟨frame, decoded, rfl⟩
      obtain ⟨tlvs, split, admissible, rfl⟩ := decodePacket_eq_ok_iff.mp decoded
      exact ⟨split, admissible⟩
    · rintro ⟨split, admissible⟩
      exact ⟨_, decodePacket_eq_ok_iff.mpr ⟨tlvs, split, admissible, rfl⟩, rfl⟩

end Smartwheel.Imu
