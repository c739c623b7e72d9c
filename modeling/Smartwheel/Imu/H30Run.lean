import Smartwheel.Imu.H30
import Smartwheel.Scan.Scanner

/-! What `_decode_packet` accepts: lists of TLVs with distinct ids and the known lengths, each list in one encoding. -/
namespace Smartwheel.Imu

abbrev Tlv := Byte × Bytes

def encodeTlv (tlv : Tlv) : Bytes := tlv.1 :: BitVec.ofNat 8 tlv.2.length :: tlv.2

def encodeTlvs (tlvs : List Tlv) : Bytes := tlvs.flatMap encodeTlv

structure Admissible (tlvs : List Tlv) : Prop where
  distinct : (tlvs.map Prod.fst).Nodup
  short : ∀ tlv ∈ tlvs, tlv.2.length < 256
  known : ∀ tlv ∈ tlvs, ∀ length ∈ lengths.lookup tlv.1, tlv.2.length = length

def Decoding.addAll (pi : ℚ) (state : Decoding) (tlvs : List Tlv) : Decoding :=
  tlvs.foldl (fun state tlv => state.add pi tlv.1 tlv.2) state

variable {pi : ℚ} {state final : Decoding} {tlvs : List Tlv}

theorem addAll_tlvs : (state.addAll pi tlvs).tlvs = state.tlvs ++ tlvs := by
  induction tlvs generalizing state with
  | nil => simp [Decoding.addAll]
  | cons tlv rest ih =>
    have later := @ih (state.add pi tlv.1 tlv.2)
    simp only [Decoding.addAll, List.foldl_cons] at later ⊢
    rw [later]
    simp [Decoding.add]

theorem Admissible.tail {tlv : Tlv} {rest : List Tlv} (h : Admissible (tlv :: rest)) : Admissible rest where
  distinct := (List.nodup_cons.mp h.distinct).2
  short other there := h.short other (List.mem_cons_of_mem _ there)
  known other there := h.known other (List.mem_cons_of_mem _ there)

theorem decodeFrom_cons (fieldId length : Byte) (rest : Bytes) (state : Decoding) :
    decodeFrom pi (fieldId :: length :: rest) state =
      if length.toNat > rest.length then .error "TLV extends beyond payload"
      else if fieldId ∈ state.seen then .error "duplicate TLV id"
      else if ∃ known ∈ lengths.lookup fieldId, length.toNat ≠ known then .error "known TLV has incorrect length"
      else decodeFrom pi (rest.drop length.toNat) (state.add pi fieldId (rest.take length.toNat)) := by
  rw [decodeFrom]

theorem decodeFrom_encode (admissible : Admissible tlvs) (new : ∀ tlv ∈ tlvs, tlv.1 ∉ state.seen) :
    decodeFrom pi (encodeTlvs tlvs) state = .ok (state.addAll pi tlvs) := by
  induction tlvs generalizing state with
  | nil => simp [encodeTlvs, decodeFrom, Decoding.addAll]
  | cons tlv rest ih =>
    have short : (BitVec.ofNat 8 tlv.2.length).toNat = tlv.2.length := by
      have small := admissible.short tlv List.mem_cons_self
      simpa using small
    have known : ¬ ∃ length ∈ lengths.lookup tlv.1, tlv.2.length ≠ length := by
      rintro ⟨length, there, differs⟩
      exact differs (admissible.known tlv List.mem_cons_self length there)
    have others : ∀ other ∈ rest, other.1 ∉ (state.add pi tlv.1 tlv.2).seen := by
      intro other there
      have differs : other.1 ≠ tlv.1 := by
        intro same
        exact (List.nodup_cons.mp admissible.distinct).1 (same ▸ List.mem_map_of_mem there)
      simp [Decoding.add, differs, new other (List.mem_cons_of_mem _ there)]
    have whole : encodeTlvs (tlv :: rest) = tlv.1 :: BitVec.ofNat 8 tlv.2.length :: (tlv.2 ++ encodeTlvs rest) := rfl
    have fits : ¬ tlv.2.length > (tlv.2 ++ encodeTlvs rest).length := by simp
    rw [whole, decodeFrom_cons, short, if_neg fits, if_neg (new tlv List.mem_cons_self), if_neg known,
      List.drop_left, List.take_left]
    exact ih admissible.tail others

theorem decodeFrom_eq_ok (payload : Bytes) {state : Decoding} (decoded : decodeFrom pi payload state = .ok final) :
    ∃ tlvs, payload = encodeTlvs tlvs ∧ Admissible tlvs ∧ (∀ tlv ∈ tlvs, tlv.1 ∉ state.seen) ∧
      final = state.addAll pi tlvs := by
  fun_induction decodeFrom pi payload state with
  | case1 state =>
    cases decoded
    exact ⟨[], rfl, ⟨List.nodup_nil, by simp, by simp⟩, by simp, rfl⟩
  | case2 | case3 | case4 | case5 => cases decoded
  | case6 state fieldId length rest fits fresh known ih =>
    obtain ⟨tlvs, split, admissible, new, rfl⟩ := ih decoded
    have size : (rest.take length.toNat).length = length.toNat := by
      rw [List.length_take]
      omega
    have whole : fieldId :: length :: rest = encodeTlvs ((fieldId, rest.take length.toNat) :: tlvs) := by
      have body : rest.take length.toNat ++ encodeTlvs tlvs = rest := by
        rw [← split, List.take_append_drop]
      have front : encodeTlvs ((fieldId, rest.take length.toNat) :: tlvs) =
          fieldId :: BitVec.ofNat 8 (rest.take length.toNat).length :: (rest.take length.toNat ++ encodeTlvs tlvs) := rfl
      rw [front, body, size, BitVec.ofNat_toNat, BitVec.setWidth_eq]
    have apart : ∀ tlv ∈ tlvs, tlv.1 ≠ fieldId ∧ tlv.1 ∉ state.seen := by
      intro tlv there
      simpa [Decoding.add] using new tlv there
    refine ⟨_, whole, ⟨?_, ?_, ?_⟩, ?_, rfl⟩
    · refine List.nodup_cons.mpr ⟨fun again => ?_, admissible.distinct⟩
      obtain ⟨tlv, there, same⟩ := List.mem_map.mp again
      exact (apart tlv there).1 same
    · intro tlv there
      rcases List.mem_cons.mp there with rfl | later
      · rw [size]
        exact length.isLt
      · exact admissible.short tlv later
    · intro tlv there expected stated
      rcases List.mem_cons.mp there with rfl | later
      · rw [size]
        by_contra differs
        exact known ⟨expected, stated, differs⟩
      · exact admissible.known tlv later expected stated
    · intro tlv there
      rcases List.mem_cons.mp there with rfl | later
      · exact fresh
      · exact (apart tlv later).2

def frameOf (pi : ℚ) (packet : Bytes) (tlvs : List Tlv) : H30Frame where
  tid := unpackUnsigned ((packet.drop 2).take 2)
  rawPacket := packet
  rawTlvs := tlvs
  fields := (Decoding.addAll pi ⟨[], ∅, []⟩ tlvs).fields
  presentIds := (Decoding.addAll pi ⟨[], ∅, []⟩ tlvs).seen

theorem decodePacket_eq_ok_iff {packet : Bytes} {frame : H30Frame} : decodePacket pi packet = .ok frame ↔
    ∃ tlvs, (covered packet).drop 5 = encodeTlvs tlvs ∧ Admissible tlvs ∧ frame = frameOf pi packet tlvs := by
  have listed : ∀ tlvs, (Decoding.addAll pi ⟨[], ∅, []⟩ tlvs).tlvs = tlvs := fun tlvs => by rw [addAll_tlvs]; rfl
  unfold decodePacket
  constructor
  · intro decoded
    match reads : decodeFrom pi ((covered packet).drop 5) ⟨[], ∅, []⟩ with
    | .error e => rw [reads] at decoded; cases decoded
    | .ok final =>
      obtain ⟨tlvs, split, admissible, -, rfl⟩ := decodeFrom_eq_ok _ reads
      rw [reads] at decoded
      cases decoded
      exact ⟨tlvs, split, admissible, by simp [frameOf, listed]⟩
  · rintro ⟨tlvs, split, admissible, rfl⟩
    rw [split, decodeFrom_encode admissible (by simp)]
    show Except.ok _ = _
    simp [frameOf, listed]

end Smartwheel.Imu

/-! ### The parser as a scanner of single findings: `_drain` takes what the scanner takes, so neither the frames nor what is
counted depend on how the stream is cut. -/
namespace Smartwheel.Imu
open Scan

inductive Finding where
  | noise
  | checksumError
  | malformed
  | frame (f : H30Frame)

def verdict (pi : ℚ) (packet : Bytes) : ℕ × Finding :=
  if h30Checksum ((covered packet).drop 2) ≠ trailer packet then (1, .checksumError)
  else match decodePacket pi packet with
    | .error _ => (packet.length, .malformed)
    | .ok frame => (packet.length, .frame frame)

def lookPacket (pi : ℚ) (held : Bytes) : Option (ℕ × Finding) :=
  if held.length < 5 ∨ held.length < packetLength held then none
  else some (verdict pi (held.take (packetLength held)))

def look (pi : ℚ) (held : Bytes) : Option (ℕ × Finding) :=
  match held with
  | [] => none
  | [a] => if a = syncA then none else some (1, .noise)
  | a :: b :: rest => if a = syncA ∧ b = syncB then lookPacket pi (a :: b :: rest) else some (1, .noise)

section look
variable {pi : ℚ} {held : Bytes} {count : ℕ} {x : Finding}

theorem verdict_count (pi : ℚ) (packet : Bytes) (some_ : 0 < packet.length) :
    0 < (verdict pi packet).1 ∧ (verdict pi packet).1 ≤ packet.length := by
  unfold verdict
  split
  · exact ⟨Nat.one_pos, some_⟩
  · split <;> exact ⟨some_, le_rfl⟩

theorem packetLength_append (more : Bytes) (long : 5 ≤ held.length) : packetLength (held ++ more) = packetLength held := by
  have within : 4 < held.length := by omega
  simp [packetLength, List.getD_eq_getElem?_getD, List.getElem?_append_left within]

theorem lookPacket_advances (looks : lookPacket pi held = some (count, x)) : 0 < count ∧ count ≤ held.length := by
  unfold lookPacket at looks
  split at looks
  · cases looks
  · rename_i long
    rw [not_or, not_lt, not_lt] at long
    have size : (held.take (packetLength held)).length = packetLength held := by
      rw [List.length_take]
      omega
    have positive : 0 < packetLength held := by unfold packetLength; omega
    have counted := verdict_count pi (held.take (packetLength held)) (by omega)
    rw [Option.some.inj looks, size] at counted
    exact ⟨counted.1, counted.2.trans long.2⟩

theorem lookPacket_steady (more : Bytes) (looks : lookPacket pi held = some (count, x)) :
    lookPacket pi (held ++ more) = some (count, x) := by
  unfold lookPacket at looks ⊢
  split at looks
  · cases looks
  · rename_i long
    rw [not_or, not_lt, not_lt] at long
    have still : ¬ ((held ++ more).length < 5 ∨ (held ++ more).length < packetLength (held ++ more)) := by
      rw [packetLength_append more long.1, List.length_append]
      omega
    rw [if_neg still, packetLength_append more long.1, List.take_append_of_le_length long.2]
    exact looks

theorem look_advances (looks : look pi held = some (count, x)) : 0 < count ∧ count ≤ held.length := by
  match held with
  | [] => cases looks
  | [a] =>
    by_cases sync : a = syncA
    · simp [look, sync] at looks
    · simp only [look, if_neg sync, Option.some.injEq, Prod.mk.injEq] at looks
      simp [← looks.1]
  | a :: b :: rest =>
    by_cases sync : a = syncA ∧ b = syncB
    · rw [look, if_pos sync] at looks
      exact lookPacket_advances looks
    · simp only [look, if_neg sync, Option.some.injEq, Prod.mk.injEq] at looks
      simp [← looks.1]

theorem look_steady (more : Bytes) (looks : look pi held = some (count, x)) : look pi (held ++ more) = some (count, x) := by
  rcases held with _ | ⟨a, _ | ⟨b, rest⟩⟩
  · cases looks
  · by_cases sync : a = syncA
    · simp [look, sync] at looks
    · rw [look, if_neg sync] at looks
      cases more <;> simpa [look, sync] using looks
  · by_cases sync : a = syncA ∧ b = syncB
    · rw [look, if_pos sync] at looks
      rw [List.cons_append, List.cons_append, look, if_pos sync]
      exact lookPacket_steady more looks
    · rw [look, if_neg sync] at looks
      rw [List.cons_append, List.cons_append, look, if_neg sync]
      exact looks

end look

def scanner (pi : ℚ) : Scanner Byte Finding where
  look := look pi
  advances := look_advances
  steady := look_steady

def Stats.record (s : Stats) (found : Bytes × Finding) : Stats :=
  match found.2 with
  | .noise => { s with discardedBytes := s.discardedBytes + found.1.length }
  | .checksumError =>
    { s with checksumErrors := s.checksumErrors + 1, discardedBytes := s.discardedBytes + found.1.length }
  | .malformed => { s with malformedTlv := s.malformedTlv + 1, discardedBytes := s.discardedBytes + found.1.length }
  | .frame _ => { s with frames := s.frames + 1 }

def Finding.toFrame : Finding → Option H30Frame
  | .frame f => some f
  | _ => none

def framesOf (found : List (Bytes × Finding)) : List H30Frame := found.filterMap fun piece => piece.2.toFrame

/-- `q` is what `p` becomes by what the scanner takes. -/
def Follows (pi : ℚ) (p q : H30Parser) (frames : List H30Frame) : Prop :=
  ∃ found, (scanner pi).Takes p.buffer found q.buffer ∧ q.stats = found.foldl Stats.record p.stats ∧ frames = framesOf found

section drain
variable {pi : ℚ} {p q r : H30Parser} {frames frames' : List H30Frame}

theorem Follows.refl (p : H30Parser) : Follows pi p p [] := ⟨[], .done _, rfl, rfl⟩

theorem Follows.trans (first : Follows pi p q frames) (second : Follows pi q r frames') :
    Follows pi p r (frames ++ frames') := by
  obtain ⟨found, takes, stats, rfl⟩ := first
  obtain ⟨found', takes', stats', rfl⟩ := second
  refine ⟨found ++ found', takes.trans takes', ?_, by simp [framesOf]⟩
  rw [stats', stats, List.foldl_append]

theorem discard_noise (looks : look pi p.buffer = some (1, .noise)) : Follows pi p (p.discard 1) [] := by
  refine ⟨[(p.buffer.take 1, .noise)], .one looks, ?_, rfl⟩
  have held := (look_advances looks).2
  simp [Stats.record, H30Parser.discard, held]

theorem discard_discard (p : H30Parser) (m n : ℕ) : (p.discard m).discard n = p.discard (m + n) := by
  simp [H30Parser.discard, List.drop_drop, Nat.add_assoc]

theorem discard_zero (p : H30Parser) : p.discard 0 = p := rfl

theorem findHeader_some (pi : ℚ) {held : Bytes} {start : ℕ} (finds : findHeader held = some start) (hp : p.buffer = held) :
    Follows pi p (p.discard start) [] ∧ ∃ rest, (p.discard start).buffer = syncA :: syncB :: rest := by
  induction held generalizing p start with
  | nil => cases finds
  | cons a held ih =>
    match held, finds with
    | b :: rest, finds =>
      rw [findHeader] at finds
      by_cases sync : a = syncA ∧ b = syncB
      · rw [if_pos sync] at finds
        cases finds
        exact ⟨.refl p, rest, by rw [discard_zero, hp, sync.1, sync.2]⟩
      · rw [if_neg sync] at finds
        obtain ⟨next, later, rfl⟩ := Option.map_eq_some_iff.mp finds
        have first : Follows pi p (p.discard 1) [] := discard_noise (by rw [hp, look, if_neg sync])
        obtain ⟨second, rest', there⟩ := ih later (p := p.discard 1) (by rw [H30Parser.discard, hp]; rfl)
        rw [discard_discard, Nat.add_comm] at second there
        exact ⟨first.trans second, rest', there⟩

theorem findHeader_none {held : Bytes} (none_ : findHeader held = none) (hp : p.buffer = held) :
    Follows pi p (p.discard (held.length - if held.getLast? = some syncA then 1 else 0)) [] ∧
      (scanner pi).Settled (p.discard (held.length - if held.getLast? = some syncA then 1 else 0)).buffer := by
  induction held generalizing p with
  | nil =>
    refine ⟨.refl p, ?_⟩
    show look pi _ = none
    simp [H30Parser.discard, hp, look]
  | cons a held ih =>
    match held, none_ with
    | [], _ =>
      by_cases sync : a = syncA
      · have kept : p.discard ([a].length - if [a].getLast? = some syncA then 1 else 0) = p := by simp [sync, discard_zero]
        rw [kept]
        refine ⟨.refl p, ?_⟩
        show look pi _ = none
        rw [hp, look, if_pos sync]
      · have dropped : [a].length - (if [a].getLast? = some syncA then 1 else 0) = 1 := by simp [sync]
        rw [dropped]
        refine ⟨discard_noise (by rw [hp, look, if_neg sync]), ?_⟩
        show look pi _ = none
        simp [H30Parser.discard, hp, look]
    | b :: rest, none_ =>
      have apart : ¬ (a = syncA ∧ b = syncB) := by
        intro sync
        simp [findHeader, sync] at none_
      have later : findHeader (b :: rest) = none := by simpa [findHeader, apart] using none_
      have first : Follows pi p (p.discard 1) [] := discard_noise (by rw [hp, look, if_neg apart])
      obtain ⟨second, settled⟩ := ih later (p := p.discard 1) (by rw [H30Parser.discard, hp]; rfl)
      have last : (a :: b :: rest).getLast? = (b :: rest).getLast? := by simp [List.getLast?_cons_cons]
      have count : 1 + ((b :: rest).length - if (b :: rest).getLast? = some syncA then 1 else 0) =
          (a :: b :: rest).length - if (a :: b :: rest).getLast? = some syncA then 1 else 0 := by
        rw [last]
        simp only [List.length_cons]
        split <;> omega
      rw [discard_discard, count] at second settled
      exact ⟨first.trans second, settled⟩

theorem candidate_follows (pi : ℚ) {rest : Bytes} (hp : p.buffer = syncA :: syncB :: rest) :
    match candidate pi p with
    | .stop q => q = p ∧ (scanner pi).Settled p.buffer
    | .again q frame => Follows pi p q frame.toList := by
  have looks : look pi p.buffer = lookPacket pi p.buffer := by rw [hp, look, if_pos ⟨rfl, rfl⟩]
  by_cases short : p.buffer.length < 5 ∨ p.buffer.length < packetLength p.buffer
  · have stops : candidate pi p = .stop p := by
      unfold candidate
      rcases short with few | few <;> simp [few]
    rw [stops]
    refine ⟨rfl, ?_⟩
    show look pi _ = none
    rw [looks, lookPacket, if_pos short]
  · have taken : look pi p.buffer = some (verdict pi (p.buffer.take (packetLength p.buffer))) := by
      rw [looks, lookPacket, if_neg short]
    rw [not_or] at short
    have size : (p.buffer.take (packetLength p.buffer)).length = packetLength p.buffer := by
      rw [List.length_take]
      omega
    unfold candidate
    rw [if_neg short.1, if_neg short.2]
    unfold verdict at taken
    by_cases sums : h30Checksum ((covered (p.buffer.take (packetLength p.buffer))).drop 2) ≠
        trailer (p.buffer.take (packetLength p.buffer))
    · rw [if_pos sums] at taken
      simp only [if_pos sums]
      have held := (look_advances taken).2
      exact ⟨[(p.buffer.take 1, .checksumError)], .one taken,
        by simp [Stats.record, H30Parser.discard, H30Parser.checksumError, held], rfl⟩
    · rw [if_neg sums] at taken
      simp only [if_neg sums]
      cases reads : decodePacket pi (p.buffer.take (packetLength p.buffer)) with
      | error e =>
        rw [reads] at taken
        simp only [size] at taken
        exact ⟨[(p.buffer.take (packetLength p.buffer), .malformed)], .one taken,
          by simp [Stats.record, H30Parser.discard, H30Parser.malformed, -List.length_take, size], rfl⟩
      | ok frame =>
        rw [reads] at taken
        simp only [size] at taken
        exact ⟨[(p.buffer.take (packetLength p.buffer), .frame frame)], .one taken,
          by simp [Stats.record, H30Parser.accept], rfl⟩

theorem round_follows (pi : ℚ) (p : H30Parser) :
    match round pi p with
    | .stop q => Follows pi p q [] ∧ (scanner pi).Settled q.buffer
    | .again q frame => Follows pi p q frame.toList := by
  unfold round
  cases finds : findHeader p.buffer with
  | none => exact findHeader_none finds rfl
  | some start =>
    obtain ⟨first, rest, header⟩ := findHeader_some pi finds rfl
    have next := candidate_follows pi header
    dsimp only
    cases ends : candidate pi (p.discard start) with
    | stop q =>
      rw [ends] at next
      obtain ⟨rfl, settled⟩ := next
      exact ⟨first, settled⟩
    | again q frame =>
      rw [ends] at next
      exact first.trans next

/-- `_drain` takes what the scanner takes, as long as it takes anything. -/
theorem drain_follows (p : H30Parser) :
    Follows pi p (drain pi p).1 (drain pi p).2 ∧ (scanner pi).Settled (drain pi p).1.buffer := by
  fun_induction drain pi p with
  | case1 p empty =>
    refine ⟨.refl p, ?_⟩
    show look pi p.buffer = none
    rw [empty, look]
  | case2 p _ q ends =>
    have last := round_follows pi p
    rw [ends] at last
    exact last
  | case3 p _ q frame goes ih =>
    have first := round_follows pi p
    rw [goes] at first
    exact ⟨first.trans ih.1, ih.2⟩

end drain
end Smartwheel.Imu
