import Mathlib.Algebra.Group.Nat.Defs
import Mathlib.Data.List.AList
import Mathlib.Data.List.MinMax

/-! `UdpAssembler`: frames of the lidar put together from UDP packets. An index outside of its buffer is `none`; offsets and
lengths are 32-bit words. -/
namespace Smartwheel.Xt

abbrev Bytes := List UInt8

structure Counters where
  invalid : ℕ
  duplicate : ℕ
  evicted : ℕ
  complete : ℕ

structure Frame where
  bytes : Bytes
  seen : List Bool
  received : ℕ
  order : ℕ

structure UdpAssembler where
  counters : Counters
  frames : AList fun _ : UInt16 => Frame
  order : ℕ

def UdpAssembler.init : UdpAssembler := ⟨⟨0, 0, 0, 0⟩, ∅, 0⟩

/-- `std::vector<uint8_t>(total)`, twice. -/
def Frame.fresh (total order : ℕ) : Frame := ⟨List.replicate total 0, List.replicate total false, 0, order⟩

structure Header where
  sn : UInt16
  total : UInt32
  length : UInt32
  offset : UInt32

/-- `n` bytes from `i` on, each put at its place of a word. -/
def read (p : Bytes) (little : Bool) (base n : ℕ) : ℕ → ℕ → UInt32 → Option UInt32
  | _, 0, v => some v
  | i, left + 1, v => do
    let byte ← p[base + i]?
    read p little base n (i + 1) left (v ||| byte.toUInt32 <<< (8 * if little then i else n - 1 - i).toUInt32)

def word (p : Bytes) (little : Bool) (base n : ℕ) : Option UInt32 := read p little base n 0 n 0

def Header.Bad (h : Header) (size : ℕ) : Prop :=
  h.total < 12 ∨ 1200000 < h.total ∨ h.length = 0 ∨ 1400 < h.length ∨ size ≠ (20 + h.length).toNat ∨
    h.total < h.offset ∨ h.total - h.offset < h.length

instance (h : Header) (size : ℕ) : Decidable (h.Bad size) := by unfold Header.Bad; infer_instance

/-- The header of a packet, `some none` where the packet is invalid. -/
def header (p : Bytes) (little : Bool) : Option (Option Header) :=
  if p.length < 20 then some none
  else do
    let sn ← word p little 0 2
    let total ← word p little 2 4
    let length ← word p little 6 2
    let offset ← word p little 8 4
    let h : Header := ⟨sn.toUInt16, total, length, offset⟩
    return if h.Bad p.length then none else some h

/-- The first loop: whether all bytes of a packet are there, `some none` where one conflicts. -/
def compare (f : Frame) (p : Bytes) (offset : ℕ) : ℕ → ℕ → Bool → Option (Option Bool)
  | _, 0, duplicate => some (some duplicate)
  | i, left + 1, duplicate => do
    let seen ← f.seen[offset + i]?
    let old ← f.bytes[offset + i]?
    let new ← p[20 + i]?
    if seen ∧ old ≠ new then return none
    else compare f p offset (i + 1) left (duplicate && seen)

def Frame.put (f : Frame) (base : ℕ) (byte : UInt8) : Option Frame := do
  let seen ← f.seen[base]?
  let _ ← f.bytes[base]?
  return { f with
    bytes := f.bytes.set base byte
    seen := f.seen.set base true
    received := if seen then f.received else f.received + 1 }

def store (p : Bytes) (offset : ℕ) : ℕ → ℕ → Frame → Option Frame
  | _, 0, f => some f
  | i, left + 1, f => do
    let byte ← p[20 + i]?
    let f ← f.put (offset + i) byte
    store p offset (i + 1) left f

/-- `n` bytes of a buffer from an index on. -/
def slice (b : Bytes) (base n : ℕ) : Option Bytes := if base + n ≤ b.length then some ((b.drop base).take n) else none

def start_ : Bytes := [0x7e, 0xff, 0xaa, 0x55]

def end_ : Bytes := [0xff, 0x7e, 0x55, 0xaa]

namespace UdpAssembler

def invalid (a : UdpAssembler) : UdpAssembler := { a with counters.invalid := a.counters.invalid + 1 }

def pending (a : UdpAssembler) : ℕ := a.frames.keys.length

def oldest (a : UdpAssembler) : Option (Sigma fun _ : UInt16 => Frame) := a.frames.entries.argmin fun entry => entry.2.order

def evict (a : UdpAssembler) : Option UdpAssembler :=
  if a.pending = 3 then do
    let old ← a.oldest
    return { a with frames := a.frames.erase old.1, counters.evicted := a.counters.evicted + 1 }
  else some a

def opened (a : UdpAssembler) (h : Header) : Option UdpAssembler :=
  if h.sn ∈ a.frames then some a
  else do
    let a ← a.evict
    return { a with frames := a.frames.insert h.sn (.fresh h.total.toNat (a.order + 1)), order := a.order + 1 }

/-- `frames_.erase(sn); return invalid();`. -/
def drop (a : UdpAssembler) (sn : UInt16) : UdpAssembler := { a with frames := a.frames.erase sn }.invalid

def finish (a : UdpAssembler) (h : Header) (b : Bytes) (little : Bool) : Option (UdpAssembler × Option Bytes) := do
  let first ← slice b 0 4
  let last ← slice b (b.length - 4) 4
  if first ≠ start_ ∨ last ≠ end_ then return (a.drop h.sn, none)
  let n ← word b little 4 4
  if n ≠ h.total - 12 then return (a.drop h.sn, none)
  let out ← slice b 8 (b.length - 4 - 8)
  return ({ a with frames := a.frames.erase h.sn, counters.complete := a.counters.complete + 1 }, some out)

def assemble (a : UdpAssembler) (h : Header) (p : Bytes) (little : Bool) : Option (UdpAssembler × Option Bytes) := do
  let a ← a.opened h
  let f ← a.frames.lookup h.sn
  if f.bytes.length ≠ h.total.toNat then return (a.drop h.sn, none)
  match ← compare f p h.offset.toNat 0 h.length.toNat true with
  | none => return (a.drop h.sn, none)
  | some true => return ({ a with counters.duplicate := a.counters.duplicate + 1 }, none)
  | some false => do
    let f ← store p h.offset.toNat 0 h.length.toNat f
    let a := { a with frames := a.frames.insert h.sn f }
    if f.received ≠ h.total.toNat then return (a, none)
    else a.finish h f.bytes little

/-- `feed`: what is returned is the frame that a packet completes, if it does. -/
def feed (a : UdpAssembler) (p : Bytes) (little : Bool) : Option (UdpAssembler × Option Bytes) := do
  match ← header p little with
  | none => return (a.invalid, none)
  | some h => a.assemble h p little

def reset (a : UdpAssembler) : UdpAssembler := { a with frames := ∅ }

end UdpAssembler

/-- A packet as it is given to `feed`. -/
structure Datagram where
  bytes : Bytes
  little : Bool

inductive Call
  | feed (d : Datagram)
  | reset

def UdpAssembler.call (a : UdpAssembler) : Call → Option (UdpAssembler × Option Bytes)
  | .feed d => a.feed d.bytes d.little
  | .reset => some (a.reset, none)

def run (a : UdpAssembler) : List Call → Option (UdpAssembler × List (Option Bytes))
  | [] => some (a, [])
  | c :: rest => do
    let (a, reply) ← a.call c
    let (a, replies) ← run a rest
    return (a, reply :: replies)

/-! ### What packets in any order make of the assembler. -/

section words
variable {p : Bytes} {little : Bool} {base n : ℕ}

theorem read_some (i left : ℕ) (v : UInt32) (inside : base + i + left ≤ p.length) :
    ∃ w, read p little base n i left v = some w := by
  induction left generalizing i v with
  | zero => exact ⟨v, rfl⟩
  | succ left ih =>
    have below : base + i < p.length := by omega
    obtain ⟨w, later⟩ := ih (i + 1) (v ||| p[base + i].toUInt32 <<< (8 * if little then i else n - 1 - i).toUInt32)
      (by omega)
    refine ⟨w, ?_⟩
    simpa [read, List.getElem?_eq_getElem below] using later

theorem word_some (p : Bytes) (little : Bool) (base n : ℕ) (inside : base + n ≤ p.length) : ∃ w, word p little base n = some w :=
  read_some 0 n 0 (by omega)

theorem header_some (p : Bytes) (little : Bool) : ∃ r, header p little = some r := by
  by_cases short : p.length < 20
  · exact ⟨none, by simp [header, short]⟩
  · obtain ⟨sn, read₁⟩ := word_some p little 0 2 (by omega)
    obtain ⟨total, read₂⟩ := word_some p little 2 4 (by omega)
    obtain ⟨length, read₃⟩ := word_some p little 6 2 (by omega)
    obtain ⟨offset, read₄⟩ := word_some p little 8 4 (by omega)
    simp [header, short, read₁, read₂, read₃, read₄]

theorem header_good {h : Header} (found : header p little = some (some h)) : ¬h.Bad p.length := by
  unfold header at found
  split at found
  · simp at found
  · simp only [Option.bind_eq_bind, Option.bind_eq_some_iff, Option.pure_def, Option.some.injEq, Option.ite_none_left_eq_some] at found
    obtain ⟨sn, -, total, -, length, -, offset, -, good, rfl⟩ := found
    exact good

theorem Header.bounds {h : Header} {size : ℕ} (good : ¬h.Bad size) :
    12 ≤ h.total.toNat ∧ 1 ≤ h.length.toNat ∧ size = 20 + h.length.toNat ∧
      h.offset.toNat + h.length.toNat ≤ h.total.toNat := by
  simp only [Bad, not_or, UInt32.lt_iff_toNat_lt, Nat.not_lt, ne_eq, not_not] at good
  obtain ⟨low, -, some_, top, sized, inside, fits⟩ := good
  have small : h.length.toNat ≤ 1400 := top
  have twelve : 12 ≤ h.total.toNat := low
  have sum : (20 + h.length).toNat = 20 + h.length.toNat := by
    rw [UInt32.toNat_add]
    have twenty : (20 : UInt32).toNat = 20 := rfl
    omega
  have positive : h.length.toNat ≠ 0 := fun zero => some_ (UInt32.toNat_inj.mp zero)
  rw [UInt32.toNat_sub_of_le _ _ (UInt32.le_iff_toNat_le.mpr inside)] at fits
  omega

end words

structure Frame.Sound (f : Frame) : Prop where
  sized : f.seen.length = f.bytes.length
  counted : f.received = f.seen.count true
  low : 12 ≤ f.bytes.length

theorem Frame.fresh_sound {total : ℕ} (order : ℕ) (low : 12 ≤ total) : (Frame.fresh total order).Sound where
  sized := by simp [Frame.fresh]
  counted := by simp [Frame.fresh, List.count_replicate]
  low := by simpa [Frame.fresh] using low

def Clash (f : Frame) (p : Bytes) (offset i left : ℕ) : Prop :=
  ∃ j, i ≤ j ∧ j < i + left ∧ f.seen[offset + j]? = some true ∧ f.bytes[offset + j]? ≠ p[20 + j]?

def AllSeen (f : Frame) (offset i left : ℕ) : Prop := ∀ j, i ≤ j → j < i + left → f.seen[offset + j]? = some true

section loops
variable {f : Frame} {p : Bytes} {offset : ℕ}

theorem compare_eq (sized : f.seen.length = f.bytes.length) (i left : ℕ) (dup : Bool)
    (inside : offset + i + left ≤ f.bytes.length) (there : 20 + i + left ≤ p.length) :
    ∃ r, compare f p offset i left dup = some r ∧ (r = none ↔ Clash f p offset i left) ∧
      ∀ all, r = some all → (all = true ↔ dup = true ∧ AllSeen f offset i left) := by
  induction left generalizing i dup with
  | zero =>
    refine ⟨some dup, rfl, by simp [Clash]; omega, fun all same => ?_⟩
    cases same
    have none_left : AllSeen f offset i 0 := fun j low top => by omega
    simp [none_left]
  | succ left ih =>
    have seen : f.seen[offset + i]? = some f.seen[offset + i] := List.getElem?_eq_getElem (by omega)
    have old : f.bytes[offset + i]? = some f.bytes[offset + i] := List.getElem?_eq_getElem (by omega)
    have new : p[20 + i]? = some p[20 + i] := List.getElem?_eq_getElem (by omega)
    have clash_succ : Clash f p offset i (left + 1) ↔
        (f.seen[offset + i] = true ∧ f.bytes[offset + i] ≠ p[20 + i]) ∨ Clash f p offset (i + 1) left := by
      constructor
      · rintro ⟨j, low, top, was, differs⟩
        by_cases first : j = i
        · subst first
          rw [seen] at was
          rw [old, new] at differs
          exact .inl ⟨by simpa using was, by simpa using differs⟩
        · exact .inr ⟨j, by omega, by omega, was, differs⟩
      · rintro (⟨was, differs⟩ | ⟨j, low, top, was, differs⟩)
        · exact ⟨i, le_rfl, by omega, by rw [seen, was], by rw [old, new]; simpa using differs⟩
        · exact ⟨j, by omega, by omega, was, differs⟩
    have all_succ : AllSeen f offset i (left + 1) ↔ f.seen[offset + i] = true ∧ AllSeen f offset (i + 1) left := by
      constructor
      · intro all
        have first := all i le_rfl (by omega)
        rw [seen] at first
        exact ⟨by simpa using first, fun j low top => all j (by omega) (by omega)⟩
      · rintro ⟨first, later⟩ j low top
        by_cases same : j = i
        · subst same
          rw [seen, first]
        · exact later j (by omega) (by omega)
    by_cases differs : f.seen[offset + i] = true ∧ f.bytes[offset + i] ≠ p[20 + i]
    · refine ⟨none, ?_, by simp [clash_succ, differs], by simp⟩
      simp [compare, seen, old, new, differs]
    · obtain ⟨r, later, conflict, allThere⟩ := ih (i + 1) (dup && f.seen[offset + i]) (by omega) (by omega)
      refine ⟨r, ?_, by simpa [clash_succ, differs] using conflict, fun all same => ?_⟩
      · simp only [compare, seen, old, new, Option.bind_eq_bind, Option.bind_some, if_neg differs]
        exact later
      · rw [allThere all same, all_succ, Bool.and_eq_true, and_assoc]

structure Stored (f f' : Frame) (p : Bytes) (offset i left : ℕ) : Prop where
  size : f'.bytes.length = f.bytes.length
  bytes : ∀ k, f'.bytes[k]? = if offset + i ≤ k ∧ k < offset + i + left then p[20 + (k - offset)]? else f.bytes[k]?
  seen : ∀ k, f'.seen[k]? = if offset + i ≤ k ∧ k < offset + i + left then some true else f.seen[k]?
  sound : f'.Sound

theorem put_some (sound : f.Sound) (base : ℕ) (inside : base < f.bytes.length) (byte : UInt8) :
    ∃ f', f.put base byte = some f' ∧ f'.bytes = f.bytes.set base byte ∧ f'.seen = f.seen.set base true ∧ f'.Sound := by
  have below : base < f.seen.length := by rw [sound.sized]; exact inside
  have seen : f.seen[base]? = some f.seen[base] := List.getElem?_eq_getElem below
  have old : f.bytes[base]? = some f.bytes[base] := List.getElem?_eq_getElem inside
  refine ⟨_, by simp only [Frame.put, seen, old, Option.bind_eq_bind, Option.bind_some]; rfl, rfl, rfl, ?_⟩
  refine ⟨by simpa using sound.sized, ?_, by simpa using sound.low⟩
  have occurs : f.seen[base] = true → 0 < f.seen.count true := fun was =>
    List.count_pos_iff.mpr (was ▸ List.getElem_mem below)
  rw [List.count_set below, sound.counted]
  cases was : f.seen[base] with
  | true =>
    have positive := occurs was
    simp
    omega
  | false => simp

theorem store_some (i left : ℕ) (sound : f.Sound) (inside : offset + i + left ≤ f.bytes.length)
    (there : 20 + i + left ≤ p.length) : ∃ f', store p offset i left f = some f' ∧ Stored f f' p offset i left := by
  induction left generalizing i f with
  | zero =>
    refine ⟨f, rfl, rfl, fun k => ?_, fun k => ?_, sound⟩ <;> rw [if_neg (by omega)]
  | succ left ih =>
    have new : p[20 + i]? = some p[20 + i] := List.getElem?_eq_getElem (by omega)
    obtain ⟨f₁, puts, bytes, seen, sound₁⟩ := put_some sound (offset + i) (by omega) p[20 + i]
    have size : f₁.bytes.length = f.bytes.length := by simp [bytes]
    obtain ⟨f', stores, stored⟩ := ih (i + 1) sound₁ (by omega) (by omega)
    refine ⟨f', ?_, stored.size.trans size, fun k => ?_, fun k => ?_, stored.sound⟩
    · simp only [store, new, puts, Option.bind_eq_bind, Option.bind_some]
      exact stores
    · rw [stored.bytes, bytes, List.getElem?_set]
      by_cases first : k = offset + i
      · subst first
        have at_first : 20 + (offset + i - offset) = 20 + i := by omega
        rw [if_neg (by omega), if_pos rfl, if_pos (by omega), if_pos (by omega), at_first, new]
      · by_cases later : offset + (i + 1) ≤ k ∧ k < offset + (i + 1) + left
        · rw [if_pos later, if_pos (by omega)]
        · rw [if_neg later, if_neg (by omega), if_neg (by omega)]
    · rw [stored.seen, seen, List.getElem?_set]
      by_cases first : k = offset + i
      · subst first
        rw [if_neg (by omega), if_pos rfl, if_pos (by rw [sound.sized]; omega), if_pos (by omega)]
      · by_cases later : offset + (i + 1) ≤ k ∧ k < offset + (i + 1) + left
        · rw [if_pos later, if_pos (by omega)]
        · rw [if_neg later, if_neg (by omega), if_neg (by omega)]

end loops

theorem slice_some (b : Bytes) (base n : ℕ) (inside : base + n ≤ b.length) : slice b base n = some ((b.drop base).take n) :=
  if_pos inside

namespace UdpAssembler

structure Sound (a : UdpAssembler) : Prop where
  few : a.pending ≤ 3
  frames : ∀ sn f, a.frames.lookup sn = some f → f.Sound

section operations
variable {a : UdpAssembler} {h : Header} {p : Bytes} {little : Bool} {f : Frame}

theorem keys_le_erase (sn : UInt16) : (a.frames.erase sn).keys.length ≤ a.frames.keys.length := by
  rw [AList.keys_erase]
  exact List.length_erase_le

theorem erase_sound (sound : a.Sound) (sn : UInt16) (counters : Counters) (order : ℕ) :
    Sound ⟨counters, a.frames.erase sn, order⟩ where
  few := (keys_le_erase sn).trans sound.few
  frames other f found := by
    by_cases same : other = sn
    · subst same
      simp at found
    · rw [AList.lookup_erase_ne same] at found
      exact sound.frames other f found

theorem insert_sound (sound : a.Sound) (fresh : f.Sound) (sn : UInt16) (room : sn ∈ a.frames ∨ a.pending < 3) (order : ℕ) :
    Sound { a with frames := a.frames.insert sn f, order := order } where
  few := by
    have few := sound.few
    simp only [pending, AList.keys_insert, List.length_cons] at few room ⊢
    by_cases inside : sn ∈ a.frames.keys
    · have positive : 0 < a.frames.keys.length := List.length_pos_of_mem inside
      rw [List.length_erase_of_mem inside]
      omega
    · rw [List.erase_of_not_mem inside]
      have below := room.resolve_left fun found => inside (AList.mem_keys.mp found)
      omega
  frames other g found := by
    by_cases same : other = sn
    · subst same
      rw [AList.lookup_insert] at found
      cases found
      exact fresh
    · rw [AList.lookup_insert_ne same] at found
      exact sound.frames other g found

theorem evict_some (sound : a.Sound) : ∃ a', a.evict = some a' ∧ a'.Sound ∧ a'.pending < 3 ∧ (a.pending < 3 → a' = a) ∧
    ∀ sn, sn ∉ a.frames → sn ∉ a'.frames := by
  have few := sound.few
  by_cases full : a.pending = 3
  · have nonempty : a.frames.entries ≠ [] := by
      intro empty
      simp [pending, AList.keys, List.keys, empty] at full
    cases found : a.oldest with
    | none => exact absurd (List.argmin_eq_none.mp found) nonempty
    | some old =>
      refine ⟨_, by simp only [evict, if_pos full, found]; rfl, erase_sound sound _ _ _, ?_, by omega, fun sn out inside => ?_⟩
      · have inside : old.1 ∈ a.frames.keys := List.mem_map_of_mem (List.argmin_mem found)
        have erased : (a.frames.erase old.1).keys.length = a.frames.keys.length - 1 := by
          rw [AList.keys_erase, List.length_erase_of_mem inside]
        simp only [pending] at full ⊢
        omega
      · exact out (AList.mem_erase.mp inside).2
  · exact ⟨a, by simp [evict, full], sound, by omega, fun _ => rfl, fun _ out => out⟩

theorem opened_some (sound : a.Sound) (low : 12 ≤ h.total.toNat) : ∃ a' f, a.opened h = some a' ∧ a'.Sound ∧
    a'.frames.lookup h.sn = some f ∧ (a.frames.lookup h.sn = some f ∧ a' = a ∨
      h.sn ∉ a.frames ∧ ∃ order, f = .fresh h.total.toNat order) ∧
    ((h.sn ∉ a.frames → a.pending < 3) → ∀ sn, sn ≠ h.sn → a'.frames.lookup sn = a.frames.lookup sn) := by
  by_cases inside : h.sn ∈ a.frames
  · obtain ⟨f, found⟩ := Option.isSome_iff_exists.mp (AList.lookup_isSome.mpr inside)
    exact ⟨a, f, by simp [opened, inside], sound, found, .inl ⟨found, rfl⟩, fun _ _ _ => rfl⟩
  · obtain ⟨a₁, evicts, sound₁, room, stays, out⟩ := evict_some sound
    refine ⟨_, _, by simp only [opened, if_neg inside, evicts, Option.bind_eq_bind, Option.bind_some]; rfl,
      insert_sound sound₁ (Frame.fresh_sound _ low) _ (.inr room) _, AList.lookup_insert _, .inr ⟨inside, _, rfl⟩, ?_⟩
    intro few sn other
    rw [AList.lookup_insert_ne other, stays (few inside)]

inductive Puts (a : UdpAssembler) (f : Frame) (h : Header) (p : Bytes) (little : Bool) : UdpAssembler × Option Bytes → Prop
  | mismatch (other : f.bytes.length ≠ h.total.toNat) : Puts a f h p little (a.drop h.sn, none)
  | clash (same : f.bytes.length = h.total.toNat) (clash : Clash f p h.offset.toNat 0 h.length.toNat) :
      Puts a f h p little (a.drop h.sn, none)
  | duplicate (same : f.bytes.length = h.total.toNat) (agrees : ¬Clash f p h.offset.toNat 0 h.length.toNat)
      (seen : AllSeen f h.offset.toNat 0 h.length.toNat) (counters : Counters) :
      Puts a f h p little ({ a with counters := counters }, none)
  | more (f' : Frame) (same : f.bytes.length = h.total.toNat) (agrees : ¬Clash f p h.offset.toNat 0 h.length.toNat)
      (stored : Stored f f' p h.offset.toNat 0 h.length.toNat) (lacks : f'.received ≠ h.total.toNat) :
      Puts a f h p little ({ a with frames := a.frames.insert h.sn f' }, none)
  | whole (f' : Frame) (same : f.bytes.length = h.total.toNat) (agrees : ¬Clash f p h.offset.toNat 0 h.length.toNat)
      (stored : Stored f f' p h.offset.toNat 0 h.length.toNat) (all : f'.received = h.total.toNat)
      (r : UdpAssembler × Option Bytes)
      (finish : UdpAssembler.finish { a with frames := a.frames.insert h.sn f' } h f'.bytes little = some r) :
      Puts a f h p little r

theorem finish_some (a : UdpAssembler) (h : Header) (little : Bool) {b : Bytes} (low : 12 ≤ b.length) : ∃ counters reply,
    a.finish h b little = some ({ a with frames := a.frames.erase h.sn, counters := counters }, reply) := by
  obtain ⟨n, reads⟩ := word_some b little 4 4 (by omega)
  have first := slice_some b 0 4 (by omega)
  have last := slice_some b (b.length - 4) 4 (by omega)
  have out := slice_some b 8 (b.length - 4 - 8) (by omega)
  simp only [finish, first, last, reads, out, Option.bind_eq_bind, Option.bind_some, Option.pure_def]
  split
  · exact ⟨_, _, rfl⟩
  · split <;> exact ⟨_, _, rfl⟩

theorem assemble_some (little : Bool) {a₁ : UdpAssembler} (opens : a.opened h = some a₁) (sound : a₁.Sound)
    (found : a₁.frames.lookup h.sn = some f) (good : ¬h.Bad p.length) :
    ∃ r, a.assemble h p little = some r ∧ Puts a₁ f h p little r := by
  obtain ⟨low, positive, size, inside⟩ := Header.bounds good
  simp only [assemble, opens, found, Option.bind_eq_bind, Option.bind_some]
  by_cases other : f.bytes.length = h.total.toNat
  · have fits : h.offset.toNat + 0 + h.length.toNat ≤ f.bytes.length := by omega
    obtain ⟨r, compares, clash, allSeen⟩ := compare_eq (p := p) (sound.frames _ _ found).sized 0 h.length.toNat true fits (by omega)
    rw [if_neg (not_not.mpr other), compares]
    cases r with
    | none => exact ⟨_, rfl, .clash other (clash.mp rfl)⟩
    | some all =>
      have agrees : ¬Clash f p h.offset.toNat 0 h.length.toNat := fun there => by cases clash.mpr there
      cases all with
      | true => exact ⟨_, rfl, .duplicate other agrees ((allSeen true rfl).mp rfl).2 _⟩
      | false =>
        obtain ⟨f', stores, stored⟩ := store_some 0 h.length.toNat (sound.frames _ _ found) fits (p := p) (by omega)
        simp only [Option.bind_some, stores]
        by_cases lacks : f'.received = h.total.toNat
        · obtain ⟨counters, reply, finishes⟩ := finish_some
            { a₁ with frames := a₁.frames.insert h.sn f' } h little stored.sound.low
          rw [if_neg (not_not.mpr lacks)]
          exact ⟨_, finishes, .whole f' other agrees stored lacks _ finishes⟩
        · rw [if_pos lacks]
          exact ⟨_, rfl, .more f' other agrees stored lacks⟩
  · rw [if_pos other]
    exact ⟨_, rfl, .mismatch other⟩

theorem puts_sound {r : UdpAssembler × Option Bytes} (sound : a.Sound) (found : a.frames.lookup h.sn = some f)
    (puts : Puts a f h p little r) : r.1.Sound := by
  have inside : h.sn ∈ a.frames := AList.lookup_isSome.mp (by rw [found]; rfl)
  cases puts with
  | mismatch | clash => exact erase_sound sound _ _ _
  | duplicate => exact ⟨sound.few, sound.frames⟩
  | more f' _ _ stored => exact insert_sound sound stored.sound _ (.inl inside) _
  | whole f' _ _ stored _ _ finishes =>
    obtain ⟨counters, reply, ends⟩ := finish_some
      { a with frames := a.frames.insert h.sn f' } h little stored.sound.low
    rw [ends] at finishes
    cases finishes
    exact erase_sound (insert_sound sound stored.sound _ (.inl inside) _) _ _ _

end operations

end UdpAssembler

def Datagram.header? (d : Datagram) : Option Header := (header d.bytes d.little).join

section runs
variable {a : UdpAssembler} {d : Datagram} {h : Header}

theorem header?_some (found : d.header? = some h) : header d.bytes d.little = some (some h) ∧ ¬h.Bad d.bytes.length := by
  obtain ⟨r, reads⟩ := header_some d.bytes d.little
  have valid : r = some h := by simpa [Datagram.header?, reads] using found
  subst valid
  exact ⟨reads, header_good reads⟩

theorem feed_invalid (none_ : d.header? = none) : a.feed d.bytes d.little = some (a.invalid, none) := by
  obtain ⟨r, reads⟩ := header_some d.bytes d.little
  have invalid : r = none := by simpa [Datagram.header?, reads] using none_
  simp [UdpAssembler.feed, reads, invalid]

theorem feed_valid (found : d.header? = some h) : a.feed d.bytes d.little = a.assemble h d.bytes d.little := by
  simp [UdpAssembler.feed, (header?_some found).1]

theorem feed_some (sound : a.Sound) (d : Datagram) : ∃ r, a.feed d.bytes d.little = some r ∧ r.1.Sound := by
  cases found : d.header? with
  | none => exact ⟨_, feed_invalid found, sound.few, sound.frames⟩
  | some h =>
    have good := (header?_some found).2
    obtain ⟨a₁, f, opens, sound₁, there, -⟩ := UdpAssembler.opened_some (h := h) sound (Header.bounds good).1
    obtain ⟨r, assembles, puts⟩ := UdpAssembler.assemble_some d.little opens sound₁ there good
    exact ⟨r, (feed_valid found).trans assembles, UdpAssembler.puts_sound sound₁ there puts⟩

theorem call_some (sound : a.Sound) (c : Call) : ∃ r, a.call c = some r ∧ r.1.Sound := by
  cases c with
  | feed d => exact feed_some sound d
  | reset => exact ⟨_, rfl, by simp [UdpAssembler.reset, UdpAssembler.pending], fun sn f found => by
      simp [UdpAssembler.reset] at found⟩

theorem run_some (sound : a.Sound) (calls : List Call) : ∃ a' replies, run a calls = some (a', replies) ∧ a'.Sound ∧
    replies.length = calls.length := by
  induction calls generalizing a with
  | nil => exact ⟨a, [], rfl, sound, rfl⟩
  | cons c rest ih =>
    obtain ⟨⟨a₁, reply⟩, calls, sound₁⟩ := call_some sound c
    obtain ⟨a', replies, runs, sound', size⟩ := ih sound₁
    exact ⟨a', reply :: replies, by simp [run, calls, runs], sound', by simp [size]⟩

theorem run_append (xs ys : List Call) : run a (xs ++ ys) = (run a xs).bind fun r =>
    (run r.1 ys).map fun r' => (r'.1, r.2 ++ r'.2) := by
  induction xs generalizing a with
  | nil => simp [run]
  | cons c rest ih =>
    simp only [List.cons_append, run, Option.bind_eq_bind, Option.pure_def]
    cases a.call c with
    | none => rfl
    | some r =>
      simp only [Option.bind_some, ih]
      cases run r.1 rest with
      | none => rfl
      | some r' =>
        simp only [Option.bind_some]
        cases run r'.1 ys <;> rfl

theorem init_sound : UdpAssembler.init.Sound where
  few := by simp [UdpAssembler.init, UdpAssembler.pending]
  frames sn f found := by simp [UdpAssembler.init] at found

theorem reached_sound {calls : List Call} {replies : List (Option Bytes)} (runs : run .init calls = some (a, replies)) :
    a.Sound := by
  obtain ⟨a', replies', runs', sound, -⟩ := run_some init_sound calls
  rw [runs] at runs'
  cases runs'
  exact sound

end runs

end Smartwheel.Xt
