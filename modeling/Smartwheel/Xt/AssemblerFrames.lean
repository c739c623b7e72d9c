import Smartwheel.Xt.Assembler

/-! Frames that are sent in packets, and what the assembler gives of them. -/
namespace Smartwheel.Xt

def lengthField (little : Bool) (n : ℕ) : Bytes :=
  let bytes : Bytes := [.ofNat n, .ofNat (n / 2 ^ 8), .ofNat (n / 2 ^ 16), .ofNat (n / 2 ^ 24)]
  if little then bytes else bytes.reverse

def framed (little : Bool) (payload : Bytes) : Bytes := start_ ++ lengthField little payload.length ++ payload ++ end_

structure Carries (d : Datagram) (h : Header) (little : Bool) (payload : Bytes) : Prop where
  order : d.little = little
  total : h.total.toNat = (framed little payload).length
  bytes : ∀ j < h.length.toNat, d.bytes[20 + j]? = (framed little payload)[h.offset.toNat + j]?

def CoversAt (sn : UInt16) (ds : List Datagram) (k : ℕ) : Prop :=
  ∃ d ∈ ds, ∃ h, d.header? = some h ∧ h.sn = sn ∧ h.offset.toNat ≤ k ∧ k < h.offset.toNat + h.length.toNat

def Covers (sn : UInt16) (little : Bool) (payload : Bytes) (ds : List Datagram) : Prop :=
  ∀ k < (framed little payload).length, CoversAt sn ds k

def Roomy (a : UdpAssembler) : List Datagram → Prop
  | [] => True
  | d :: rest => (∀ h, d.header? = some h → h.sn ∉ a.frames → a.pending < 3) ∧
      ∀ r, a.feed d.bytes d.little = some r → Roomy r.1 rest

def completions (sn : UInt16) (ds : List Datagram) (replies : List (Option Bytes)) : List Bytes :=
  (ds.zip replies).filterMap fun x => if x.1.header?.map Header.sn = some sn then x.2 else none

section words

theorem or_eq_add {x y k : ℕ} (high : 2 ^ k ∣ x) (low : y < 2 ^ k) : x ||| y = x + y := by
  obtain ⟨c, rfl⟩ := high
  exact (Nat.two_pow_add_eq_or_of_lt low c).symm

theorem shifted (n k : ℕ) (small : k ≤ 24) :
    ((UInt8.ofNat n).toUInt32 <<< k.toUInt32).toNat = n % 256 * 2 ^ k := by
  have below : n % 256 * 2 ^ k < 2 ^ 32 :=
    calc n % 256 * 2 ^ k < 2 ^ 8 * 2 ^ k := by
          have byte : n % 256 < 2 ^ 8 := Nat.mod_lt _ (by decide)
          exact Nat.mul_lt_mul_of_pos_right byte (Nat.two_pow_pos k)
      _ = 2 ^ (8 + k) := (Nat.pow_add 2 8 k).symm
      _ ≤ 2 ^ 32 := Nat.pow_le_pow_right (by decide) (by omega)
  have shift : k.toUInt32.toNat % 32 = k := by
    rw [Nat.toUInt32_eq, UInt32.toNat_ofNat']
    omega
  rw [UInt32.toNat_shiftLeft, UInt8.toNat_toUInt32, UInt8.toNat_ofNat', shift, Nat.shiftLeft_eq]
  exact Nat.mod_eq_of_lt below

theorem or_bytes {b₀ b₁ b₂ b₃ : ℕ} (low : b₀ < 256) (second : b₁ < 256) (third : b₂ < 256) :
    b₃ * 2 ^ 24 ||| b₂ * 2 ^ 16 ||| b₁ * 2 ^ 8 ||| b₀ = b₃ * 2 ^ 24 + b₂ * 2 ^ 16 + b₁ * 2 ^ 8 + b₀ := by
  have upper := or_eq_add (x := b₃ * 2 ^ 24) (y := b₂ * 2 ^ 16) (Nat.dvd_mul_left _ _) (by omega)
  have middle := or_eq_add (x := b₃ * 2 ^ 24 + b₂ * 2 ^ 16) (y := b₁ * 2 ^ 8) (k := 16) (by omega) (by omega)
  have all := or_eq_add (x := b₃ * 2 ^ 24 + b₂ * 2 ^ 16 + b₁ * 2 ^ 8) (y := b₀) (k := 8) (by omega) (by omega)
  rw [upper, middle, all]

theorem word_framed (little : Bool) (payload : Bytes) (small : payload.length < 2 ^ 32) :
    ∃ n, word (framed little payload) little 4 4 = some n ∧ n.toNat = payload.length := by
  generalize same : payload.length = n at small
  have parts : n = n % 256 + n / 2 ^ 8 % 256 * 2 ^ 8 + n / 2 ^ 16 % 256 * 2 ^ 16 + n / 2 ^ 24 % 256 * 2 ^ 24 := by omega
  have low : (UInt8.ofNat n).toUInt32.toNat = n % 256 := by simp
  have second : ((UInt8.ofNat (n / 256)).toUInt32 <<< 8).toNat = n / 256 % 256 * 2 ^ 8 := shifted (n / 256) 8 (by decide)
  have third : ((UInt8.ofNat (n / 65536)).toUInt32 <<< 16).toNat = n / 65536 % 256 * 2 ^ 16 :=
    shifted (n / 65536) 16 (by decide)
  have high : ((UInt8.ofNat (n / 16777216)).toUInt32 <<< 24).toNat = n / 16777216 % 256 * 2 ^ 24 :=
    shifted (n / 16777216) 24 (by decide)
  cases little with
  | true =>
    refine ⟨_, by simp [word, read, framed, start_, lengthField, same]; rfl, ?_⟩
    have sum : n / 16777216 % 256 * 2 ^ 24 ||| n / 65536 % 256 * 2 ^ 16 ||| n / 256 % 256 * 2 ^ 8 ||| n % 256 =
        n / 16777216 % 256 * 2 ^ 24 + n / 65536 % 256 * 2 ^ 16 + n / 256 % 256 * 2 ^ 8 + n % 256 :=
      or_bytes (by omega) (by omega) (by omega)
    rw [UInt32.toNat_or, UInt32.toNat_or, UInt32.toNat_or, low, second, third, high]
    calc _ = n / 16777216 % 256 * 2 ^ 24 ||| n / 65536 % 256 * 2 ^ 16 ||| n / 256 % 256 * 2 ^ 8 ||| n % 256 := by ac_rfl
      _ = n := by rw [sum]; omega
  | false =>
    refine ⟨_, by simp [word, read, framed, start_, lengthField, same]; rfl, ?_⟩
    rw [UInt32.toNat_or, UInt32.toNat_or, UInt32.toNat_or, low, second, third, high,
      or_bytes (by omega) (by omega) (by omega)]
    omega

end words

section frames
variable {a : UdpAssembler} {h : Header} {d : Datagram} {f : Frame} {sn : UInt16} {little : Bool} {payload : Bytes}

theorem framed_length (little : Bool) (payload : Bytes) : (framed little payload).length = payload.length + 12 := by
  cases little <;> simp [framed, start_, end_, lengthField]

theorem finish_framed (total : h.total.toNat = (framed little payload).length) :
    a.finish h (framed little payload) little =
      some ({ a with frames := a.frames.erase h.sn, counters.complete := a.counters.complete + 1 }, some payload) := by
  have size := framed_length little payload
  have field : (lengthField little payload.length).length = 4 := by cases little <;> rfl
  have small := h.total.toNat_lt
  obtain ⟨n, reads, value⟩ := word_framed little payload (by omega)
  have first := slice_some (framed little payload) 0 4 (by omega)
  have last := slice_some (framed little payload) ((framed little payload).length - 4) 4 (by omega)
  have out := slice_some (framed little payload) 8 ((framed little payload).length - 4 - 8) (by omega)
  have begins : ((framed little payload).drop 0).take 4 = start_ := by simp [framed, start_]
  have ends : ((framed little payload).drop ((framed little payload).length - 4)).take 4 = end_ := by
    have before : (framed little payload).length - 4 = (start_ ++ lengthField little payload.length ++ payload).length := by
      simp only [framed, end_, List.length_append, List.length_cons, List.length_nil]
      omega
    rw [before, framed, List.drop_left]
    rfl
  have inner : ((framed little payload).drop 8).take ((framed little payload).length - 4 - 8) = payload := by
    have count : (framed little payload).length - 4 - 8 = payload.length := by omega
    have before : (start_ ++ lengthField little payload.length).length = 8 := by simp [start_, field]
    rw [count, framed, List.append_assoc, ← before, List.drop_left, List.take_left]
  have length : n = h.total - 12 := by
    apply UInt32.toNat_inj.mp
    have twelve : (12 : UInt32).toNat = 12 := rfl
    rw [UInt32.toNat_sub_of_le _ _ (UInt32.le_iff_toNat_le.mpr (by omega)), value]
    omega
  simp only [UdpAssembler.finish, first, last, reads, out, begins, ends, inner, length, Option.bind_eq_bind, Option.bind_some]
  simp

structure Holds (f : Frame) (whole : Bytes) (has : ℕ → Prop) : Prop where
  size : f.bytes.length = whole.length
  seen : ∀ k, f.seen[k]? = some true ↔ has k
  bytes : ∀ k, has k → f.bytes[k]? = whole[k]?

variable {has : ℕ → Prop}

theorem fresh_holds {whole : Bytes} (order : ℕ) (none_ : ∀ k, ¬has k) :
    Holds (.fresh whole.length order) whole has where
  size := by simp [Frame.fresh]
  seen k := by simp [Frame.fresh, List.getElem?_replicate, none_]
  bytes k some_ := absurd some_ (none_ k)

def With (has : ℕ → Prop) (h : Header) (k : ℕ) : Prop :=
  has k ∨ h.offset.toNat ≤ k ∧ k < h.offset.toNat + h.length.toNat

theorem stored_holds {f' : Frame} (holds : Holds f (framed little payload) has)
    (carries : Carries d h little payload) (stored : Stored f f' d.bytes h.offset.toNat 0 h.length.toNat) :
    Holds f' (framed little payload) (With has h) where
  size := stored.size.trans holds.size
  seen k := by
    rw [stored.seen]
    split <;> rename_i inside
    · simp only [With, true_iff]
      exact .inr ⟨by omega, by omega⟩
    · rw [holds.seen]
      exact ⟨.inl, fun there => there.resolve_right fun range => inside ⟨by omega, by omega⟩⟩
  bytes k there := by
    rw [stored.bytes]
    split <;> rename_i inside
    · have sent := carries.bytes (k - h.offset.toNat) (by omega)
      rwa [Nat.add_sub_cancel' (by omega)] at sent
    · exact holds.bytes k (there.resolve_right fun range => inside ⟨by omega, by omega⟩)

theorem holds_agrees (holds : Holds f (framed little payload) has)
    (carries : Carries d h little payload) : ¬Clash f d.bytes h.offset.toNat 0 h.length.toNat := by
  rintro ⟨j, -, top, was, differs⟩
  rw [holds.bytes _ ((holds.seen _).mp was), carries.bytes j (by omega)] at differs
  exact differs rfl

theorem received_eq {whole : Bytes} (holds : Holds f whole has) (sound : f.Sound) :
    f.received = whole.length ↔ ∀ k < whole.length, has k := by
  rw [sound.counted, ← holds.size, ← sound.sized, List.count_eq_length]
  constructor
  · intro all k below
    rw [← holds.seen, List.getElem?_eq_getElem below, ← all _ (List.getElem_mem below)]
  · intro all b inside
    obtain ⟨k, below, rfl⟩ := List.getElem_of_mem inside
    have there := (holds.seen k).mpr (all k below)
    rw [List.getElem?_eq_getElem below] at there
    exact (Option.some.inj there).symm

variable {r : UdpAssembler × Option Bytes}

theorem puts_carried (holds : Holds f (framed little payload) has) (carries : Carries d h little payload)
    (lacks : ¬∀ k < (framed little payload).length, has k) (found : a.frames.lookup h.sn = some f)
    (puts : UdpAssembler.Puts a f h d.bytes d.little r) :
    ((∀ k < (framed little payload).length, With has h k) → r.2 = some payload ∧ h.sn ∉ r.1.frames) ∧
      ((¬∀ k < (framed little payload).length, With has h k) →
        r.2 = none ∧ ∃ f', r.1.frames.lookup h.sn = some f' ∧ Holds f' (framed little payload) (With has h)) := by
  have same : f.bytes.length = h.total.toNat := holds.size.trans carries.total.symm
  cases puts with
  | mismatch other => exact absurd same other
  | clash _ clash => exact absurd clash (holds_agrees holds carries)
  | duplicate _ _ seen =>
    have nothing : With has h = has := by
      funext k
      refine propext ⟨fun there => there.elim id fun range => ?_, .inl⟩
      have was := seen (k - h.offset.toNat) (by omega) (by omega)
      rw [Nat.add_sub_cancel' range.1] at was
      exact (holds.seen k).mp was
    rw [nothing]
    exact ⟨fun all => absurd all lacks, fun _ => ⟨rfl, f, found, holds⟩⟩
  | more f' _ _ stored few =>
    have holds' := stored_holds holds carries stored
    rw [carries.total, ne_eq, received_eq holds' stored.sound] at few
    exact ⟨fun all => absurd all few, fun _ => ⟨rfl, f', AList.lookup_insert _, holds'⟩⟩
  | whole f' _ _ stored all r finishes =>
    have holds' := stored_holds holds carries stored
    rw [carries.total, received_eq holds' stored.sound] at all
    have content : f'.bytes = framed little payload := by
      apply List.ext_getElem?
      intro k
      by_cases below : k < (framed little payload).length
      · exact holds'.bytes k (all k below)
      · rw [List.getElem?_eq_none (by rw [holds'.size]; omega), List.getElem?_eq_none (by omega)]
    rw [content, carries.order, finish_framed carries.total] at finishes
    cases finishes
    exact ⟨fun _ => ⟨rfl, by simp⟩, fun few => absurd all few⟩

def Assembling (a : UdpAssembler) (sn : UInt16) (whole : Bytes) (has : ℕ → Prop) : Prop :=
  (sn ∉ a.frames ∧ ∀ k, ¬has k) ∨ ∃ f, a.frames.lookup sn = some f ∧ Holds f whole has

variable {ds : List Datagram}

theorem coversAt_snoc (found : d.header? = some h) : CoversAt h.sn (ds ++ [d]) = With (CoversAt h.sn ds) h := by
  funext k
  apply propext
  constructor
  · rintro ⟨d', inside, h', found', same, range⟩
    rcases List.mem_append.mp inside with before | last
    · exact .inl ⟨d', before, h', found', same, range⟩
    · cases List.mem_singleton.mp last
      rw [found] at found'
      cases found'
      exact .inr range
  · rintro (⟨d', inside, rest⟩ | range)
    · exact ⟨d', List.mem_append_left _ inside, rest⟩
    · exact ⟨d, by simp, h, found, rfl, range⟩

theorem coversAt_other (other : d.header?.map Header.sn ≠ some sn) : CoversAt sn (ds ++ [d]) = CoversAt sn ds := by
  funext k
  apply propext
  constructor
  · rintro ⟨d', inside, h, found, same, range⟩
    rcases List.mem_append.mp inside with before | last
    · exact ⟨d', before, h, found, same, range⟩
    · cases List.mem_singleton.mp last
      exact absurd (by simp [found, same]) other
  · rintro ⟨d', inside, rest⟩
    exact ⟨d', List.mem_append_left _ inside, rest⟩

theorem feed_carried (sound : a.Sound) (found : d.header? = some h)
    (carries : Carries d h little payload) (assembling : Assembling a h.sn (framed little payload) (CoversAt h.sn ds))
    (lacks : ¬Covers h.sn little payload ds) (feeds : a.feed d.bytes d.little = some r) :
    (Covers h.sn little payload (ds ++ [d]) → r.2 = some payload ∧ h.sn ∉ r.1.frames) ∧
      (¬Covers h.sn little payload (ds ++ [d]) →
        r.2 = none ∧ Assembling r.1 h.sn (framed little payload) (CoversAt h.sn (ds ++ [d]))) := by
  have good := (header?_some found).2
  obtain ⟨a₁, f, opens, sound₁, there, was, -⟩ := UdpAssembler.opened_some (h := h) sound (Header.bounds good).1
  obtain ⟨r', assembles, puts⟩ := UdpAssembler.assemble_some d.little opens sound₁ there good
  rw [feed_valid found, assembles] at feeds
  cases feeds
  have holds : Holds f (framed little payload) (CoversAt h.sn ds) := by
    rcases was with ⟨old, rfl⟩ | ⟨out, order, rfl⟩
    · rcases assembling with ⟨out, -⟩ | ⟨f', old', holds⟩
      · exact absurd (AList.lookup_isSome.mp (by rw [old]; rfl)) out
      · rw [old] at old'
        cases old'
        exact holds
    · rcases assembling with ⟨-, none_⟩ | ⟨f', old, -⟩
      · rw [carries.total]
        exact fresh_holds order none_
      · exact absurd (AList.lookup_isSome.mp (by rw [old]; rfl)) out
  have result := puts_carried holds carries lacks there puts
  simp only [Covers, coversAt_snoc found]
  exact ⟨result.1, fun few => ⟨(result.2 few).1, .inr (result.2 few).2⟩⟩

theorem feed_other (sound : a.Sound) (other : d.header?.map Header.sn ≠ some sn)
    (room : ∀ h, d.header? = some h → h.sn ∉ a.frames → a.pending < 3) (feeds : a.feed d.bytes d.little = some r) :
    r.1.frames.lookup sn = a.frames.lookup sn := by
  cases found : d.header? with
  | none =>
    rw [feed_invalid found] at feeds
    cases feeds
    rfl
  | some h =>
    have differs : sn ≠ h.sn := fun same => other (by simp [found, same])
    have good := (header?_some found).2
    obtain ⟨a₁, f, opens, sound₁, there, -, stays⟩ := UdpAssembler.opened_some (h := h) sound (Header.bounds good).1
    obtain ⟨r', assembles, puts⟩ := UdpAssembler.assemble_some d.little opens sound₁ there good
    rw [feed_valid found, assembles] at feeds
    cases feeds
    rw [← stays (room h found) sn differs]
    cases puts with
    | mismatch | clash => exact AList.lookup_erase_ne differs
    | duplicate => rfl
    | more => exact AList.lookup_insert_ne differs
    | whole f' _ _ stored _ _ finishes =>
      obtain ⟨counters, reply, ends⟩ := UdpAssembler.finish_some
        { a₁ with frames := a₁.frames.insert h.sn f' } h d.little stored.sound.low
      rw [ends] at finishes
      cases finishes
      exact (AList.lookup_erase_ne differs).trans (AList.lookup_insert_ne differs)

theorem roomy_left {xs ys : List Datagram} (roomy : Roomy a (xs ++ ys)) : Roomy a xs := by
  induction xs generalizing a with
  | nil => trivial
  | cons d rest ih => exact ⟨roomy.1, fun r feeds => ih (roomy.2 r feeds)⟩

theorem completions_one (sn : UInt16) (d : Datagram) (reply : Option Bytes) :
    completions sn [d] [reply] = if d.header?.map Header.sn = some sn then reply.toList else [] := by
  unfold completions
  split <;> cases reply <;> simp_all

theorem completions_append (sn : UInt16) (xs ys : List Datagram) (r r' : List (Option Bytes)) (size : r.length = xs.length) :
    completions sn (xs ++ ys) (r ++ r') = completions sn xs r ++ completions sn ys r' := by
  rw [completions, List.zip_append size.symm, List.filterMap_append]
  rfl

theorem run_lacking (past : List Datagram) (sound : a.Sound)
    (consistent : ∀ d ∈ ds, ∀ h, d.header? = some h → h.sn = sn → Carries d h little payload) (roomy : Roomy a ds)
    (assembling : Assembling a sn (framed little payload) (CoversAt sn past)) (lacks : ¬Covers sn little payload (past ++ ds)) :
    ∃ a' replies, run a (ds.map .feed) = some (a', replies) ∧ replies.length = ds.length ∧ a'.Sound ∧
      completions sn ds replies = [] ∧ Assembling a' sn (framed little payload) (CoversAt sn (past ++ ds)) := by
  induction ds generalizing a past with
  | nil => exact ⟨a, [], rfl, rfl, sound, rfl, by simpa using assembling⟩
  | cons d rest ih =>
    obtain ⟨r, feeds, sound₁⟩ := feed_some sound d
    have split_ : past ++ d :: rest = past ++ [d] ++ rest := by simp
    have step : completions sn [d] [r.2] = [] ∧ Assembling r.1 sn (framed little payload) (CoversAt sn (past ++ [d])) := by
      by_cases other : d.header?.map Header.sn = some sn
      · obtain ⟨h, found, rfl⟩ := Option.map_eq_some_iff.mp other
        have before : ¬Covers h.sn little payload past := fun all => lacks fun k below => by
          obtain ⟨d', inside, rest⟩ := all k below
          exact ⟨d', List.mem_append_left _ inside, rest⟩
        have few : ¬Covers h.sn little payload (past ++ [d]) := fun all => lacks fun k below => by
          obtain ⟨d', inside, rest⟩ := all k below
          exact ⟨d', by rw [split_]; exact List.mem_append_left _ inside, rest⟩
        obtain ⟨nothing, later⟩ := (feed_carried sound found (consistent d (by simp) h found rfl) assembling before feeds).2 few
        exact ⟨by simp [completions_one, nothing], later⟩
      · refine ⟨by rw [completions_one, if_neg other], ?_⟩
        rw [coversAt_other other]
        have same := feed_other sound other roomy.1 feeds
        rcases assembling with ⟨out, none_⟩ | ⟨f, found, holds⟩
        · refine .inl ⟨?_, none_⟩
          rw [← AList.lookup_eq_none, same, AList.lookup_eq_none]
          exact out
        · exact .inr ⟨f, same.trans found, holds⟩
    obtain ⟨a', replies, runs, size, sound', nothing, later⟩ := ih (past ++ [d]) sound₁ (fun d' inside => consistent d' (by simp [inside]))
      (roomy.2 r feeds) step.2 (by rw [← split_]; exact lacks)
    refine ⟨a', r.2 :: replies, by simp [run, UdpAssembler.call, feeds, runs], by simp [size], sound', ?_, by rw [split_]; exact later⟩
    have parts := completions_append sn [d] rest [r.2] replies rfl
    rw [step.1, nothing] at parts
    exact parts

end frames

/-- In every state at most three assemblies are open, each counts the bytes that it has, and no packet leads out of a
buffer; a packet that conflicts with the bytes there drops its frame. From any such state, a new frame whose packets
come in any order among others is completed by the packet that covers the last byte, not before, with the bytes that
were sent, and is closed. -/
theorem frames_assembled :
    (∀ calls, ∃ a replies, run .init calls = some (a, replies) ∧ a.pending ≤ 3 ∧
      ∀ sn f, a.frames.lookup sn = some f → f.received = f.seen.count true ∧ f.seen.length = f.bytes.length) ∧
    (∀ calls a replies d h f, run .init calls = some (a, replies) → Datagram.header? d = some h →
      a.frames.lookup h.sn = some f →
      f.bytes.length ≠ h.total.toNat ∨ Clash f d.bytes h.offset.toNat 0 h.length.toNat →
      ∃ a', a.feed d.bytes d.little = some (a', none) ∧ h.sn ∉ a'.frames) ∧
    ∀ calls a replies sn little payload ds, run .init calls = some (a, replies) → sn ∉ a.frames →
      (∀ d ∈ ds, ∀ h, d.header? = some h → h.sn = sn → Carries d h little payload) → Roomy a ds →
      ∃ a' replies', run a (ds.map .feed) = some (a', replies') ∧
        (¬Covers sn little payload ds → completions sn ds replies' = []) ∧
        ∀ before d, ds = before ++ [d] → ¬Covers sn little payload before → Covers sn little payload ds →
          completions sn ds replies' = [payload] ∧ replies'.getLast? = some (some payload) ∧ sn ∉ a'.frames := by
  refine ⟨fun calls => ?_, ?_, ?_⟩
  · obtain ⟨a, replies, runs, sound, -⟩ := run_some init_sound calls
    exact ⟨a, replies, runs, sound.few, fun sn f found => ⟨(sound.frames sn f found).counted, (sound.frames sn f found).sized⟩⟩
  · intro calls a replies d h f runs found there conflict
    have sound := reached_sound runs
    have good := (header?_some found).2
    obtain ⟨r, assembles, puts⟩ := UdpAssembler.assemble_some (a := a) d.little
      (if_pos (AList.lookup_isSome.mp (by rw [there]; rfl))) sound there good
    rw [feed_valid found, assembles]
    cases puts with
    | mismatch | clash => exact ⟨_, rfl, by simp [UdpAssembler.drop, UdpAssembler.invalid]⟩
    | duplicate same agrees => exact absurd conflict (by simp [same, agrees])
    | more _ same agrees => exact absurd conflict (by simp [same, agrees])
    | whole _ same agrees => exact absurd conflict (by simp [same, agrees])
  · intro calls a replies sn little payload ds runs closed consistent roomy
    have sound := reached_sound runs
    have begins : Assembling a sn (framed little payload) (CoversAt sn []) :=
      .inl ⟨closed, fun k there => by obtain ⟨d, inside, -⟩ := there; cases inside⟩
    obtain ⟨a', replies', runs', -⟩ := run_some sound (ds.map .feed)
    refine ⟨a', replies', runs', fun lacks => ?_, ?_⟩
    · obtain ⟨a'', replies'', runs'', -, -, nothing, -⟩ := run_lacking [] sound consistent roomy begins lacks
      rw [runs'] at runs''
      cases runs''
      exact nothing
    · rintro before d rfl lacks all
      obtain ⟨a₁, replies₁, runs₁, size, sound₁, nothing, assembling⟩ := run_lacking [] sound
        (fun d' inside => consistent d' (by simp [inside])) (roomy_left roomy) begins lacks
      obtain ⟨⟨a₂, reply⟩, feeds, sound₂⟩ := feed_some sound₁ d
      -- the last packet is one of the frame, or it covers nothing
      have mine : d.header?.map Header.sn = some sn := by
        by_contra other
        rw [Covers, coversAt_other other] at all
        exact lacks all
      obtain ⟨h, found, rfl⟩ := Option.map_eq_some_iff.mp mine
      have whole := (feed_carried sound₁ found (consistent d (by simp) h found rfl) assembling lacks feeds).1 all
      simp only at whole
      have last : run a ((before ++ [d]).map .feed) = some (a₂, replies₁ ++ [reply]) := by
        rw [List.map_append, run_append, runs₁]
        simp [run, UdpAssembler.call, feeds]
      rw [last] at runs'
      cases runs'
      refine ⟨?_, by simp [whole.1], whole.2⟩
      rw [completions_append _ _ _ _ _ size, nothing, completions_one, if_pos mine, whole.1]
      rfl

def Datagram.bench : Datagram where
  bytes := [0, 7, 0, 0, 0, 13, 0, 13] ++ List.replicate 12 0 ++ framed false [5]
  little := false

theorem bench_header : Datagram.bench.header? = some ⟨7, 13, 13, 0⟩ := rfl

theorem bench_carries : Carries .bench ⟨7, 13, 13, 0⟩ false [5] where
  order := rfl
  total := rfl
  bytes := by decide

/-- A packet that comes again after its frame is complete completes it again. -/
theorem bench_completes_again : ¬∀ sn little payload ds, (∀ d ∈ ds, ∀ h, d.header? = some h → h.sn = sn → Carries d h little payload) →
    Roomy .init ds → Covers sn little payload ds →
      ∃ a replies, run .init (ds.map .feed) = some (a, replies) ∧ completions sn ds replies = [payload] := by
  intro once
  have first : (UdpAssembler.init.feed Datagram.bench.bytes Datagram.bench.little).map (fun r => r.1.pending) = some 0 := rfl
  have gives : (run .init ([Datagram.bench, .bench].map .feed)).map Prod.snd = some [some [5], some [5]] := rfl
  obtain ⟨a, replies, runs, one⟩ := once 7 false [5] [.bench, .bench]
    (fun d inside h found _ => by
      have same : d = .bench := by simpa using inside
      subst same
      rw [bench_header] at found
      cases found
      exact bench_carries)
    ⟨fun _ _ _ => by decide, fun r feeds => ⟨fun _ _ _ => by
      rw [feeds] at first
      have none_left : r.1.pending = 0 := Option.some.inj first
      omega, fun _ _ => trivial⟩⟩
    (fun k below => ⟨.bench, by simp, _, bench_header, rfl, Nat.zero_le _, below⟩)
  rw [runs] at gives
  cases gives
  have twice : completions 7 [.bench, .bench] [some [5], some [5]] = [[5], [5]] := rfl
  rw [twice] at one
  cases one

end Smartwheel.Xt
