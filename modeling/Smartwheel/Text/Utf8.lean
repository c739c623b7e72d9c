import Mathlib.Data.List.Infix

/-! UTF-8 as a decoder reads it: one character after the other, with what it refuses. -/
namespace Utf8

inductive Refusal where
  | startByte | continuation | unexpectedEnd
deriving DecidableEq, Repr

inductive Front where
  | char (c : Char) (size : Nat)
  | bad (reason : Refusal) (size : Nat)
deriving DecidableEq, Repr

/-- The bytes that follow a first one; the next one is between `low` and `high`. -/
def follow (value low high : Nat) : Nat → Nat → List UInt8 → Front
  | 0, seen, _ => .char (Char.ofNat value) seen
  | _ + 1, seen, [] => .bad .unexpectedEnd seen
  | need + 1, seen, b :: rest =>
    if low ≤ b.toNat ∧ b.toNat ≤ high then follow (value * 64 + b.toNat % 64) 0x80 0xBF need (seen + 1) rest
    else .bad .continuation seen

def front (a : UInt8) (rest : List UInt8) : Front :=
  let v := a.toNat
  if v < 0x80 then .char (Char.ofNat v) 1
  else if v < 0xC2 then .bad .startByte 1
  else if v < 0xE0 then follow (v % 32) 0x80 0xBF 1 1 rest
  else if v < 0xF0 then follow (v % 16) (if v = 0xE0 then 0xA0 else 0x80) (if v = 0xED then 0x9F else 0xBF) 2 1 rest
  else if v < 0xF5 then follow (v % 8) (if v = 0xF0 then 0x90 else 0x80) (if v = 0xF4 then 0x8F else 0xBF) 3 1 rest
  else .bad .startByte 1

def decode : Nat → List UInt8 → Except Refusal (List Char)
  | 0, _ => .ok []
  | _ + 1, [] => .ok []
  | fuel + 1, a :: rest =>
    match front a rest with
    | .char c size => (decode fuel (rest.drop (size - 1))).map (c :: ·)
    | .bad reason _ => .error reason

def strict (bytes : List UInt8) : Except Refusal (List Char) := decode bytes.length bytes

def replace : Nat → List UInt8 → List Char
  | 0, _ => []
  | _ + 1, [] => []
  | fuel + 1, a :: rest =>
    match front a rest with
    | .char c size => c :: replace fuel (rest.drop (size - 1))
    | .bad _ size => Char.ofNat 0xFFFD :: replace fuel (rest.drop (size - 1))

def lossy (bytes : List UInt8) : List Char := replace bytes.length bytes

def encode (text : List Char) : List UInt8 := text.flatMap String.utf8EncodeChar

/-! ### The first character -/

theorem toNat_byte {n : Nat} (small : n < 256) : (UInt8.ofNat n).toNat = n := by
  rw [UInt8.toNat_ofNat']
  exact Nat.mod_eq_of_lt small

inductive Bytes (c : Char) : List UInt8 → Prop where
  | one {a : UInt8} : a.toNat = c.toNat → c.toNat < 0x80 → Bytes c [a]
  | two {a b : UInt8} : a.toNat = 0xC0 + c.toNat / 64 → b.toNat = 0x80 + c.toNat % 64 → 0x80 ≤ c.toNat → c.toNat < 0x800 → Bytes c [a, b]
  | three {a b d : UInt8} : a.toNat = 0xE0 + c.toNat / 4096 → b.toNat = 0x80 + c.toNat / 64 % 64 → d.toNat = 0x80 + c.toNat % 64 →
      0x800 ≤ c.toNat → c.toNat < 0x10000 → (c.toNat < 0xD800 ∨ 0xDFFF < c.toNat) → Bytes c [a, b, d]
  | four {a b d e : UInt8} : a.toNat = 0xF0 + c.toNat / 262144 → b.toNat = 0x80 + c.toNat / 4096 % 64 →
      d.toNat = 0x80 + c.toNat / 64 % 64 → e.toNat = 0x80 + c.toNat % 64 → 0x10000 ≤ c.toNat → c.toNat < 0x110000 → Bytes c [a, b, d, e]

theorem utf8EncodeChar_bytes (c : Char) : Bytes c (String.utf8EncodeChar c) := by
  have valid : c.toNat < 0xD800 ∨ (0xDFFF < c.toNat ∧ c.toNat < 0x110000) := c.valid
  have same : c.val.toNat = c.toNat := rfl
  unfold String.utf8EncodeChar
  dsimp only
  rw [same]
  split
  · next one => exact .one (toNat_byte (by omega)) (by omega)
  · next more =>
    split
    · next two => exact .two ((toNat_byte (by omega)).trans (by omega)) ((toNat_byte (by omega)).trans (by omega)) (by omega) (by omega)
    · next more' =>
      split
      · next three =>
        exact .three ((toNat_byte (by omega)).trans (by omega)) ((toNat_byte (by omega)).trans (by omega))
          ((toNat_byte (by omega)).trans (by omega)) (by omega) (by omega) (by omega)
      · next four =>
        exact .four ((toNat_byte (by omega)).trans (by omega)) ((toNat_byte (by omega)).trans (by omega))
          ((toNat_byte (by omega)).trans (by omega)) ((toNat_byte (by omega)).trans (by omega)) (by omega) (by omega)

theorem follow_cons {value low high need seen : Nat} {b : UInt8} {rest : List UInt8} (above : low ≤ b.toNat) (below : b.toNat ≤ high) :
    follow value low high (need + 1) seen (b :: rest) = follow (value * 64 + b.toNat % 64) 0x80 0xBF need (seen + 1) rest :=
  if_pos ⟨above, below⟩

section first
variable {c : Char} {a : UInt8} {more rest part : List UInt8}

theorem front_one (h : a.toNat < 0x80) : front a rest = .char (Char.ofNat a.toNat) 1 := if_pos h

theorem front_two (h : a.toNat = 0xC0 + c.toNat / 64) (low : 0x80 ≤ c.toNat) (high : c.toNat < 0x800) :
    front a rest = follow (c.toNat / 64) 0x80 0xBF 1 1 rest := by
  have value : a.toNat % 32 = c.toNat / 64 := by omega
  unfold front
  dsimp only
  rw [if_neg (by omega), if_neg (by omega), if_pos (by omega), value]

theorem front_three (h : a.toNat = 0xE0 + c.toNat / 4096) (high : c.toNat < 0x10000) :
    front a rest = follow (c.toNat / 4096) (if a.toNat = 0xE0 then 0xA0 else 0x80) (if a.toNat = 0xED then 0x9F else 0xBF) 2 1 rest := by
  have value : a.toNat % 16 = c.toNat / 4096 := by omega
  unfold front
  dsimp only
  rw [if_neg (by omega), if_neg (by omega), if_neg (by omega), if_pos (by omega), value]

theorem front_four (h : a.toNat = 0xF0 + c.toNat / 262144) (high : c.toNat < 0x110000) :
    front a rest = follow (c.toNat / 262144) (if a.toNat = 0xF0 then 0x90 else 0x80) (if a.toNat = 0xF4 then 0x8F else 0xBF) 3 1 rest := by
  have value : a.toNat % 8 = c.toNat / 262144 := by omega
  unfold front
  dsimp only
  rw [if_neg (by omega), if_neg (by omega), if_neg (by omega), if_neg (by omega), if_pos (by omega), value]

theorem front_char (h : Bytes c (a :: more)) : front a (more ++ rest) = .char c (more.length + 1) := by
  cases h with
  | one value small => rw [front_one (by omega), value, Char.ofNat_toNat]; rfl
  | two first second low high =>
    rw [front_two first low high, List.cons_append, follow_cons (by omega) (by omega)]
    have value : c.toNat / 64 * 64 + (0x80 + c.toNat % 64) % 64 = c.toNat := by omega
    rw [follow, second, value, Char.ofNat_toNat]
    rfl
  | three first second third low high valid =>
    rw [front_three first high, List.cons_append, follow_cons (by split <;> omega) (by split <;> omega), List.cons_append,
      follow_cons (by omega) (by omega)]
    have value : (c.toNat / 4096 * 64 + (0x80 + c.toNat / 64 % 64) % 64) * 64 + (0x80 + c.toNat % 64) % 64 = c.toNat := by omega
    rw [follow, second, third, value, Char.ofNat_toNat]
    rfl
  | four first second third fourth low high =>
    rw [front_four first high, List.cons_append, follow_cons (by split <;> omega) (by split <;> omega), List.cons_append,
      follow_cons (by omega) (by omega), List.cons_append, follow_cons (by omega) (by omega)]
    have value : ((c.toNat / 262144 * 64 + (0x80 + c.toNat / 4096 % 64) % 64) * 64 + (0x80 + c.toNat / 64 % 64) % 64) * 64 +
        (0x80 + c.toNat % 64) % 64 = c.toNat := by omega
    rw [follow, second, third, fourth, value, Char.ofNat_toNat]
    rfl

theorem front_short (h : Bytes c (a :: more)) (begins : part <+: more) (short : part ≠ more) :
    front a part = .bad .unexpectedEnd (part.length + 1) := by
  cases h with
  | one value small => exact absurd (List.prefix_nil.mp begins) short
  | two first second low high =>
    rw [front_two first low high]
    cases part with
    | nil => rfl
    | cons b part =>
      obtain ⟨rfl, last⟩ := List.cons_prefix_cons.mp begins
      exact absurd (by rw [List.prefix_nil.mp last]) short
  | three first second third low high valid =>
    rw [front_three first high]
    cases part with
    | nil => rfl
    | cons b part =>
      obtain ⟨rfl, begins'⟩ := List.cons_prefix_cons.mp begins
      rw [follow_cons (by split <;> omega) (by split <;> omega)]
      cases part with
      | nil => rfl
      | cons d part =>
        obtain ⟨rfl, last⟩ := List.cons_prefix_cons.mp begins'
        exact absurd (by rw [List.prefix_nil.mp last]) short
  | four first second third fourth low high =>
    rw [front_four first high]
    cases part with
    | nil => rfl
    | cons b part =>
      obtain ⟨rfl, begins'⟩ := List.cons_prefix_cons.mp begins
      rw [follow_cons (by split <;> omega) (by split <;> omega)]
      cases part with
      | nil => rfl
      | cons d part =>
        obtain ⟨rfl, begins''⟩ := List.cons_prefix_cons.mp begins'
        rw [follow_cons (by omega) (by omega)]
        cases part with
        | nil => rfl
        | cons e part =>
          obtain ⟨rfl, last⟩ := List.cons_prefix_cons.mp begins''
          exact absurd (by rw [List.prefix_nil.mp last]) short

end first

/-! ### Texts -/

section texts
variable {c : Char} {text : List Char} {bytes part rest : List UInt8}

theorem encodeChar_cons (c : Char) : ∃ a more, String.utf8EncodeChar c = a :: more ∧ Bytes c (a :: more) ∧ more.length ≤ 3 := by
  have h := utf8EncodeChar_bytes c
  cases shape : String.utf8EncodeChar c with
  | nil =>
    rw [shape] at h
    cases h
  | cons a more =>
    rw [shape] at h
    refine ⟨a, more, rfl, h, ?_⟩
    cases h <;> simp

theorem encode_cons : encode (c :: text) = String.utf8EncodeChar c ++ encode text := List.flatMap_cons ..

theorem encode_append (text other : List Char) : encode (text ++ other) = encode text ++ encode other := List.flatMap_append ..

theorem decode_enough (fuel : Nat) (bytes : List UInt8) (enough : bytes.length ≤ fuel) : decode fuel bytes = strict bytes := by
  unfold strict
  induction fuel using Nat.strong_induction_on generalizing bytes with
  | _ fuel ih =>
    cases bytes with
    | nil => cases fuel <;> rfl
    | cons a rest =>
      obtain ⟨fuel, rfl⟩ : ∃ n, fuel = n + 1 := ⟨fuel - 1, by simp at enough; omega⟩
      rw [List.length_cons] at enough ⊢
      unfold decode
      cases front a rest with
      | bad reason size => rfl
      | char c size =>
        have shorter : (rest.drop (size - 1)).length ≤ rest.length := by
          rw [List.length_drop]
          omega
        dsimp only
        rw [ih fuel (by omega) _ (by omega)]
        by_cases same : rest.length = fuel
        · rw [same, ih fuel (by omega) _ (by omega)]
        · rw [ih rest.length (by omega) _ shorter]

theorem strict_cons (c : Char) (rest : List UInt8) : strict (String.utf8EncodeChar c ++ rest) = (strict rest).map (c :: ·) := by
  obtain ⟨a, more, shape, h, -⟩ := encodeChar_cons c
  rw [shape, List.cons_append]
  unfold strict
  rw [List.length_cons, decode, front_char h]
  dsimp only
  rw [Nat.add_sub_cancel, List.drop_left, decode_enough _ rest (by simp)]
  rfl

theorem strict_append (text : List Char) (rest : List UInt8) : strict (encode text ++ rest) = (strict rest).map (text ++ ·) := by
  induction text with
  | nil =>
    rw [encode, List.flatMap_nil, List.nil_append]
    cases strict rest <;> rfl
  | cons c text ih =>
    rw [encode_cons, List.append_assoc, strict_cons, ih]
    cases strict rest <;> rfl

theorem strict_encode (text : List Char) : strict (encode text) = .ok text := by
  have h := strict_append text []
  rw [List.append_nil] at h
  rw [h]
  exact congrArg _ (List.append_nil text)

def Cut (part : List UInt8) : Prop := part ≠ [] ∧ ∃ c, part <+: String.utf8EncodeChar c ∧ part ≠ String.utf8EncodeChar c

theorem Cut.length (cut : Cut part) : part.length ≤ 3 := by
  obtain ⟨-, c, begins, short⟩ := cut
  obtain ⟨a, more, shape, -, few⟩ := encodeChar_cons c
  have bound := begins.length_le
  rw [shape, List.length_cons] at bound
  by_contra long
  exact short (begins.eq_of_length (by rw [shape, List.length_cons]; omega))

theorem Cut.shorter (cut : Cut part) (begins : rest <+: part) (some_ : rest ≠ []) : Cut rest := by
  obtain ⟨-, c, whole, short⟩ := cut
  refine ⟨some_, c, begins.trans whole, fun same => ?_⟩
  subst same
  exact short (whole.eq_of_length_le begins.length_le)

theorem strict_cut (cut : Cut part) : strict part = .error .unexpectedEnd := by
  obtain ⟨some_, c, begins, short⟩ := cut
  obtain ⟨a, more, shape, h, -⟩ := encodeChar_cons c
  cases part with
  | nil => exact absurd rfl some_
  | cons b part =>
    rw [shape] at begins short
    obtain ⟨rfl, last⟩ := List.cons_prefix_cons.mp begins
    unfold strict
    rw [List.length_cons, decode, front_short h last fun same => short (by rw [same])]

theorem strict_encode_cut (text : List Char) (cut : Cut part) : strict (encode text ++ part) = .error .unexpectedEnd := by
  rw [strict_append, strict_cut cut]
  rfl

theorem prefix_encode (begins : bytes <+: encode text) : ∃ whole part, bytes = encode whole ++ part ∧ (part = [] ∨ Cut part) := by
  induction text generalizing bytes with
  | nil => exact ⟨[], [], List.prefix_nil.mp begins, .inl rfl⟩
  | cons c text ih =>
    rw [encode_cons] at begins
    by_cases all : String.utf8EncodeChar c <+: bytes
    · obtain ⟨rest, rfl⟩ := all
      obtain ⟨whole, part, rfl, kind⟩ := ih ((List.prefix_append_right_inj _).mp begins)
      exact ⟨c :: whole, part, by rw [encode_cons, List.append_assoc], kind⟩
    · have short : bytes <+: String.utf8EncodeChar c :=
        (List.prefix_or_prefix_of_prefix begins (List.prefix_append ..)).resolve_right all
      refine ⟨[], bytes, rfl, ?_⟩
      by_cases none : bytes = []
      · exact .inl none
      · exact .inr ⟨none, c, short, fun same => all (by rw [same])⟩

theorem encode_prefix_iff (text other : List Char) : encode text <+: encode other ↔ text <+: other := by
  constructor
  · rintro ⟨rest, same⟩
    have read := strict_append text rest
    rw [same, strict_encode] at read
    cases shape : strict rest with
    | ok last =>
      rw [shape] at read
      exact ⟨last, (Except.ok.inj read).symm⟩
    | error reason =>
      rw [shape] at read
      cases read
  · rintro ⟨rest, rfl⟩
    exact ⟨encode rest, (encode_append text rest).symm⟩

end texts

end Utf8
