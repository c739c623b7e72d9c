import Mathlib.Algebra.Group.Int.Defs
import Mathlib.Algebra.GroupWithZero.Nat
import Mathlib.Order.Lattice
import Mathlib.Data.Nat.Basic

/-! What a strict encoder makes of the values that a lenient parser reads: how long the text is in UTF-8, and which values it refuses. -/
namespace StrictJson

/-- A string by the numbers of its characters, of which some may be surrogates. -/
abbrev Text := List ℕ

def Text.of (s : String) : Text := s.toList.map Char.toNat

def surrogate (c : ℕ) : Bool := 0xD800 ≤ c && c ≤ 0xDFFF

def codeSize (c : ℕ) : ℕ :=
  if c = 0x22 ∨ c = 0x5C ∨ c = 8 ∨ c = 9 ∨ c = 10 ∨ c = 12 ∨ c = 13 then 2
  else if c < 0x20 then 6
  else if c < 0x80 then 1
  else if c < 0x800 then 2
  else if c < 0x10000 then 3
  else 4

def Text.size (s : Text) : ℕ := 2 + (s.map codeSize).sum

inductive Number where
  | nan | infinity | negativeInfinity
  | finite (text : String)
deriving DecidableEq, Repr

def Number.text : Number → String
  | .nan => "NaN"
  | .infinity => "Infinity"
  | .negativeInfinity => "-Infinity"
  | .finite text => text

def Number.isFinite : Number → Bool
  | .finite _ => true
  | _ => false

inductive Kind where
  | value | items | fields

inductive Json : Kind → Type where
  | null : Json .value
  | bool (b : Bool) : Json .value
  | int (n : ℤ) : Json .value
  | float (x : Number) : Json .value
  | text (s : Text) : Json .value
  | array (items : Json .items) : Json .value
  | object (fields : Json .fields) : Json .value
  | nil : Json .items
  | cons (head : Json .value) (tail : Json .items) : Json .items
  | empty : Json .fields
  | field (key : Text) (value : Json .value) (rest : Json .fields) : Json .fields
deriving DecidableEq

abbrev Value := Json .value
abbrev Fields := Json .fields

namespace Json
variable {k : Kind}

def gap : Json k → ℕ
  | .nil => 0
  | .empty => 0
  | _ => 2

def size {k : Kind} : Json k → ℕ
  | .null => 4
  | .bool b => if b then 4 else 5
  | .int n => (toString n).length
  | .float x => x.text.length
  | .text s => Text.size s
  | .array items => 2 + items.size
  | .object fields => 2 + fields.size
  | .nil => 0
  | .cons head tail => head.size + (tail.gap + tail.size)
  | .empty => 0
  | .field key value rest => Text.size key + 2 + value.size + (rest.gap + rest.size)

def depth {k : Kind} : Json k → ℕ
  | .array items => items.depth + 1
  | .object fields => fields.depth + 1
  | .cons head tail => max head.depth tail.depth
  | .field _ value rest => max value.depth rest.depth
  | _ => 0

def compliant {k : Kind} : Json k → Bool
  | .float x => x.isFinite
  | .array items => items.compliant
  | .object fields => fields.compliant
  | .cons head tail => head.compliant && tail.compliant
  | .field _ value rest => value.compliant && rest.compliant
  | _ => true

def encodable {k : Kind} : Json k → Bool
  | .text s => !s.any surrogate
  | .array items => items.encodable
  | .object fields => fields.encodable
  | .cons head tail => head.encodable && tail.encodable
  | .field key value rest => !key.any surrogate && value.encodable && rest.encodable
  | _ => true

def lookup {k : Kind} (key : Text) : Json k → Option Value
  | .field name value rest => if name = key then some value else rest.lookup key
  | _ => none

/-- `get`, with nothing as `null`. -/
def get (fields : Fields) (key : Text) : Value := (fields.lookup key).getD .null

def keys {k : Kind} : Json k → List Text
  | .field name _ rest => name :: rest.keys
  | _ => []

inductive Refusal where
  | recursion | outOfRange | surrogates | tooLong
deriving DecidableEq, Repr

def refusal (limit room : ℕ) (v : Value) : Option Refusal :=
  if limit < v.depth then some .recursion
  else if ¬v.compliant then some .outOfRange
  else if ¬v.encodable then some .surrogates
  else if room < v.size then some .tooLong
  else none

structure Strict (limit : ℕ) (j : Json k) : Prop where
  shallow : j.depth ≤ limit
  compliant : j.compliant
  encodable : j.encodable

theorem refusal_eq_none {limit room : ℕ} {v : Value} : v.refusal limit room = none ↔ Strict limit v ∧ v.size ≤ room := by
  unfold refusal
  constructor
  · intro h
    split at h
    · cases h
    next shallow =>
    split at h
    · cases h
    next compliant =>
    split at h
    · cases h
    next encodable =>
    split at h
    · cases h
    next fits => exact ⟨⟨not_lt.mp shallow, not_not.mp compliant, not_not.mp encodable⟩, not_lt.mp fits⟩
  · rintro ⟨strict, fits⟩
    rw [if_neg (not_lt.mpr strict.shallow), if_neg (not_not.mpr strict.compliant), if_neg (not_not.mpr strict.encodable),
      if_neg (not_lt.mpr fits)]

theorem of_encodable (s : String) : (Text.of s).any surrogate = false := by
  rw [List.any_eq_false]
  intro c inside
  obtain ⟨char, -, rfl⟩ := List.mem_map.mp inside
  have valid : char.toNat < 0xD800 ∨ (0xDFFF < char.toNat ∧ char.toNat < 0x110000) := char.valid
  simp only [surrogate, Bool.and_eq_true, decide_eq_true_eq]
  omega

section
variable {limit : ℕ}

theorem strict_text {s : Text} : Strict limit (.text s) ↔ s.any surrogate = false := by
  constructor
  · intro h
    simpa [encodable] using h.encodable
  · intro h
    exact ⟨Nat.zero_le _, rfl, by simp [encodable, h]⟩

theorem strict_object {fields : Fields} : Strict limit (.object fields) ↔ 1 ≤ limit ∧ Strict (limit - 1) fields := by
  constructor
  · rintro ⟨shallow, compliant, encodable⟩
    simp only [depth] at shallow
    exact ⟨by omega, by omega, compliant, encodable⟩
  · rintro ⟨positive, shallow, compliant, encodable⟩
    refine ⟨?_, compliant, encodable⟩
    simp only [depth]
    omega

theorem strict_field {key : Text} {value : Value} {rest : Fields} :
    Strict limit (.field key value rest) ↔ key.any surrogate = false ∧ Strict limit value ∧ Strict limit rest := by
  constructor
  · rintro ⟨shallow, compliant, encodable⟩
    simp only [depth, Json.compliant, Json.encodable, Bool.and_eq_true, Bool.not_eq_true', Nat.max_le] at shallow compliant encodable
    exact ⟨encodable.1.1, ⟨shallow.1, compliant.1, encodable.1.2⟩, shallow.2, compliant.2, encodable.2⟩
  · rintro ⟨key, value, rest⟩
    refine ⟨max_le value.shallow rest.shallow, ?_, ?_⟩
    · simp only [Json.compliant, value.compliant, rest.compliant, Bool.and_self]
    · simp only [Json.encodable, key, value.encodable, rest.encodable, Bool.not_false, Bool.and_self]

theorem strict_of_flat {v : Value} (flat : v.depth = 0) (compliant : v.compliant) (encodable : v.encodable) : Strict limit v :=
  ⟨flat ▸ Nat.zero_le _, compliant, encodable⟩

end
end Json
end StrictJson
