import Mathlib.Algebra.Order.Field.Basic
import Mathlib.Analysis.Real.Sqrt

/-! Numbers with infinities and without a value, as floating-point arithmetic has them, computed with exactly. -/
namespace Extended

/-- An ordered field with square roots. -/
class Exact (K : Type) extends Field K, LinearOrder K, IsStrictOrderedRing K where
  root : K → K
  root_nonneg : ∀ x, 0 ≤ root x
  root_mul_self : ∀ x, 0 ≤ x → root x * root x = x

namespace Exact
variable {K : Type} [Exact K] {x y c : K}

end Exact

noncomputable instance : Exact ℝ where
  root := Real.sqrt
  root_nonneg := Real.sqrt_nonneg
  root_mul_self _ := Real.mul_self_sqrt

inductive Number (K : Type) where
  | nan
  | inf (negative : Bool)
  | finite (x : K)

namespace Number
variable {K : Type} [Exact K]

def add : Number K → Number K → Number K
  | .finite x, .finite y => .finite (x + y)
  | .nan, _ => .nan
  | _, .nan => .nan
  | .inf a, .inf b => if a = b then .inf a else .nan
  | .inf a, .finite _ => .inf a
  | .finite _, .inf b => .inf b

def neg : Number K → Number K
  | .nan => .nan
  | .inf a => .inf !a
  | .finite x => .finite (-x)

def sub (a b : Number K) : Number K := a.add b.neg

def scaled (x : K) (negative : Bool) : Number K := if x = 0 then .nan else .inf (decide (x < 0) != negative)

def mul : Number K → Number K → Number K
  | .finite x, .finite y => .finite (x * y)
  | .nan, _ => .nan
  | _, .nan => .nan
  | .inf a, .inf b => .inf (a != b)
  | .inf a, .finite y => scaled y a
  | .finite x, .inf b => scaled x b

def maximum : Number K → Number K → Number K
  | .finite x, .finite y => .finite (max x y)
  | .nan, _ => .nan
  | _, .nan => .nan
  | .inf true, b => b
  | a, .inf true => a
  | .inf false, _ => .inf false
  | _, .inf false => .inf false

def sqrt : Number K → Number K
  | .nan => .nan
  | .inf a => if a then .nan else .inf false
  | .finite x => if x < 0 then .nan else .finite (Exact.root x)

def Le : Number K → Number K → Prop
  | .finite x, .finite y => x ≤ y
  | .nan, _ => False
  | _, .nan => False
  | .inf a, .inf b => a = true ∨ b = false
  | .inf a, .finite _ => a = true
  | .finite _, .inf b => b = false

instance : (a b : Number K) → Decidable (a.Le b)
  | .finite x, .finite y => inferInstanceAs (Decidable (x ≤ y))
  | .nan, .nan => isFalse id
  | .nan, .inf _ => isFalse id
  | .nan, .finite _ => isFalse id
  | .inf _, .nan => isFalse id
  | .finite _, .nan => isFalse id
  | .inf a, .inf b => inferInstanceAs (Decidable (a = true ∨ b = false))
  | .inf a, .finite _ => inferInstanceAs (Decidable (a = true))
  | .finite _, .inf b => inferInstanceAs (Decidable (b = false))

def isFinite : Number K → Bool
  | .finite _ => true
  | _ => false

def isPositive : Number K → Bool
  | .nan => false
  | .inf a => !a
  | .finite x => decide (0 < x)

def Nonneg : Number K → Prop
  | .nan => True
  | .inf a => a = false
  | .finite x => 0 ≤ x

variable {a b : Number K}

theorem Nonneg.add (ha : a.Nonneg) (hb : b.Nonneg) : (a.add b).Nonneg := by
  cases a with
  | nan => cases b <;> trivial
  | inf s =>
    cases ha
    cases b with
    | nan => trivial
    | inf t =>
      cases hb
      rfl
    | finite y => rfl
  | finite x =>
    cases b with
    | nan => trivial
    | inf t => exact hb
    | finite y => exact add_nonneg ha hb

theorem nonneg_mul_self (a : Number K) : (a.mul a).Nonneg := by
  cases a with
  | nan => trivial
  | inf s => cases s <;> rfl
  | finite x => exact mul_self_nonneg x

theorem Nonneg.scale {x : K} (hx : 0 ≤ x) (hb : b.Nonneg) : ((Number.finite x).mul b).Nonneg := by
  cases b with
  | nan => trivial
  | inf t =>
    cases hb
    change (scaled x false).Nonneg
    unfold scaled
    split
    · trivial
    · simpa [Nonneg] using hx
  | finite y => exact mul_nonneg hx hb

theorem Nonneg.maximum (ha : a.Nonneg) (hb : b.Nonneg) : (a.maximum b).Nonneg := by
  cases a with
  | nan => cases b <;> trivial
  | inf s =>
    cases ha
    cases b with
    | nan => trivial
    | inf t =>
      cases hb
      rfl
    | finite y => rfl
  | finite x =>
    cases b with
    | nan => trivial
    | inf t =>
      cases hb
      rfl
    | finite y => exact le_max_of_le_left ha

theorem nonneg_sqrt (a : Number K) : a.sqrt.Nonneg := by
  cases a with
  | nan => trivial
  | inf s => cases s <;> trivial
  | finite x =>
    change (if x < 0 then nan else finite (Exact.root x)).Nonneg
    split
    · trivial
    · exact Exact.root_nonneg x

theorem sqrt_le_iff (ha : a.Nonneg) (hb : b.Nonneg) : a.sqrt.Le b ↔ a.Le (b.mul b) := by
  cases a with
  | nan => cases b <;> exact Iff.rfl
  | inf s =>
    cases ha
    cases b with
    | nan => exact Iff.rfl
    | inf t =>
      cases hb
      exact Iff.rfl
    | finite y => exact Iff.rfl
  | finite x =>
    have root : (Number.finite x).sqrt = .finite (Exact.root x) := if_neg (not_lt.mpr ha)
    rw [root]
    cases b with
    | nan => exact Iff.rfl
    | inf t =>
      cases hb
      exact Iff.rfl
    | finite y =>
      change Exact.root x ≤ y ↔ x ≤ y * y
      rw [mul_self_le_mul_self_iff (Exact.root_nonneg x) hb, Exact.root_mul_self x ha]

end Number

end Extended
