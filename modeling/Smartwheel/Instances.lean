import Mathlib.Algebra.GroupWithZero.Nat
import Mathlib.Data.Nat.Cast.Defs

/-! Instances, under names, at the types that several parts compute with. -/
namespace Smartwheel

instance neZero_three : NeZero 3 := ⟨by decide⟩

instance neZero_four : NeZero 4 := ⟨by decide⟩

instance atLeastTwo_two : Nat.AtLeastTwo 2 := ⟨by decide⟩

instance atLeastTwo_ten : Nat.AtLeastTwo 10 := ⟨by decide⟩

/-- Paths and names. -/
instance lawful_strings : LawfulBEq (List String) := List.instLawfulBEq

end Smartwheel
