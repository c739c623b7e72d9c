import Mathlib.Logic.Basic

/-! Checks that end with a value or an error, taken apart. -/
namespace Effect
variable {ε α β : Type}

variable {f : α → Except ε β} {x : Except ε α}

theorem bind_eq_ok {b : β} (h : (x >>= f) = .ok b) : ∃ a, x = .ok a ∧ f a = .ok b := by
  cases x with
  | ok a => exact ⟨a, rfl, h⟩
  | error e => cases h

theorem bind_eq_ok_iff {b : β} : (x >>= f) = .ok b ↔ ∃ a, x = .ok a ∧ f a = .ok b := by
  refine ⟨bind_eq_ok, fun ⟨a, first, next⟩ => ?_⟩
  rw [first]
  exact next

theorem bind_of_ok {a : α} {b : β} (h : x = .ok a) (next : f a = .ok b) : (x >>= f) = .ok b := by
  rw [h]
  exact next

variable {e : ε}

theorem bind_eq_error (h : (x >>= f) = .error e) : x = .error e ∨ ∃ a, x = .ok a ∧ f a = .error e := by
  cases x with
  | ok a => exact .inr ⟨a, rfl, h⟩
  | error e' => exact .inl (congrArg _ (Except.error.inj h))

/-- A check that refuses with an error where `c` holds. -/
def refuse (c : Prop) [Decidable c] (e : ε) : Except ε Unit := if c then .error e else .ok ()

variable {c : Prop}

theorem refuse_ok [Decidable c] {u : Unit} (h : refuse c e = .ok u) : ¬c := by
  intro holds
  simp [refuse, holds] at h

theorem refuse_of_not [Decidable c] (h : ¬c) : refuse c e = .ok () := if_neg h

/-- A check that fails with an error unless `c` holds. -/
def require (c : Prop) [Decidable c] (e : ε) : Except ε Unit := if c then .ok () else .error e

theorem require_ok [Decidable c] {u : Unit} (h : require c e = .ok u) : c := by
  unfold require at h
  split at h
  next holds => exact holds
  next => cases h

/-- Whatever `x` fails with satisfies `P`. -/
def Fails (P : ε → Prop) (x : Except ε α) : Prop := ∀ e, x = .error e → P e

namespace Fails
variable {P : ε → Prop} {x : Except ε α} {f : α → Except ε β}

theorem ok (a : α) : Fails P (.ok a : Except ε α) := fun e h => by cases h

theorem error (h : P e) : Fails P (.error e : Except ε α) := fun e' same => by
  cases same
  exact h

theorem bind (first : Fails P x) (next : ∀ a, Fails P (f a)) : Fails P (x >>= f) := fun e h =>
  (bind_eq_error h).elim (first e) fun ⟨a, _, later⟩ => next a e later

theorem refuse [Decidable c] (h : P e) : Fails P (Effect.refuse c e) := by
  unfold Effect.refuse
  split
  · exact error h
  · exact ok ()

end Fails

end Effect
