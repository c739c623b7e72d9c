import Mathlib.Algebra.Group.Basic

/-! Graphs whose edges carry elements of a monoid: products along walks, when a product depends on its ends only, and
what a search that keeps the first product it finds may conclude. -/
namespace Gain
variable {V M : Type*} [Monoid M]

/-- `g` is the product along a walk from `u`, one edge after the other. -/
inductive Walk (E : V → V → M → Prop) (u : V) : V → M → Prop
  | nil : Walk E u u 1
  | snoc {v w : V} {g h : M} : Walk E u v g → E v w h → Walk E u w (g * h)

def Reversible (E : V → V → M → Prop) : Prop := ∀ u v g, E u v g → ∃ h, E v u h

def Balanced (E : V → V → M → Prop) : Prop := ∀ v g, Walk E v v g → g = 1

variable {E E' : V → V → M → Prop} {u v w : V} {g h : M}

namespace Walk

theorem single (he : E u v g) : Walk E u v g := by
  simpa using Walk.nil.snoc he

theorem trans (hg : Walk E u v g) (hh : Walk E v w h) : Walk E u w (g * h) := by
  induction hh with
  | nil => simpa using hg
  | snoc _ he ih => simpa [mul_assoc] using ih.snoc he

theorem back (rev : Reversible E) (hg : Walk E u v g) : ∃ h, Walk E v u h := by
  induction hg with
  | nil => exact ⟨1, .nil⟩
  | snoc _ he ih =>
    obtain ⟨k, hk⟩ := ih
    obtain ⟨l, hl⟩ := rev _ _ _ he
    exact ⟨l * k, (single hl).trans hk⟩

end Walk

namespace Balanced

theorem mul_eq_one (bal : Balanced E) (hg : Walk E u v g) (hh : Walk E v u h) : g * h = 1 := bal u _ (hg.trans hh)

theorem unique (bal : Balanced E) (rev : Reversible E) (hg : Walk E u v g) (hh : Walk E u v h) : g = h := by
  obtain ⟨k, hk⟩ := hh.back rev
  calc
    g = g * (k * h) := by rw [bal.mul_eq_one hk hh, mul_one]
    _ = g * k * h := (mul_assoc g k h).symm
    _ = h := by rw [bal.mul_eq_one hg hk, one_mul]

end Balanced

/-- A search from `origin` has `found` these products, and has still `todo` these edges. -/
structure Explored (E : V → V → M → Prop) (origin : V) (found : V → Option M) (todo : V → V → M → Prop) : Prop where
  root : found origin = some 1
  walk : ∀ v g, found v = some g → Walk E origin v g
  agree : ∀ v w g h, found v = some g → E v w h → todo v w h ∨ found w = some (g * h)

namespace Explored
variable {origin : V} {found : V → Option M} {todo todo' : V → V → M → Prop}

theorem weaken (ex : Explored E origin found todo) (ht : ∀ v w h, E v w h → todo v w h → todo' v w h) :
    Explored E origin found todo' where
  root := ex.root
  walk := ex.walk
  agree v w g h hg he := (ex.agree v w g h hg he).imp_left (ht v w h he)

theorem start [DecidableEq V] (origin : V) :
    Explored E origin (fun v => if v = origin then some 1 else none) (fun v _ _ => v = origin) where
  root := by simp
  walk v g hg := by
    obtain ⟨rfl, rfl⟩ : v = origin ∧ (1 : M) = g := by simpa using hg
    exact .nil
  agree v _ _ _ hg _ := by
    have hv : v = origin := by
      by_contra hv
      simp [hv] at hg
    exact .inl hv

theorem checked (ex : Explored E origin found todo) (hg : found v = some g) (hw : found w = some (g * h)) :
    Explored E origin found (fun a b k => todo a b k ∧ ¬(a = v ∧ b = w ∧ k = h)) where
  root := ex.root
  walk := ex.walk
  agree a b k l hk he := by
    rcases ex.agree a b k l hk he with ht | hb
    · by_cases same : a = v ∧ b = w ∧ l = h
      · obtain ⟨rfl, rfl, rfl⟩ := same
        have hkg : k = g := Option.some.inj (hk.symm.trans hg)
        exact .inr (hkg ▸ hw)
      · exact .inl ⟨ht, same⟩
    · exact .inr hb

theorem extended [DecidableEq V] (ex : Explored E origin found todo) (hg : found v = some g) (he : E v w h)
    (new : found w = none) :
    Explored E origin (fun a => if a = w then some (g * h) else found a)
      (fun a b k => (todo a b k ∧ ¬(a = v ∧ b = w ∧ k = h)) ∨ a = w) := by
  have hvw : v ≠ w := fun same => by simp [← same, hg] at new
  have ho : origin ≠ w := fun same => by simp [← same, ex.root] at new
  refine ⟨by simpa [ho] using ex.root, fun a k hk => ?_, fun a b k l hk hab => ?_⟩
  · by_cases haw : a = w
    · subst haw
      have hk : g * h = k := by simpa using hk
      exact hk ▸ (ex.walk v g hg).snoc he
    · exact ex.walk a k (by simpa [haw] using hk)
  · by_cases haw : a = w
    · exact .inl (.inr haw)
    have old : found a = some k := by simpa [haw] using hk
    rcases ex.agree a b k l old hab with ht | hb
    · by_cases same : a = v ∧ b = w ∧ l = h
      · obtain ⟨rfl, rfl, rfl⟩ := same
        have hkg : k = g := Option.some.inj (old.symm.trans hg)
        exact .inr (by simp [hkg])
      · exact .inl (.inl ⟨ht, same⟩)
    · have hbw : b ≠ w := fun same => by simp [same, new] at hb
      exact .inr (by simpa [hbw] using hb)

theorem finished (ex : Explored E origin found fun _ _ _ => False) (v : V) (g : M) :
    found v = some g ↔ Walk E origin v g := by
  refine ⟨ex.walk v g, fun hg => ?_⟩
  induction hg with
  | nil => exact ex.root
  | snoc _ he ih => exact (ex.agree _ _ _ _ ih he).resolve_left id

theorem conflict (ex : Explored E origin found todo) (rev : Reversible E) (hg : found v = some g) (he : E v w h)
    {k : M} (hk : found w = some k) (other : k ≠ g * h) : ¬Balanced E := by
  intro bal
  have direct : Walk E origin w (g * h) := (ex.walk v g hg).snoc he
  exact other (bal.unique rev (ex.walk w k hk) direct)

end Explored
end Gain
