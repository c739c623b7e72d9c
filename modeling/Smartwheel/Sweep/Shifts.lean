import Mathlib.Algebra.Order.Ring.Int
import Mathlib.Data.List.Basic

/-! Arrays of two dimensions, and how often a pixel agrees with its neighbours, counted by slices that are shifted against each other. -/

structure Grid (α : Type) where
  height : ℕ
  width : ℕ
  cell : ℕ → ℕ → α

namespace Grid
variable {α β γ : Type}

/-- An end of a slice of an axis of length `n`: a negative one counts from the end. -/
def bound (n : ℕ) (i : ℤ) : ℕ := if i < 0 then (i + n).toNat else min i.toNat n

/-- `g[y0:y1, x0:x1]`. -/
def slice (g : Grid α) (y0 y1 x0 x1 : ℤ) : Grid α where
  height := bound g.height y1 - bound g.height y0
  width := bound g.width x1 - bound g.width x0
  cell r c := g.cell (r + bound g.height y0) (c + bound g.width x0)

def zipWith (f : α → β → γ) (g : Grid α) (h : Grid β) : Grid γ := ⟨g.height, g.width, fun r c => f (g.cell r c) (h.cell r c)⟩

/-- `g[y0:y1, x0:x1] += s`, of numbers less than a modulus. -/
def addSlice (modulus : ℕ) (g : Grid ℕ) (y0 y1 x0 x1 : ℤ) (s : Grid ℕ) : Grid ℕ where
  height := g.height
  width := g.width
  cell r c :=
    if (bound g.height y0 ≤ r ∧ r < bound g.height y1) ∧ bound g.width x0 ≤ c ∧ c < bound g.width x1 then
      (g.cell r c + s.cell (r - bound g.height y0) (c - bound g.width x0)) % modulus
    else g.cell r c

/-- The first and the last place of an axis of length `n` that have a place at distance `d`. -/
def start (d : ℤ) : ℤ := max 0 (-d)

def stop (n : ℕ) (d : ℤ) : ℤ := min n (n - d)

def here (g : Grid α) (d : ℤ × ℤ) : Grid α := g.slice (start d.1) (stop g.height d.1) (start d.2) (stop g.width d.2)

def other (g : Grid α) (d : ℤ × ℤ) : Grid α :=
  g.slice (start d.1 + d.1) (stop g.height d.1 + d.1) (start d.2 + d.2) (stop g.width d.2 + d.2)

def shift (agree : α → α → Bool) (modulus : ℕ) (g : Grid α) (support : Grid ℕ) (d : ℤ × ℤ) : Grid ℕ :=
  support.addSlice modulus (start d.1) (stop g.height d.1) (start d.2) (stop g.width d.2)
    ((g.here d).zipWith (fun a b => (agree a b).toNat) (g.other d))

def Inside (g : Grid α) (r c : ℕ) (d : ℤ × ℤ) : Prop := (0 ≤ r + d.1 ∧ r + d.1 < g.height) ∧ 0 ≤ c + d.2 ∧ c + d.2 < g.width

instance (g : Grid α) (r c : ℕ) (d : ℤ × ℤ) : Decidable (g.Inside r c d) := inferInstanceAs (Decidable ((_ ∧ _) ∧ _ ∧ _))

def neighbour (g : Grid α) (r c : ℕ) (d : ℤ × ℤ) : α := g.cell (r + d.1).toNat (c + d.2).toNat

def agreeing (agree : α → α → Bool) (g : Grid α) (r c : ℕ) (directions : List (ℤ × ℤ)) : List (ℤ × ℤ) :=
  directions.filter fun d => g.Inside r c d ∧ agree (g.cell r c) (g.neighbour r c d) = true

section axis
variable {n i : ℕ} {d : ℤ}

theorem window (small : -1 ≤ d ∧ d ≤ 1) (inside : i < n) :
    (bound n (start d) ≤ i ∧ i < bound n (stop n d)) ↔ 0 ≤ i + d ∧ i + d < n := by
  unfold bound start stop
  split
  all_goals
    split
    all_goals omega

theorem window_here (h : bound n (start d) ≤ i) : i - bound n (start d) + bound n (start d) = i := Nat.sub_add_cancel h

theorem window_other (small : -1 ≤ d ∧ d ≤ 1) (inside : i < n) (h : bound n (start d) ≤ i) (there : 0 ≤ i + d ∧ i + d < n) :
    i - bound n (start d) + bound n (start d + d) = (i + d).toNat := by
  rw [bound, if_neg (by unfold start; omega)] at h ⊢
  rw [bound, if_neg (by unfold start; omega)]
  unfold start at h ⊢
  omega

end axis

section count
variable {agree : α → α → Bool} {modulus : ℕ} {g : Grid α} {support : Grid ℕ} {r c : ℕ} {d : ℤ × ℤ} {directions : List (ℤ × ℤ)}

def Near (d : ℤ × ℤ) : Prop := (-1 ≤ d.1 ∧ d.1 ≤ 1) ∧ -1 ≤ d.2 ∧ d.2 ≤ 1

theorem shift_cell (agree : α → α → Bool) (modulus : ℕ) (near : Near d) (same : support.height = g.height ∧ support.width = g.width) (hr : r < g.height) (hc : c < g.width) :
    (shift agree modulus g support d).cell r c =
      if g.Inside r c d then (support.cell r c + (agree (g.cell r c) (g.neighbour r c d)).toNat) % modulus else support.cell r c := by
  have rows := window near.1 hr
  have columns := window near.2 hc
  unfold shift addSlice
  dsimp only
  rw [same.1, same.2]
  by_cases inside : g.Inside r c d
  · have row := rows.mpr inside.1
    have column := columns.mpr inside.2
    rw [if_pos ⟨row, column⟩, if_pos inside]
    unfold zipWith here other slice neighbour
    dsimp only
    rw [window_here row.1, window_here column.1, window_other near.1 hr row.1 inside.1, window_other near.2 hc column.1 inside.2]
  · rw [if_neg fun both => inside ⟨rows.mp both.1, columns.mp both.2⟩, if_neg inside]

theorem agreeing_cons : (agreeing agree g r c (d :: directions)).length =
    (if g.Inside r c d ∧ agree (g.cell r c) (g.neighbour r c d) = true then 1 else 0) + (agreeing agree g r c directions).length := by
  unfold agreeing
  by_cases both : g.Inside r c d ∧ agree (g.cell r c) (g.neighbour r c d) = true
  · rw [if_pos both, List.filter_cons_of_pos (by simpa using both), List.length_cons, Nat.add_comm]
  · rw [if_neg both, List.filter_cons_of_neg (by simpa using both), Nat.zero_add]

theorem foldl_shift (near : ∀ d ∈ directions, Near d) (same : support.height = g.height ∧ support.width = g.width)
    (hr : r < g.height) (hc : c < g.width) (room : support.cell r c + directions.length < modulus) :
    (directions.foldl (shift agree modulus g) support).cell r c = support.cell r c + (agreeing agree g r c directions).length := by
  induction directions generalizing support with
  | nil => rfl
  | cons d rest ih =>
    rw [List.length_cons] at room
    have cell := shift_cell agree modulus (near d (List.mem_cons_self ..)) same hr hc
    have one : (agree (g.cell r c) (g.neighbour r c d)).toNat ≤ 1 := Bool.toNat_le _
    have bounded : (shift agree modulus g support d).cell r c ≤ support.cell r c + 1 := by
      rw [cell]
      split
      · exact (Nat.mod_le _ _).trans (by omega)
      · omega
    have later := @ih (shift agree modulus g support d) (fun d' inside => near d' (List.mem_cons_of_mem _ inside)) same (by omega)
    rw [List.foldl_cons, later, cell, agreeing_cons]
    by_cases inside : g.Inside r c d
    · rw [if_pos inside, Nat.mod_eq_of_lt (by omega)]
      cases agreed : agree (g.cell r c) (g.neighbour r c d) with
      | false =>
        rw [if_neg fun both => Bool.false_ne_true both.2, Bool.toNat_false]
        omega
      | true =>
        rw [if_pos ⟨inside, rfl⟩, Bool.toNat_true]
        omega
    · rw [if_neg inside, if_neg fun both => inside both.1]
      omega

end count

def ofList (width : ℕ) (list : List α) (default : α) (height : ℕ) : Grid α := ⟨height, width, fun r c => list.getD (r * width + c) default⟩

def flatten (g : Grid α) : List α := (List.range (g.height * g.width)).map fun k => g.cell (k / g.width) (k % g.width)

theorem flatten_length (g : Grid α) : g.flatten.length = g.height * g.width := by rw [flatten, List.length_map, List.length_range]

theorem place_lt {h w r c : ℕ} (hr : r < h) (hc : c < w) : r * w + c < h * w := by
  have row := Nat.mul_le_mul_right w (Nat.succ_le_of_lt hr)
  rw [Nat.succ_mul] at row
  omega

theorem flatten_getElem? {g : Grid α} {r c : ℕ} (hr : r < g.height) (hc : c < g.width) : g.flatten[r * g.width + c]? = some (g.cell r c) := by
  have place := place_lt hr hc
  have row : (r * g.width + c) / g.width = r := by
    rw [Nat.mul_comm, Nat.mul_add_div (by omega), Nat.div_eq_of_lt hc, Nat.add_zero]
  have column : (r * g.width + c) % g.width = c := by rw [Nat.mul_comm, Nat.mul_add_mod, Nat.mod_eq_of_lt hc]
  rw [flatten, List.getElem?_map, List.getElem?_range place, Option.map_some, row, column]

end Grid
