import Mathlib.Logic.Relation
import Mathlib.Data.List.TakeWhile

/-! Histories, newest event first: what happened since a mark, and properties every event has
relative to what came before it. Paths of a step relation and the invariants they keep. -/
namespace Effect
variable {ε σ : Type*}

def since (mark : ε → Bool) (h : List ε) : List ε := h.takeWhile fun e => !mark e

theorem since_cons (mark : ε → Bool) (e : ε) (h : List ε) :
    since mark (e :: h) = if mark e then [] else e :: since mark h := by
  cases hm : mark e <;> simp [since, hm]

@[simp] theorem since_cons_mark {mark : ε → Bool} {e : ε} (h : List ε) (hm : mark e = true) :
    since mark (e :: h) = [] := by simp [since_cons, hm]

@[simp] theorem since_cons_plain {mark : ε → Bool} {e : ε} (h : List ε) (hm : mark e = false) :
    since mark (e :: h) = e :: since mark h := by simp [since_cons, hm]

theorem since_append {mark : ε → Bool} {es : List ε} (h : List ε)
    (hes : ∀ e ∈ es, mark e = false) : since mark (es ++ h) = es ++ since mark h := by
  induction es with
  | nil => rfl
  | cons e es ih =>
    have he : mark e = false := hes e (by simp)
    have ht : ∀ e ∈ es, mark e = false := fun x hx => hes x (List.mem_cons_of_mem e hx)
    simp [he, ih ht]

theorem mem_of_mem_since {mark : ε → Bool} {h : List ε} {e : ε} (he : e ∈ since mark h) : e ∈ h :=
  List.takeWhile_sublist _ |>.subset he

/-- `e` happened, and nothing marked after it; `earlier` is what was before. -/
def Latest (mark : ε → Bool) (e : ε) (earlier h : List ε) : Prop :=
  ∃ after, h = after ++ e :: earlier ∧ ∀ x ∈ after, mark x = false

namespace Latest
variable {mark : ε → Bool} {e : ε} {earlier h l : List ε}

theorem now (mark : ε → Bool) (e : ε) (h : List ε) : Latest mark e h (e :: h) := ⟨[], rfl, by simp⟩

theorem append (he : Latest mark e earlier h) (hl : ∀ x ∈ l, mark x = false) :
    Latest mark e earlier (l ++ h) := by
  obtain ⟨after, rfl, ha⟩ := he
  refine ⟨l ++ after, by rw [List.append_assoc], fun x hx => ?_⟩
  rcases List.mem_append.mp hx with hx | hx
  · exact hl x hx
  · exact ha x hx

theorem cons {x : ε} (he : Latest mark e earlier h) (hx : mark x = false) :
    Latest mark e earlier (x :: h) := he.append (l := [x]) (by simpa using hx)

theorem eq_since (he : Latest mark e earlier h) (hm : mark e = true) : h = since mark h ++ e :: earlier := by
  obtain ⟨after, rfl, ha⟩ := he
  rw [since_append _ ha, since_cons_mark _ hm, List.append_nil]

end Latest

/-- Every event satisfies `P` relative to the history before it. -/
def Always (P : ε → List ε → Prop) : List ε → Prop
  | [] => True
  | e :: h => P e h ∧ Always P h

instance Always.decidable {P : ε → List ε → Prop} [∀ e h, Decidable (P e h)] : ∀ h, Decidable (Always P h)
  | [] => isTrue trivial
  | e :: h =>
    have : Decidable (Always P h) := Always.decidable h
    inferInstanceAs (Decidable (P e h ∧ Always P h))

theorem Always.split {P : ε → List ε → Prop} {h later earlier : List ε} {e : ε}
    (ha : Always P h) (hs : h = later ++ e :: earlier) : P e earlier := by
  subst hs
  induction later with
  | nil => exact ha.1
  | cons x later ih => exact ih ha.2

/-- Events that satisfy `P` after any history may follow. -/
theorem Always.append {P : ε → List ε → Prop} {es h : List ε} (ha : Always P h)
    (hes : ∀ e ∈ es, ∀ earlier, P e earlier) : Always P (es ++ h) := by
  induction es with
  | nil => exact ha
  | cons e es ih =>
    exact ⟨hes e (by simp) _, ih fun x hx => hes x (List.mem_cons_of_mem e hx)⟩

/-- Steps of a relation, any number of them. -/
abbrev Path (R : σ → σ → Prop) : σ → σ → Prop := Relation.ReflTransGen R

namespace Path
variable {R S : σ → σ → Prop} {a b c : σ}

theorem single (h : R a b) : Path R a b := Relation.ReflTransGen.single h

theorem keeps {P : σ → Prop} (hR : ∀ a b, R a b → P a → P b) (h : Path R a b) (ha : P a) : P b := by
  induction h with
  | refl => exact ha
  | tail _ hstep ih => exact hR _ _ hstep ih

/-- What every step keeps while `Q` holds, every path keeps that ends with `Q`, where `Q` was true before
it is true later. -/
theorem keeps_while {P Q : σ → Prop} (hQ : ∀ a b, R a b → Q b → Q a)
    (hR : ∀ a b, R a b → Q b → P a → P b) (h : Path R a b) (ha : P a) (hb : Q b) : P b := by
  have kept : Q b → P b := h.keeps (P := fun s => Q s → P s)
    (fun x y step before after => hR x y step after (before (hQ x y step after))) fun _ => ha
  exact kept hb

theorem events {next : σ → ε → Option σ} {es : List ε} (h : es.foldlM next a = some b) :
    Path (fun s s' => ∃ e, next s e = some s') a b := by
  induction es generalizing a with
  | nil =>
    cases h
    exact .refl
  | cons e es ih =>
    rw [List.foldlM_cons] at h
    cases moved : next a e with
    | none =>
      rw [moved] at h
      cases h
    | some s =>
      rw [moved] at h
      exact .head ⟨e, moved⟩ (ih h)

/-- Where some step lowers the rank, a path ends at rank zero. -/
theorem descends {P : σ → Prop} (rank : σ → ℕ) (next : ∀ a, P a → 0 < rank a → ∃ b, R a b ∧ P b ∧ rank b < rank a)
    (ha : P a) : ∃ b, Path R a b ∧ P b ∧ rank b = 0 := by
  induction level : rank a using Nat.strong_induction_on generalizing a with
  | _ n ih =>
    rcases n.eq_zero_or_pos with rfl | more
    · exact ⟨a, .refl, ha, level⟩
    · obtain ⟨b, step, hb, less⟩ := next a ha (level ▸ more)
      obtain ⟨c, path, hc⟩ := ih _ (level ▸ less) hb rfl
      exact ⟨c, .head step path, hc⟩

end Path

/-- Every event meets a state in which `P` allows it. -/
def Allowed (next : σ → ε → σ) (P : σ → ε → Prop) : σ → List ε → Prop
  | _, [] => True
  | s, e :: es => P s e ∧ Allowed next P (next s e) es

namespace Allowed
variable {next : σ → ε → σ} {P : σ → ε → Prop} {s : σ} {es : List ε}

theorem path (h : Allowed next P s es) : Path (fun a b => ∃ e, P a e ∧ next a e = b) s (es.foldl next s) := by
  induction es generalizing s with
  | nil => exact .refl
  | cons e es ih => exact .head ⟨e, h.1, rfl⟩ (ih h.2)

instance decidable [∀ s e, Decidable (P s e)] : ∀ s es, Decidable (Allowed next P s es)
  | _, [] => isTrue trivial
  | s, e :: es =>
    have : Decidable (Allowed next P (next s e) es) := decidable (next s e) es
    inferInstanceAs (Decidable (P s e ∧ Allowed next P (next s e) es))

end Allowed
end Effect
