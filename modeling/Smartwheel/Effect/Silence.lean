import Smartwheel.Effect.History

/-! Silence after a failure: once a failure is recorded, at most one more write is made, and only one
that is allowed as a recovery. Two flags of the program say so: `failed`, and `attempted` for the one
recovery. -/
namespace Effect
variable {ε : Type*}

structure Kinds (ε : Type*) where
  failure : ε → Bool
  recovery : ε → Bool
  write : ε → Bool
  allowed : ε → Bool

def afterFirst (mark : ε → Bool) : List ε → List ε
  | [] => []
  | e :: h => if h.any mark then e :: afterFirst mark h else []

theorem afterFirst_append {mark : ε → Bool} {m : ε} (hm : mark m = true) (later earlier : List ε) :
    afterFirst mark (later ++ m :: earlier) = later ++ afterFirst mark (m :: earlier) := by
  induction later with
  | nil => rfl
  | cons e later ih =>
    have hany : (later ++ m :: earlier).any mark = true := by simp [hm]
    rw [List.cons_append, afterFirst, if_pos hany, ih]
    rfl

theorem mem_afterFirst_cons {mark : ε → Bool} {e x : ε} {h : List ε}
    (hx : x ∈ afterFirst mark (e :: h)) : x = e ∨ x ∈ afterFirst mark h := by
  rw [afterFirst] at hx
  split at hx
  · exact List.mem_cons.mp hx
  · cases hx

variable (K : Kinds ε)

def lateWrites (h : List ε) : List ε := (afterFirst K.failure h).filter K.write

variable {K}

theorem lateWrites_cons {e : ε} (h : List ε) (he : K.write e = false) :
    lateWrites K (e :: h) = if h.any K.failure then lateWrites K h else [] := by
  unfold lateWrites
  rw [afterFirst]
  split
  · rw [List.filter_cons_of_neg (by simp [he])]
  · rfl

/-- What the flags `failed` and `attempted` say about the history. -/
structure Silent (K : Kinds ε) (failed attempted : Bool) (h : List ε) : Prop where
  known : failed = true ↔ h.any K.failure = true
  honest : attempted = true → failed = true
  before : attempted = false → lateWrites K h = []
  once : attempted = true →
    lateWrites K h = (since K.recovery h).filter K.write ∧ (lateWrites K h).length ≤ 1
  allowed : ∀ e ∈ afterFirst K.failure h, K.write e = true → K.allowed e = true

namespace Silent
variable {failed attempted : Bool} {h es : List ε} {e : ε}

theorem nil : Silent K false false [] where
  known := by simp
  honest := id
  before _ := rfl
  once h := by cases h
  allowed e he := by cases he

theorem sound (hs : Silent K false attempted h) : h.any K.failure = false := by
  rw [Bool.eq_false_iff]
  intro hany
  cases hs.known.mpr hany

theorem log (hs : Silent K failed attempted h) (hw : K.write e = false) (hf : K.failure e = false)
    (hr : K.recovery e = false) : Silent K failed attempted (e :: h) where
  known := by rw [List.any_cons, hf, Bool.false_or]; exact hs.known
  honest := hs.honest
  before ha := by
    rw [lateWrites_cons h hw]
    split
    · exact hs.before ha
    · rfl
  once ha := by
    have known := hs.known.mp (hs.honest ha)
    rw [lateWrites_cons h hw, if_pos known, since_cons_plain h hr,
      List.filter_cons_of_neg (by simp [hw])]
    exact hs.once ha
  allowed x hx hxw := by
    rcases mem_afterFirst_cons hx with rfl | hx
    · rw [hw] at hxw; cases hxw
    · exact hs.allowed x hx hxw

theorem append (hs : Silent K failed attempted h)
    (he : ∀ e ∈ es, K.write e = false ∧ K.failure e = false ∧ K.recovery e = false) :
    Silent K failed attempted (es ++ h) := by
  induction es with
  | nil => exact hs
  | cons e es ih =>
    obtain ⟨hw, hf, hr⟩ := he e (by simp)
    exact (ih fun x hx => he x (List.mem_cons_of_mem e hx)).log hw hf hr

theorem fail (hs : Silent K failed attempted h) (hw : K.write e = false) (hf : K.failure e = true)
    (hr : K.recovery e = false) : Silent K true attempted (e :: h) where
  known := by simp [hf]
  honest _ := rfl
  before ha := by
    rw [lateWrites_cons h hw]
    split
    · exact hs.before ha
    · rfl
  once ha := by
    have known := hs.known.mp (hs.honest ha)
    rw [lateWrites_cons h hw, if_pos known, since_cons_plain h hr,
      List.filter_cons_of_neg (by simp [hw])]
    exact hs.once ha
  allowed x hx hxw := by
    rcases mem_afterFirst_cons hx with rfl | hx
    · rw [hw] at hxw; cases hxw
    · exact hs.allowed x hx hxw

theorem attempt (hs : Silent K true false h) (hw : K.write e = false) (hf : K.failure e = false)
    (hr : K.recovery e = true) : Silent K true true (e :: h) := by
  have none : lateWrites K (e :: h) = [] := by
    rw [lateWrites_cons h hw, if_pos (hs.known.mp rfl)]
    exact hs.before rfl
  exact {
    known := by rw [List.any_cons, hf, Bool.false_or]; exact hs.known
    honest := id
    before := fun h => by cases h
    once := fun _ => by rw [none, since_cons_mark _ hr]; exact ⟨rfl, by simp⟩
    allowed := fun x hx hxw => by
      rcases mem_afterFirst_cons hx with rfl | hx
      · rw [hw] at hxw; cases hxw
      · exact hs.allowed x hx hxw }

theorem recover (hs : Silent K true true h) (hw : K.write e = true) (ha : K.allowed e = true)
    (hf : K.failure e = false) (hr : K.recovery e = false)
    (hn : ∀ x ∈ since K.recovery h, K.write x = false) : Silent K true true (e :: h) := by
  have none : lateWrites K h = [] := by
    rw [(hs.once rfl).1, List.filter_eq_nil_iff]
    intro x hx
    simp [hn x hx]
  have one : lateWrites K (e :: h) = [e] := by
    unfold lateWrites at none ⊢
    rw [afterFirst, if_pos (hs.known.mp rfl), List.filter_cons_of_pos hw, none]
  exact {
    known := by rw [List.any_cons, hf, Bool.false_or]; exact hs.known
    honest := id
    before := fun h => by cases h
    once := fun _ => by
      rw [one, since_cons_plain _ hr, List.filter_cons_of_pos hw, ← (hs.once rfl).1, none]
      exact ⟨rfl, by simp⟩
    allowed := fun x hx hxw => by
      rcases mem_afterFirst_cons hx with rfl | hx
      · exact ha
      · exact hs.allowed x hx hxw }

theorem write (hs : Silent K false attempted h) (hf : K.failure e = false) :
    Silent K false attempted (e :: h) := by
  have empty : afterFirst K.failure (e :: h) = [] := by simp [afterFirst, hs.sound]
  exact {
    known := by rw [List.any_cons, hf, Bool.false_or]; exact hs.known
    honest := hs.honest
    before := fun _ => by simp [lateWrites, empty]
    once := fun ha => by cases hs.honest ha
    allowed := fun x hx => by rw [empty] at hx; cases hx }

theorem after {later earlier : List ε} {m : ε} (hs : Silent K failed attempted h)
    (hh : h = later ++ m :: earlier) (hm : K.failure m = true) :
    (later.filter K.write).length ≤ 1 ∧ ∀ e ∈ later, K.write e = true → K.allowed e = true := by
  have hafter : afterFirst K.failure h = later ++ afterFirst K.failure (m :: earlier) := by
    rw [hh, afterFirst_append hm]
  constructor
  · have hcount : (lateWrites K h).length ≤ 1 := by
      cases ha : attempted with
      | false => simp [hs.before ha]
      | true => exact (hs.once ha).2
    rw [lateWrites, hafter, List.filter_append, List.length_append] at hcount
    omega
  · intro e he
    exact hs.allowed e (by rw [hafter]; exact List.mem_append_left _ he)

end Silent
end Effect
