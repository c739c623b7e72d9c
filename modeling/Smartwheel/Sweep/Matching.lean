import Mathlib.Algebra.Order.Group.Unbundled.Abs
import Mathlib.Algebra.Order.Group.Abs
import Mathlib.Data.List.Nodup
import Mathlib.Logic.Relation

/-! Two lists in order, of which the heads are matched where they are near, and the earlier one is dropped where they are not. No other
matching has more pairs, and it does not matter when the lists get their elements. -/
namespace HeadMerge
variable {β α : Type} [AddCommGroup α] [LinearOrder α]

structure Merge (β : Type) where
  left : List β
  right : List β
  pairs : List (β × β)

inductive HeadStep (key : β → α) (w : α) : Merge β → Merge β → Prop
  | pair {a b : β} {l r : List β} {ps : List (β × β)} (near : |key a - key b| ≤ w) :
    HeadStep key w ⟨a :: l, b :: r, ps⟩ ⟨l, r, ps ++ [(a, b)]⟩
  | dropLeft {a b : β} {l r : List β} {ps : List (β × β)} (early : key a + w < key b) :
    HeadStep key w ⟨a :: l, b :: r, ps⟩ ⟨l, b :: r, ps⟩
  | dropRight {a b : β} {l r : List β} {ps : List (β × β)} (early : key b + w < key a) :
    HeadStep key w ⟨a :: l, b :: r, ps⟩ ⟨a :: l, r, ps⟩

def Merge.feed (s : Merge β) (l r : List β) : Merge β := ⟨s.left ++ l, s.right ++ r, s.pairs⟩

variable {key : β → α} {w : α} {s s' : Merge β}

theorem HeadStep.feed (h : HeadStep key w s s') (l r : List β) : HeadStep key w (s.feed l r) (s'.feed l r) := by
  cases h with
  | pair near => exact .pair near
  | dropLeft early => exact .dropLeft early
  | dropRight early => exact .dropRight early

theorem Merge.feed_reaches (h : Relation.ReflTransGen (HeadStep key w) s s') (l r : List β) :
    Relation.ReflTransGen (HeadStep key w) (s.feed l r) (s'.feed l r) := h.lift (Merge.feed · l r) fun _ _ one => one.feed l r

theorem HeadStep.sublist (h : HeadStep key w s s') :
    (s'.pairs.map Prod.fst ++ s'.left).Sublist (s.pairs.map Prod.fst ++ s.left) ∧
      (s'.pairs.map Prod.snd ++ s'.right).Sublist (s.pairs.map Prod.snd ++ s.right) := by
  cases h with
  | pair near => simp
  | dropLeft early => exact ⟨(List.sublist_cons_self _ _).append_left _, List.Sublist.refl _⟩
  | dropRight early => exact ⟨List.Sublist.refl _, (List.sublist_cons_self _ _).append_left _⟩

theorem Merge.sublist (h : Relation.ReflTransGen (HeadStep key w) s s') :
    (s'.pairs.map Prod.fst ++ s'.left).Sublist (s.pairs.map Prod.fst ++ s.left) ∧
      (s'.pairs.map Prod.snd ++ s'.right).Sublist (s.pairs.map Prod.snd ++ s.right) := by
  induction h with
  | refl => exact ⟨List.Sublist.refl _, List.Sublist.refl _⟩
  | tail _ one ih => exact ⟨one.sublist.1.trans ih.1, one.sublist.2.trans ih.2⟩

theorem HeadStep.sorted (h : HeadStep key w s s') (sortedLeft : s.left.Pairwise fun a b => key a ≤ key b)
    (sortedRight : s.right.Pairwise fun a b => key a ≤ key b) :
    (s'.left.Pairwise fun a b => key a ≤ key b) ∧ s'.right.Pairwise fun a b => key a ≤ key b := by
  cases h with
  | pair near => exact ⟨(List.pairwise_cons.mp sortedLeft).2, (List.pairwise_cons.mp sortedRight).2⟩
  | dropLeft early => exact ⟨(List.pairwise_cons.mp sortedLeft).2, sortedRight⟩
  | dropRight early => exact ⟨sortedLeft, (List.pairwise_cons.mp sortedRight).2⟩

structure Matching (key : β → α) (w : α) (left right : List β) (m : List (β × β)) : Prop where
  lefts : (m.map Prod.fst).Nodup
  rights : (m.map Prod.snd).Nodup
  inside : ∀ p ∈ m, p.1 ∈ left ∧ p.2 ∈ right
  near : ∀ p ∈ m, |key p.1 - key p.2| ≤ w

namespace Matching
variable {left right : List β} {m : List (β × β)} {a b : β} {p q : β × β}

theorem perm {m' : List (β × β)} (h : Matching key w left right m) (same : m.Perm m') : Matching key w left right m' where
  lefts := (same.map _).nodup_iff.mp h.lefts
  rights := (same.map _).nodup_iff.mp h.rights
  inside p there := h.inside p (same.mem_iff.mpr there)
  near p there := h.near p (same.mem_iff.mpr there)

theorem swap (h : Matching key w left right m) : Matching key w right left (m.map Prod.swap) where
  lefts := by simpa [Function.comp_def] using h.rights
  rights := by simpa [Function.comp_def] using h.lefts
  inside p there := by
    obtain ⟨q, inside, rfl⟩ := List.mem_map.mp there
    exact (h.inside q inside).symm
  near p there := by
    obtain ⟨q, inside, rfl⟩ := List.mem_map.mp there
    rw [abs_sub_comm]
    exact h.near q inside

theorem tail (h : Matching key w left right (p :: m)) : Matching key w left right m where
  lefts := (List.nodup_cons.mp h.lefts).2
  rights := (List.nodup_cons.mp h.rights).2
  inside q there := h.inside q (List.mem_cons_of_mem _ there)
  near q there := h.near q (List.mem_cons_of_mem _ there)

theorem shrink (h : Matching key w (a :: left) right m) (unused : ∀ p ∈ m, p.1 ≠ a) : Matching key w left right m where
  lefts := h.lefts
  rights := h.rights
  inside p there := ⟨(List.mem_cons.mp (h.inside p there).1).resolve_left (unused p there), (h.inside p there).2⟩
  near := h.near

theorem shrink_right (h : Matching key w left (b :: right) m) (unused : ∀ p ∈ m, p.2 ≠ b) : Matching key w left right m where
  lefts := h.lefts
  rights := h.rights
  inside p there := ⟨(h.inside p there).1, (List.mem_cons.mp (h.inside p there).2).resolve_left (unused p there)⟩
  near := h.near

theorem fst_ne (h : Matching key w left right (p :: m)) : ∀ q ∈ m, q.1 ≠ p.1 := fun _ there same =>
  (List.nodup_cons.mp h.lefts).1 (same ▸ List.mem_map_of_mem there)

theorem snd_ne (h : Matching key w left right (p :: m)) : ∀ q ∈ m, q.2 ≠ p.2 := fun _ there same =>
  (List.nodup_cons.mp h.rights).1 (same ▸ List.mem_map_of_mem there)

theorem exists_perm (there : p ∈ m) : ∃ m', m.Perm (p :: m') := by
  obtain ⟨before, after, rfl⟩ := List.append_of_mem there
  exact ⟨before ++ after, List.perm_middle⟩

end Matching

/-! ### No matching has more pairs -/

section optimal
variable [IsOrderedAddMonoid α] {a b : β} {l r : List β} {m : List (β × β)}

theorem near_crossed {x y : β} (first : |key a - key y| ≤ w) (second : |key x - key b| ≤ w) (left : key a ≤ key x) (right : key b ≤ key y) :
    |key x - key y| ≤ w := by
  have first := (abs_le.mp first).1
  have second := (abs_le.mp second).2
  rw [neg_le_sub_iff_le_add] at first
  rw [sub_le_iff_le_add] at second
  rw [abs_le, neg_le_sub_iff_le_add, sub_le_iff_le_add]
  exact ⟨first.trans (by gcongr), second.trans (by gcongr)⟩

theorem Matching.exchange (h : Matching key w (a :: l) (b :: r) m) (sortedLeft : ∀ x ∈ l, key a ≤ key x) (sortedRight : ∀ y ∈ r, key b ≤ key y) :
    ∃ m', Matching key w l r m' ∧ m.length ≤ m'.length + 1 := by
  by_cases left : ∃ p ∈ m, p.1 = a
  · obtain ⟨p, there, rfl⟩ := left
    obtain ⟨m₁, same⟩ := Matching.exists_perm there
    have h₁ := h.perm same
    have rest := h₁.tail.shrink h₁.fst_ne
    by_cases right : ∃ q ∈ m₁, q.2 = b
    · obtain ⟨q, there', rfl⟩ := right
      obtain ⟨m₂, same'⟩ := Matching.exists_perm there'
      have h₂ := rest.perm same'
      have h₃ := h₁.perm (same'.cons p)
      have outside : p.2 ∈ r := (List.mem_cons.mp (h₁.inside p List.mem_cons_self).2).resolve_left fun same =>
        h₁.snd_ne q there' same.symm
      have crossed : |key q.1 - key p.2| ≤ w := by
        refine near_crossed (h₁.near p List.mem_cons_self) (h₂.near q List.mem_cons_self) ?_ ?_
        · exact sortedLeft _ (h₂.inside q List.mem_cons_self).1
        · exact sortedRight _ outside
      have left' := h₂.tail.shrink_right h₂.snd_ne
      refine ⟨(q.1, p.2) :: m₂, ⟨h₂.lefts, ?_, ?_, ?_⟩, ?_⟩
      · refine List.nodup_cons.mpr ⟨fun inside => ?_, left'.rights⟩
        obtain ⟨u, there, same⟩ := List.mem_map.mp inside
        exact h₃.snd_ne u (List.mem_cons_of_mem _ there) same
      · intro u there
        rcases List.mem_cons.mp there with rfl | there
        · exact ⟨(h₂.inside q List.mem_cons_self).1, outside⟩
        · exact left'.inside u there
      · intro u there
        rcases List.mem_cons.mp there with rfl | there
        · exact crossed
        · exact left'.near u there
      · rw [same.length_eq, List.length_cons, same'.length_eq]
        exact le_refl _
    · refine ⟨m₁, rest.shrink_right fun q there' same => right ⟨q, there', same⟩, ?_⟩
      rw [same.length_eq]
      exact le_refl _
  · have rest := h.shrink fun p there same => left ⟨p, there, same⟩
    by_cases right : ∃ q ∈ m, q.2 = b
    · obtain ⟨q, there, rfl⟩ := right
      obtain ⟨m₁, same⟩ := Matching.exists_perm there
      have h₁ := rest.perm same
      refine ⟨m₁, h₁.tail.shrink_right h₁.snd_ne, ?_⟩
      rw [same.length_eq]
      exact le_refl _
    · exact ⟨m, rest.shrink_right fun q there same => right ⟨q, there, same⟩, Nat.le_succ _⟩

theorem Matching.drop (h : Matching key w (a :: l) (b :: r) m) (early : key a + w < key b) (sortedRight : ∀ y ∈ r, key b ≤ key y) :
    Matching key w l (b :: r) m := by
  refine h.shrink fun p there same => ?_
  have later : key b ≤ key p.2 := by
    rcases List.mem_cons.mp (h.inside p there).2 with first | rest
    · rw [first]
    · exact sortedRight _ rest
  have near := (abs_le.mp (h.near p there)).1
  rw [same, neg_le_sub_iff_le_add] at near
  exact absurd (near.trans_lt early) (not_lt.mpr later)

theorem HeadStep.optimal (h : HeadStep key w s s') (sortedLeft : s.left.Pairwise fun a b => key a ≤ key b)
    (sortedRight : s.right.Pairwise fun a b => key a ≤ key b) (matching : Matching key w s.left s.right m) :
    ∃ m', Matching key w s'.left s'.right m' ∧ m.length + s.pairs.length ≤ m'.length + s'.pairs.length := by
  cases h with
  | pair near =>
    obtain ⟨m', matching', count⟩ := matching.exchange (List.pairwise_cons.mp sortedLeft).1 (List.pairwise_cons.mp sortedRight).1
    refine ⟨m', matching', ?_⟩
    dsimp only
    rw [List.length_append, List.length_singleton]
    omega
  | dropLeft early => exact ⟨m, matching.drop early (List.pairwise_cons.mp sortedRight).1, le_refl _⟩
  | dropRight early =>
    have swapped := (matching.swap.drop early (List.pairwise_cons.mp sortedLeft).1).swap
    rw [List.map_map, Prod.swap_swap_eq, List.map_id] at swapped
    exact ⟨m, swapped, le_refl _⟩

theorem Merge.optimal (h : Relation.ReflTransGen (HeadStep key w) s s') (sortedLeft : s.left.Pairwise fun a b => key a ≤ key b)
    (sortedRight : s.right.Pairwise fun a b => key a ≤ key b) (matching : Matching key w s.left s.right m) :
    ∃ m', Matching key w s'.left s'.right m' ∧ m.length + s.pairs.length ≤ m'.length + s'.pairs.length := by
  induction h using Relation.ReflTransGen.head_induction_on generalizing m with
  | refl => exact ⟨m, matching, le_refl _⟩
  | head one _ ih =>
    obtain ⟨m₁, matching₁, count⟩ := one.optimal sortedLeft sortedRight matching
    obtain ⟨sortedLeft', sortedRight'⟩ := one.sorted sortedLeft sortedRight
    obtain ⟨m', matching', count'⟩ := ih sortedLeft' sortedRight' matching₁
    exact ⟨m', matching', by omega⟩

theorem Merge.maximal (h : Relation.ReflTransGen (HeadStep key w) s s') (fresh : s.pairs = []) (done : s'.left = [] ∨ s'.right = [])
    (sortedLeft : s.left.Pairwise fun a b => key a ≤ key b) (sortedRight : s.right.Pairwise fun a b => key a ≤ key b)
    (matching : Matching key w s.left s.right m) : m.length ≤ s'.pairs.length := by
  obtain ⟨m', matching', count⟩ := Merge.optimal h sortedLeft sortedRight matching
  have none : m' = [] := by
    refine List.eq_nil_iff_forall_not_mem.mpr fun p there => ?_
    have inside := matching'.inside p there
    rcases done with empty | empty
    · rw [empty] at inside
      exact List.not_mem_nil inside.1
    · rw [empty] at inside
      exact List.not_mem_nil inside.2
  rw [none, fresh] at count
  simpa using count

end optimal

end HeadMerge
