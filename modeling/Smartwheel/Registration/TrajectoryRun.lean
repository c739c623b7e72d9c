import Mathlib.Data.List.Chain
import Mathlib.Tactic.Group
import Smartwheel.Registration.Trajectory

/-! A run of the refiner keeps the increments of the prior wherever it does not register, whatever is rejected or begun anew. -/
namespace Smartwheel.Trajectory
open Effect

section steps
variable {G C R S : Type} [Group G] {g : Geometry G C R S} {a : Aligner G C} {p : Policy} {s s' : Refiner G C} {r : Result G}

inductive Step (p : Policy) (s : Refiner G C) : Result G → Refiner G C → Prop where
  | first {stamp : ℤ} {points : C} {prior : G} (empty : s.last = none) :
      Step p s ⟨false, .initialReference, [], prior, prior, s.segment, true, none, stamp⟩
        { s with history := push p [] ⟨stamp, points, prior⟩, last := some ⟨stamp, prior, prior, stamp⟩, count := s.count + 1 }
  | gap {l : Last G} {stamp : ℤ} {points : C} {prior : G} (last : s.last = some l) (later : l.stamp < stamp)
      (long : p.resetAfterInputGapS < seconds (stamp - l.stamp) ∨ s.history = []) :
      Step p s ⟨false, .inputGapNewSegment, [], l.pose * l.prior⁻¹ * prior, prior, s.segment + 1, true, none, stamp⟩
        { s with history := push p [] ⟨stamp, points, l.pose * l.prior⁻¹ * prior⟩, segment := s.segment + 1
                 last := some ⟨stamp, prior, l.pose * l.prior⁻¹ * prior, stamp⟩, count := s.count + 1 }
  | registered {l : Last G} {stamp : ℤ} {prior : G} {registration : Registration G} {history : List (Keyframe G C)}
      (points : C) (last : s.last = some l) (later : l.stamp < stamp) (short : ¬p.resetAfterInputGapS < seconds (stamp - l.stamp))
      (accepted : registration.accepted = true)
      (kept : history = trim p stamp s.history ∨
        history = push p (trim p stamp s.history) ⟨stamp, points, l.pose * registration.transform⟩) :
      Step p s ⟨true, .registered, registration.rejectionReasons, l.pose * registration.transform, prior, s.segment, false,
          some registration, stamp⟩
        { s with history := history, last := some ⟨stamp, prior, l.pose * registration.transform, stamp⟩
                 accepted := s.accepted + 1, count := s.count + 1 }
  | fallback {l : Last G} {stamp : ℤ} {prior : G} {registration : Registration G} (last : s.last = some l) (later : l.stamp < stamp)
      (short : ¬p.resetAfterInputGapS < seconds (stamp - l.stamp)) (rejected : registration.accepted = false)
      (young : ¬p.resetAfterRejectionS ≤ seconds (stamp - l.acceptStamp)) :
      Step p s ⟨false, .priorFallback, registration.rejectionReasons, l.pose * l.prior⁻¹ * prior, prior, s.segment, false,
          some registration, stamp⟩
        { s with history := trim p stamp s.history, last := some ⟨stamp, prior, l.pose * l.prior⁻¹ * prior, l.acceptStamp⟩
                 rejections := s.rejections + 1, count := s.count + 1 }
  | restart {l : Last G} {stamp : ℤ} {points : C} {prior : G} {registration : Registration G} (last : s.last = some l)
      (later : l.stamp < stamp) (short : ¬p.resetAfterInputGapS < seconds (stamp - l.stamp)) (rejected : registration.accepted = false)
      (old : p.resetAfterRejectionS ≤ seconds (stamp - l.acceptStamp)) :
      Step p s ⟨false, .geometryRejectionNewSegment, registration.rejectionReasons, l.pose * l.prior⁻¹ * prior, prior, s.segment + 1, true,
          some registration, stamp⟩
        { s with history := push p [] ⟨stamp, points, l.pose * l.prior⁻¹ * prior⟩, segment := s.segment + 1
                 last := some ⟨stamp, prior, l.pose * l.prior⁻¹ * prior, stamp⟩, rejections := s.rejections + 1, count := s.count + 1 }

theorem register_step {l : Last G} {stamp : ℤ} {points : C} {prior : G} (last : s.last = some l) (later : l.stamp < stamp)
    (short : ¬p.resetAfterInputGapS < seconds (stamp - l.stamp)) (h : register g a p s l stamp points prior = .ok (r, s')) :
    Step p s r s' := by
  have ahead : predicted s prior = l.pose * l.prior⁻¹ * prior := by rw [predicted, last]
  unfold register at h
  dsimp only at h
  rw [ahead] at h
  generalize g.concatenate _ = target at h
  have falls := a.falls_back points target (l.pose⁻¹ * (l.pose * l.prior⁻¹ * prior))
  generalize a.align points target (l.pose⁻¹ * (l.pose * l.prior⁻¹ * prior)) = registration at h falls
  split at h
  · next accepted =>
    split at h
    · cases h
    · next k known =>
      cases h
      rw [accepted]
      refine .registered points last later short accepted ?_
      split
      · exact .inr rfl
      · exact .inl rfl
  · next refused =>
    have rejected : registration.accepted = false := Bool.not_eq_true _ ▸ refused
    -- the anchor cancels
    have pose : l.pose * registration.transform = l.pose * l.prior⁻¹ * prior := by rw [falls rejected, mul_inv_cancel_left]
    split at h
    · next old =>
      cases h
      exact .restart last later short rejected old
    · next young =>
      cases h
      rw [rejected, pose]
      exact .fallback last later short rejected young

theorem update_step {stamp : ℤ} {points : S} {prior : R} (h : update g a p s stamp points prior = .ok (r, s')) : Step p s r s' := by
  unfold update at h
  simp only [bind_eq_ok_iff] at h
  obtain ⟨_, order, prior, -, points, -, h⟩ := h
  have later : ∀ l, s.last = some l → l.stamp < stamp := by
    intro l last
    by_contra early
    exact refuse_ok order (.inr ⟨l, last, not_lt.mp early⟩)
  split at h
  · next empty =>
    cases h
    rw [show predicted s prior = prior by rw [predicted, empty]]
    exact .first empty
  · next l last =>
    split at h
    · next long =>
      cases h
      rw [show predicted s prior = l.pose * l.prior⁻¹ * prior by rw [predicted, last]]
      exact .gap last (later l last) (long.imp id List.isEmpty_iff.mp)
    · next short =>
      exact register_step last (later l last) (fun long => short (.inl long)) h

end steps

/-! ### The history -/

section history
variable {G C : Type} {p : Policy} {history : List (Keyframe G C)} {k : Keyframe G C} {stamp : ℤ}

structure Submap (p : Policy) (stamp : ℤ) (history : List (Keyframe G C)) : Prop where
  some : history ≠ []
  bounded : history.length ≤ p.submapKeyframes
  ordered : history.Pairwise fun k k' => k.stamp < k'.stamp
  past : ∀ k ∈ history, k.stamp ≤ stamp

theorem push_suffix : List.IsSuffix (push p history k) (history ++ [k]) := List.drop_suffix ..

theorem trim_suffix : List.IsSuffix (trim p stamp history) history := by
  fun_induction trim p stamp history with
  | case1 first second rest old ih => exact ih.trans (List.suffix_cons ..)
  | case2 | case3 => exact List.suffix_refl _

theorem trim_ne_nil (h : history ≠ []) : trim p stamp history ≠ [] := by
  fun_induction trim p stamp history with
  | case1 first second rest old ih => exact ih (List.cons_ne_nil _ _)
  | case2 | case3 => exact h

theorem push_ne_nil : push p history k ≠ [] := by
  have length : (push p history k).length = history.length + 1 - (history.length + 1 - p.submapKeyframes) := by
    rw [push, List.length_drop, List.length_append, List.length_singleton]
  have positive := p.positive.2.1
  intro empty
  rw [empty, List.length_nil] at length
  omega

theorem Submap.trim (h : Submap p stamp history) {later : ℤ} (order : stamp ≤ later) : Submap p later (trim p later history) where
  some := trim_ne_nil h.some
  bounded := trim_suffix.length_le.trans h.bounded
  ordered := h.ordered.sublist trim_suffix.sublist
  past k inside := (h.past k (trim_suffix.subset inside)).trans order

theorem Submap.push {later : ℤ} (ordered : history.Pairwise fun k k' => k.stamp < k'.stamp) (past : ∀ k ∈ history, k.stamp ≤ stamp)
    (same : k.stamp = later) (order : stamp < later) : Submap p later (push p history k) where
  some := push_ne_nil
  bounded := by
    rw [Trajectory.push, List.length_drop, List.length_append, List.length_singleton]
    omega
  ordered := by
    refine List.Pairwise.sublist push_suffix.sublist (List.pairwise_append.mpr ⟨ordered, List.pairwise_singleton _ _, fun k' inside l new => ?_⟩)
    rw [List.mem_singleton.mp new, same]
    exact (past k' inside).trans_lt order
  past k' inside := by
    rcases List.mem_append.mp (push_suffix.subset inside) with old | new
    · exact (past k' old).trans order.le
    · rw [List.mem_singleton.mp new, same]

theorem Submap.single {later : ℤ} (same : k.stamp = later) : Submap p later (Trajectory.push p [] k) :=
  have past : ∀ k' ∈ ([] : List (Keyframe G C)), k'.stamp ≤ later - 1 := fun _ inside => absurd inside List.not_mem_nil
  .push List.Pairwise.nil past same (sub_one_lt _)

end history

/-! ### The frames that are published -/

section frames
variable {G C : Type} {p : Policy} {r : Result G} {l : Last G} {frames : List (Result G)}

def Result.rejected (r : Result G) : Bool := r.registration.any fun registration => !registration.accepted

def Result.anchor (r : Result G) : Bool := r.accepted || r.segmentStart

def Parted (p : Policy) (r : Result G) (stamp acceptStamp : ℤ) : Prop :=
  p.resetAfterInputGapS < seconds (r.stampNs - stamp) ∨ (r.rejected = true ∧ p.resetAfterRejectionS ≤ seconds (r.stampNs - acceptStamp))

def lastOf (frames : List (Result G)) : Option (Last G) :=
  match frames.getLast?, (frames.filter Result.anchor).getLast? with
  | some r, some q => some ⟨r.stampNs, r.prior, r.pose, q.stampNs⟩
  | _, _ => none

theorem lastOf_anchor (h : r.anchor = true) : lastOf (frames ++ [r]) = some ⟨r.stampNs, r.prior, r.pose, r.stampNs⟩ := by
  have anchors : (frames ++ [r]).filter Result.anchor = frames.filter Result.anchor ++ [r] := by
    rw [List.filter_append, List.filter_cons_of_pos h, List.filter_nil]
  rw [lastOf, anchors, List.getLast?_concat, List.getLast?_concat]

theorem lastOf_eq_some (h : lastOf frames = some l) : ∃ r q, frames.getLast? = some r ∧ (frames.filter Result.anchor).getLast? = some q ∧
    l = ⟨r.stampNs, r.prior, r.pose, q.stampNs⟩ := by
  unfold lastOf at h
  split at h
  · next r q last anchor =>
    cases h
    exact ⟨r, q, last, anchor, rfl⟩
  · cases h

theorem lastOf_other (h : r.anchor = false) (last : lastOf frames = some l) :
    lastOf (frames ++ [r]) = some ⟨r.stampNs, r.prior, r.pose, l.acceptStamp⟩ := by
  obtain ⟨_, q, -, anchor, rfl⟩ := lastOf_eq_some last
  have anchors : (frames ++ [r]).filter Result.anchor = frames.filter Result.anchor := by
    rw [List.filter_append, List.filter_cons_of_neg (by rw [h]; exact Bool.false_ne_true), List.filter_nil, List.append_nil]
  rw [lastOf, anchors, List.getLast?_concat, anchor]

theorem snoc_split {before after : List (Result G)} {a b : Result G} (h : frames ++ [r] = before ++ a :: b :: after) :
    (after = [] ∧ r = b ∧ frames = before ++ [a]) ∨ ∃ after', frames = before ++ a :: b :: after' := by
  rcases List.eq_nil_or_concat after with rfl | ⟨after', c, rfl⟩
  · rw [show before ++ [a, b] = before ++ [a] ++ [b] by simp] at h
    obtain ⟨same, new⟩ := List.append_inj' h rfl
    exact .inl ⟨rfl, List.singleton_inj.mp new, same⟩
  · rw [List.concat_eq_append, show before ++ a :: b :: (after' ++ [c]) = before ++ a :: b :: after' ++ [c] by simp] at h
    exact .inr ⟨after', (List.append_inj' h rfl).1⟩

variable [Group G] {s s' : Refiner G C}

namespace Step

theorem increment (step : Step p s r s') (last : s.last = some l) (refused : r.accepted = false) :
    l.pose⁻¹ * r.pose = l.prior⁻¹ * r.prior := by
  have carried : ∀ prior : G, l.pose⁻¹ * (l.pose * l.prior⁻¹ * prior) = l.prior⁻¹ * prior := by
    intro prior
    rw [mul_assoc, inv_mul_cancel_left]
  cases step with
  | first empty =>
    rw [last] at empty
    cases empty
  | gap known =>
    cases last.symm.trans known
    exact carried _
  | registered => cases refused
  | fallback known =>
    cases last.symm.trans known
    exact carried _
  | restart known =>
    cases last.symm.trans known
    exact carried _

theorem initial (step : Step p s r s') (empty : s.last = none) : r.segmentId = s.segment ∧ r.segmentStart = true := by
  cases step with
  | first => exact ⟨rfl, rfl⟩
  | gap known =>
    rw [empty] at known
    cases known
  | registered points known =>
    rw [empty] at known
    cases known
  | fallback known =>
    rw [empty] at known
    cases known
  | restart known =>
    rw [empty] at known
    cases known

theorem segment (step : Step p s r s') : s'.segment = r.segmentId := by
  cases step
  all_goals rfl

theorem parted (step : Step p s r s') (last : s.last = some l) (some : s.history ≠ []) :
    (Parted p r l.stamp l.acceptStamp → r.segmentId = s.segment + 1) ∧ (¬Parted p r l.stamp l.acceptStamp → r.segmentId = s.segment) := by
  cases step with
  | first empty =>
    rw [last] at empty
    cases empty
  | gap known later long =>
    cases last.symm.trans known
    exact ⟨fun _ => rfl, fun whole => absurd (.inl (long.resolve_right some)) whole⟩
  | registered points known later short accepted =>
    cases last.symm.trans known
    refine ⟨fun parted => ?_, fun _ => rfl⟩
    rcases parted with long | ⟨rejected, -⟩
    · exact absurd long short
    · rw [Result.rejected, Option.any_some, accepted] at rejected
      cases rejected
  | fallback known later short rejected young =>
    cases last.symm.trans known
    exact ⟨fun parted => parted.elim (absurd · short) fun old => absurd old.2 young, fun _ => rfl⟩
  | restart known later short rejected old =>
    cases last.symm.trans known
    refine ⟨fun _ => rfl, fun whole => absurd (.inr ⟨?_, old⟩) whole⟩
    rw [Result.rejected, Option.any_some, rejected]
    rfl

theorem counted (step : Step p s r s') : s'.count = s.count + 1 ∧ s'.accepted = s.accepted + r.accepted.toNat ∧
    s'.rejections = s.rejections + r.rejected.toNat ∧
    r.accepted.toNat + r.rejected.toNat + (decide (s.last = none)).toNat + (decide (r.status = .inputGapNewSegment)).toNat = 1 := by
  have taken : ∀ registration : Registration G, registration.accepted = true → (Option.some registration).any (fun g => !g.accepted) = false := by
    intro registration accepted
    rw [Option.any_some, accepted]
    rfl
  have refused : ∀ registration : Registration G, registration.accepted = false → (Option.some registration).any (fun g => !g.accepted) = true := by
    intro registration rejected
    rw [Option.any_some, rejected]
    rfl
  cases step with
  | first empty =>
    rw [empty]
    exact ⟨rfl, rfl, rfl, rfl⟩
  | gap known =>
    rw [known]
    exact ⟨rfl, rfl, rfl, rfl⟩
  | registered points known later short accepted =>
    simp [Result.rejected, taken _ accepted, known]
  | fallback known later short rejected =>
    simp [Result.rejected, refused _ rejected, known]
  | restart known later short rejected =>
    simp [Result.rejected, refused _ rejected, known]

theorem submap (step : Step p s r s') (kept : ∀ l, s.last = some l → Submap p l.stamp s.history) : Submap p r.stampNs s'.history ∧
    ∀ k ∈ s'.history, (k ∈ s.history ∧ r.segmentId = s.segment) ∨ (k.stamp = r.stampNs ∧ k.pose = r.pose) := by
  have own : ∀ k : Keyframe G C, ∀ k' ∈ push p [] k, k' = k := fun k k' inside => List.mem_singleton.mp (push_suffix.subset inside)
  cases step with
  | first empty | gap | restart => exact ⟨Submap.single rfl, fun k inside => .inr (own _ k inside ▸ ⟨rfl, rfl⟩)⟩
  | fallback known order =>
    exact ⟨(kept _ known).trim order.le, fun k inside => .inl ⟨trim_suffix.subset inside, rfl⟩⟩
  | registered points known order short accepted change =>
    rcases change with rfl | rfl
    · exact ⟨(kept _ known).trim order.le, fun k inside => .inl ⟨trim_suffix.subset inside, rfl⟩⟩
    · refine ⟨.push ((kept _ known).ordered.sublist trim_suffix.sublist) (fun k inside => (kept _ known).past k (trim_suffix.subset inside)) rfl order,
        fun k inside => ?_⟩
      rcases List.mem_append.mp (push_suffix.subset inside) with old | new
      · exact .inl ⟨trim_suffix.subset old, rfl⟩
      · exact .inr (List.mem_singleton.mp new ▸ ⟨rfl, rfl⟩)

end Step

theorem Step.last (step : Step p s r s') (h : s.last = lastOf frames) : s'.last = lastOf (frames ++ [r]) := by
  cases step with
  | first =>
    rw [lastOf_anchor]
    rfl
  | gap =>
    rw [lastOf_anchor]
    rfl
  | registered =>
    rw [lastOf_anchor]
    rfl
  | restart =>
    rw [lastOf_anchor]
    rfl
  | fallback known =>
    rw [lastOf_other (by rfl) (h.symm.trans known)]

structure Refined (p : Policy) (s : Refiner G C) (frames : List (Result G)) : Prop where
  /-- A frame that is not accepted keeps the increment of the prior. -/
  increments : frames.IsChain fun a b => b.accepted = false → a.pose⁻¹ * b.pose = a.prior⁻¹ * b.prior
  stretches : ∀ before a stretch b after, frames = before ++ a :: (stretch ++ b :: after) →
    (∀ r ∈ stretch ++ [b], r.accepted = false) → b.pose = a.pose * a.prior⁻¹ * b.prior
  start : ∀ a ∈ frames.head?, a.segmentId = 0 ∧ a.segmentStart = true
  /-- `q` is the last frame up to `a` that was accepted or began a segment. -/
  segments : ∀ before a b after q, frames = before ++ a :: b :: after → ((before ++ [a]).filter Result.anchor).getLast? = some q →
    (Parted p b a.stampNs q.stampNs → b.segmentId = a.segmentId + 1) ∧ (¬Parted p b a.stampNs q.stampNs → b.segmentId = a.segmentId)
  begun : frames = [] → s.segment = 0
  current : ∀ a ∈ frames.getLast?, s.segment = a.segmentId
  counts : s.count = frames.length ∧ s.accepted = frames.countP Result.accepted ∧ s.rejections = frames.countP Result.rejected
  balance : frames.length = s.accepted + s.rejections + min 1 frames.length +
    frames.countP fun r => decide (r.status = .inputGapNewSegment)
  submap : ∀ a ∈ frames.getLast?, Submap p a.stampNs s.history
  own : ∀ k ∈ s.history, ∃ r ∈ frames, r.stampNs = k.stamp ∧ r.pose = k.pose ∧ r.segmentId = s.segment

theorem telescope {a b : Result G} {stretch : List (Result G)}
    (chain : (a :: (stretch ++ [b])).IsChain fun a b => b.accepted = false → a.pose⁻¹ * b.pose = a.prior⁻¹ * b.prior)
    (refused : ∀ r ∈ stretch ++ [b], r.accepted = false) : b.pose = a.pose * a.prior⁻¹ * b.prior := by
  induction stretch generalizing a with
  | nil =>
    have increment := (List.isChain_cons_cons.mp chain).1 (refused b (List.mem_cons_self ..))
    rw [mul_assoc, ← increment, mul_inv_cancel_left]
  | cons c stretch ih =>
    obtain ⟨first, rest⟩ := List.isChain_cons_cons.mp chain
    have increment := first (refused c (List.mem_cons_self ..))
    have here : c.pose = a.pose * a.prior⁻¹ * c.prior := by rw [mul_assoc, ← increment, mul_inv_cancel_left]
    have later := ih rest fun r inside => refused r (List.mem_cons_of_mem _ inside)
    rw [later, here]
    group

theorem Refined.fresh : Refined p (Refiner.fresh : Refiner G C) [] where
  increments := List.isChain_nil
  stretches before a stretch b after h := absurd h.symm (List.append_ne_nil_of_right_ne_nil _ (List.cons_ne_nil _ _))
  start a h := by cases h
  segments before a b after q h := absurd h.symm (List.append_ne_nil_of_right_ne_nil _ (List.cons_ne_nil _ _))
  begun _ := rfl
  current a h := by cases h
  counts := ⟨rfl, rfl, rfl⟩
  balance := rfl
  submap a h := by cases h
  own k h := by cases h

theorem Refined.last_eq (h : Refined p s frames) (last : s.last = lastOf frames) {a : Result G} (final : frames.getLast? = some a) :
    ∃ q, (frames.filter Result.anchor).getLast? = some q ∧ s.last = some ⟨a.stampNs, a.prior, a.pose, q.stampNs⟩ := by
  obtain ⟨q, anchor⟩ : ∃ q, (frames.filter Result.anchor).getLast? = some q := by
    cases frames with
    | nil => cases final
    | cons first rest =>
      have begins : first.anchor = true := by rw [Result.anchor, (h.start first rfl).2, Bool.or_true]
      rw [List.filter_cons_of_pos begins]
      exact ⟨_, List.getLast?_eq_some_getLast (List.cons_ne_nil _ _)⟩
  exact ⟨q, anchor, by rw [last, lastOf, final, anchor]⟩

theorem Refined.step (h : Refined p s frames) (last : s.last = lastOf frames) (step : Step p s r s') : Refined p s' (frames ++ [r]) := by
  have increments : (frames ++ [r]).IsChain fun a b => b.accepted = false → a.pose⁻¹ * b.pose = a.prior⁻¹ * b.prior := by
    refine List.isChain_append.mpr ⟨h.increments, List.isChain_singleton _, fun a final b same refused => ?_⟩
    cases same
    obtain ⟨q, -, known⟩ := h.last_eq last final
    exact step.increment known refused
  obtain ⟨count, accepted, rejections, once⟩ := step.counted
  obtain ⟨counted, acceptances, rejected⟩ := h.counts
  have empty : (decide (s.last = none)).toNat = 1 - min 1 frames.length := by
    cases final : frames.getLast? with
    | none =>
      rw [List.getLast?_eq_none_iff.mp final] at last ⊢
      rw [last]
      rfl
    | some a =>
      obtain ⟨q, -, known⟩ := h.last_eq last final
      obtain ⟨before, rfl⟩ := List.getLast?_eq_some_iff.mp final
      rw [known, List.length_append, List.length_singleton]
      simp
  obtain ⟨submap, own⟩ := step.submap fun l known => by
    obtain ⟨a, q, final, -, rfl⟩ := lastOf_eq_some (last.symm.trans known)
    exact h.submap a final
  refine ⟨increments, fun before a stretch b after whole refused => ?_, fun a first => ?_, fun before a b after q whole anchor => ?_,
    fun none => absurd none (List.append_ne_nil_of_right_ne_nil _ (List.cons_ne_nil _ _)), fun a final => ?_, ⟨?_, ?_, ?_⟩, ?_, fun a final => ?_, fun k inside => ?_⟩
  · refine telescope ?_ refused
    refine increments.infix ⟨before, after, ?_⟩
    rw [whole]
    simp
  · cases frames with
    | nil =>
      cases first
      obtain ⟨same, begins⟩ := step.initial last
      exact ⟨same.trans (h.begun rfl), begins⟩
    | cons b rest => exact h.start a first
  · rcases snoc_split whole with ⟨-, rfl, rfl⟩ | ⟨after', whole⟩
    · obtain ⟨q', anchor', known⟩ := h.last_eq last (List.getLast?_concat ..)
      cases anchor.symm.trans anchor'
      rw [← h.current a (List.getLast?_concat ..)]
      exact step.parted known (h.submap a (List.getLast?_concat ..)).some
    · exact h.segments before a b after' q whole anchor
  · rw [List.getLast?_concat] at final
    cases final
    exact step.segment
  · rw [count, counted, List.length_append, List.length_singleton]
  · rw [accepted, acceptances, List.countP_append, List.countP_singleton]
    cases r.accepted
    all_goals rfl
  · rw [rejections, rejected, List.countP_append, List.countP_singleton]
    cases r.rejected
    all_goals rfl
  · have balance := h.balance
    have gaps : (frames ++ [r]).countP (fun r => decide (r.status = .inputGapNewSegment)) =
        frames.countP (fun r => decide (r.status = .inputGapNewSegment)) + (decide (r.status = .inputGapNewSegment)).toNat := by
      rw [List.countP_append, List.countP_singleton]
      cases decide (r.status = .inputGapNewSegment)
      all_goals rfl
    rw [gaps, List.length_append, List.length_singleton]
    omega
  · rw [List.getLast?_concat] at final
    cases final
    exact submap
  · rcases own k inside with ⟨old, same⟩ | ⟨stamp, pose⟩
    · obtain ⟨r', known, stamp, pose, segment⟩ := h.own k old
      exact ⟨r', List.mem_append_left _ known, stamp, pose, by rw [segment, step.segment, same]⟩
    · exact ⟨r, List.mem_append_right _ (List.mem_cons_self ..), stamp.symm, pose.symm, step.segment.symm⟩

end frames

section run
variable {G C R S : Type} [Group G]

/-- Whatever is fed to a refiner, its frames keep the increments of the prior wherever they are not registered. -/
theorem run_refined (g : Geometry G C R S) (a : Aligner G C) (p : Policy) (frames : List (Frame R S)) :
    Refined p (run g a p frames).1 (run g a p frames).2 := by
  have both : Refined p (run g a p frames).1 (run g a p frames).2 ∧ (run g a p frames).1.last = lastOf (run g a p frames).2 := by
    induction frames using List.reverseRecOn with
    | nil => exact ⟨.fresh, rfl⟩
    | append_singleton frames frame ih =>
      have step : run g a p (frames ++ [frame]) = feed g a p (run g a p frames) frame := by
        rw [run, List.foldl_append]
        rfl
      rw [step, feed]
      split
      · next result s updated =>
        have step := update_step updated
        exact ⟨ih.1.step ih.2 step, step.last ih.2⟩
      · exact ih
  exact both.1

end run

end Smartwheel.Trajectory
