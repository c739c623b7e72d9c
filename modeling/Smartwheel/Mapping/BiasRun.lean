import Mathlib.Data.List.Chain
import Mathlib.Data.List.Nodup
import Mathlib.Data.List.TakeWhile
import Smartwheel.Mapping.Bias

/-! What a run of `CausalBiasEstimator` guarantees about its whole past, of which it keeps a part. -/
namespace Smartwheel.CausalBias
open Effect
open Extended (Number Exact)
open Smartwheel.Calibration (Value)

/-! ### Runs -/

inductive Call (K : Type) where
  | observe (stampNs : Value) (gyro accel : List (Number K)) (wheelStampNs : Value) (wheelSpeeds : List (Number K))
  | confirm (startNs endNs observedNs evidenceId source independent : Value)
  | reset (reason : String)
  | prune (anchorStampNs : Value)

structure Run (K : Type) where
  estimator : Estimator K
  calls : ℕ
  windows : List (Candidate K)
  versions : List (Version K)
  accepted : List (String × ℤ)
  confirmed : List ℕ

section run
variable {K : Type} [Field K] [LinearOrder K] (n : Numerics K) (p : Policy K)

def answer (s : Estimator K) (sample : ℕ) : Call K → Estimator K × Option (Candidate K) × Option (Version K)
  | .observe stampNs gyro accel wheelStampNs wheelSpeeds =>
    match observe n p s sample stampNs gyro accel wheelStampNs wheelSpeeds with
    | .ok (s', window) => (s', window, none)
    | .error _ => (s, none, none)
  | .confirm startNs endNs observedNs evidenceId source independent =>
    match confirmStationary n p s startNs endNs observedNs evidenceId source independent with
    | .ok (s', version) => (s', none, version)
    | .error _ => (s, none, none)
  | .reset reason => (s.resetObservations reason, none, none)
  | .prune anchorStampNs =>
    match s.pruneBefore anchorStampNs with
    | .ok s' => (s', none, none)
    | .error _ => (s, none, none)

def heeded (s : Estimator K) : Call K → Option Evidence
  | .confirm startNs endNs observedNs evidenceId source independent =>
    match evidenceOf s startNs endNs observedNs evidenceId source independent with
    | .ok e => if refusal s e = none then some e else none
    | .error _ => none
  | _ => none

def step (r : Run K) (call : Call K) : Run K :=
  let answered := answer n p r.estimator r.calls call
  let evidence := (heeded r.estimator call).toList
  { estimator := answered.1
    calls := r.calls + 1
    windows := r.windows ++ answered.2.1.toList
    versions := r.versions ++ answered.2.2.toList
    accepted := r.accepted ++ evidence.map fun e => (e.evidenceId, e.observedNs)
    confirmed := r.confirmed ++ evidence.flatMap fun e => (fresh r.estimator e).map Candidate.candidateId }

def Run.new (confirmedBias : Option (Axes K × String)) : Run K where
  estimator := .new confirmedBias
  calls := 0
  windows := []
  versions := (Estimator.new confirmedBias).versions
  accepted := []
  confirmed := []

def run (confirmedBias : Option (Axes K × String)) (calls : List (Call K)) : Run K := calls.foldl (step n p) (.new confirmedBias)

def Timed (r : Run K) : Prop :=
  ∀ v ∈ r.versions.tail, ∀ a ∈ r.accepted, a.1 ∈ v.evidenceIds → a.2 ≤ v.effectiveStampNs

/-- Evidence with a name of its own. A version that it makes holds from no earlier than when the evidence for it that is kept was observed. -/
def Admissible (r : Run K) (e : Evidence) : Prop :=
  e.evidenceId ∉ r.accepted.map Prod.fst ∧
    (unchanged n p (accept p r.estimator e) = none →
      ∀ a ∈ r.accepted, isKnown (accept p r.estimator e) a.1 = true → a.2 ≤ effective r.estimator e.observedNs)

def Fits (r : Run K) (call : Call K) : Prop := ∀ e, heeded r.estimator call = some e → Admissible n p r e

end run

/-! ### One call -/

section observed
variable {K : Type}

structure Observed (s s' : Estimator K) (sample : ℕ) (window : Option (Candidate K)) : Prop where
  versions : s'.versions = s.versions
  evidence : s'.confirmed = s.confirmed
  retained : s'.retainedFromNs = s.retainedFromNs
  later : ∀ last ∈ s.lastStampNs, ∃ last' ∈ s'.lastStampNs, last ≤ last'
  samples : (window.toList.flatMap Candidate.samples ++ s'.rows.map Row.sample).Sublist (s.rows.map Row.sample ++ [sample])
  pending : (s'.candidates.map Candidate.candidateId).Sublist
    (s.candidates.map Candidate.candidateId ++ window.toList.map Candidate.candidateId)
  named : ∀ c ∈ window, c.candidateId = s.nextCandidateId
  next : s'.nextCandidateId = s.nextCandidateId + window.toList.length

namespace Observed
variable {s s' : Estimator K} {sample : ℕ} {window : Option (Candidate K)}

theorem same (s : Estimator K) (sample : ℕ) : Observed s s sample none where
  versions := rfl
  evidence := rfl
  retained := rfl
  later last h := ⟨last, h, le_refl _⟩
  samples := List.sublist_append_left _ _
  pending := by simp
  named c h := by cases h
  next := rfl

theorem reset (s : Estimator K) (sample : ℕ) (reason : String) : Observed s (s.reset reason) sample none :=
  { same s sample with samples := List.nil_sublist _ }

theorem resetObservations (s : Estimator K) (sample : ℕ) (reason : String) :
    Observed s (s.resetObservations reason) sample none :=
  { reset s sample reason with }

theorem biasAt (h : Observed s s' sample window) (t : Value) : s'.biasAt t = s.biasAt t := by
  simp only [Estimator.biasAt, Estimator.versionAt, h.versions, h.retained]

theorem trans {s'' : Estimator K} (first : Observed s s' sample none) (rows : s'.rows.Sublist s.rows)
    (second : Observed s' s'' sample window) : Observed s s'' sample window where
  versions := second.versions.trans first.versions
  evidence := second.evidence.trans first.evidence
  retained := second.retained.trans first.retained
  later last known := by
    obtain ⟨middle, there, before⟩ := first.later last known
    obtain ⟨last', known', after⟩ := second.later middle there
    exact ⟨last', known', before.trans after⟩
  samples := second.samples.trans ((rows.map Row.sample).append_right _)
  pending := by
    have pending : (s'.candidates.map Candidate.candidateId).Sublist (s.candidates.map Candidate.candidateId) := by
      simpa using first.pending
    exact second.pending.trans (pending.append_right _)
  named c hc := (second.named c hc).trans first.next
  next := by rw [second.next, first.next]; rfl

end Observed

theorem ok_bind {ε α β : Type} (a : α) (f : α → Except ε β) : (Except.ok a >>= f) = f a := rfl

theorem keepLast_sublist {α : Type} (maxlen : ℕ) (l : List α) : (keepLast maxlen l).Sublist l := List.drop_sublist _ _

end observed

section calls
variable {K : Type} [Field K] [LinearOrder K] {n : Numerics K} {p : Policy K}

@[simp] theorem candidateOf_candidateId (candidateId : ℕ) (first stampNs : ℤ) (rows : List (Row K)) :
    (candidateOf n p candidateId first stampNs rows).candidateId = candidateId := rfl

@[simp] theorem candidateOf_samples (candidateId : ℕ) (first stampNs : ℤ) (rows : List (Row K)) :
    (candidateOf n p candidateId first stampNs rows).samples = rows.map Row.sample := rfl

inductive Moved (n : Numerics K) (p : Policy K) (r : Run K) : Option Evidence → Run K → Prop
  | kept {s' window} (h : Observed r.estimator s' r.calls window) :
    Moved n p r none { r with estimator := s', calls := r.calls + 1, windows := r.windows ++ window.toList }
  | pruned {anchor} (forward : r.estimator.retainedFromNs ≤ anchor) (observed : r.estimator.observedBy anchor = true) :
    Moved n p r none
      { r with
        estimator := { r.estimator with
          versions := r.estimator.versions.drop (indexBefore (bisectRight r.estimator.versions anchor) r.estimator.versions.length)
          retainedFromNs := anchor }
        calls := r.calls + 1 }
  | accepted {e last} (known : r.estimator.lastStampNs = some last) (later : last ≤ e.observedNs) (passes : refusal r.estimator e = none) :
    Moved n p r (some e)
      { estimator := (update n p (accept p r.estimator e) e.observedNs).1
        calls := r.calls + 1
        windows := r.windows
        versions := r.versions ++ (update n p (accept p r.estimator e) e.observedNs).2.toList
        accepted := r.accepted ++ [(e.evidenceId, e.observedNs)]
        confirmed := r.confirmed ++ (fresh r.estimator e).map Candidate.candidateId }

end calls

/-! ### Versions in force -/

section lookup
variable {K : Type} {versions : List (Version K)} {v : Version K} {t anchor : ℤ}

def Anchored (versions : List (Version K)) (t : ℤ) : Prop := ∃ first, versions.head? = some first ∧ first.effectiveStampNs ≤ t

theorem Anchored.mono (h : Anchored versions anchor) (order : anchor ≤ t) : Anchored versions t := by
  obtain ⟨first, here, holds⟩ := h
  exact ⟨first, here, holds.trans order⟩

theorem Anchored.bisectRight_pos (h : Anchored versions t) : 0 < bisectRight versions t := by
  obtain ⟨first, here, holds⟩ := h
  obtain ⟨rest, rfl⟩ := List.head?_eq_some_iff.mp here
  simp [bisectRight, holds]

theorem bisectRight_le (versions : List (Version K)) (t : ℤ) : bisectRight versions t ≤ versions.length :=
  (List.takeWhile_prefix _).length_le

theorem bisectRight_concat (after : t < v.effectiveStampNs) : bisectRight (versions ++ [v]) t = bisectRight versions t := by
  have outside : List.takeWhile (fun v : Version K => decide (v.effectiveStampNs ≤ t)) [v] = [] := by simp [not_le.mpr after]
  unfold bisectRight
  rw [List.takeWhile_append, outside]
  split
  · next all => rw [List.append_nil, all]
  · rfl

theorem lookup_concat (h : Anchored versions t) (after : t < v.effectiveStampNs) :
    (versions ++ [v])[indexBefore (bisectRight (versions ++ [v]) t) (versions ++ [v]).length]? =
      versions[indexBefore (bisectRight versions t) versions.length]? := by
  have positive := h.bisectRight_pos
  have inside := bisectRight_le versions t
  rw [bisectRight_concat after, indexBefore, indexBefore, if_neg (by omega), if_neg (by omega)]
  exact List.getElem?_append_left (by omega)

theorem holds_of_lt_bisectRight {i : ℕ} (here : versions[i]? = some v) (before : i < bisectRight versions t) : v.effectiveStampNs ≤ t := by
  have same : List.takeWhile (fun v : Version K => decide (v.effectiveStampNs ≤ t)) versions = versions.take (bisectRight versions t) :=
    List.prefix_iff_eq_take.mp (List.takeWhile_prefix _)
  have there : v ∈ versions.take (bisectRight versions t) := by
    refine List.mem_of_getElem? (i := i) ?_
    rw [List.getElem?_take_of_lt before, here]
  rw [← same] at there
  simpa using List.mem_takeWhile_imp there

theorem anchored_drop (h : Anchored versions anchor) : Anchored (versions.drop (bisectRight versions anchor - 1)) anchor := by
  have positive := h.bisectRight_pos
  have inside := bisectRight_le versions anchor
  have before : bisectRight versions anchor - 1 < versions.length := by omega
  have here : versions[bisectRight versions anchor - 1]? = some versions[bisectRight versions anchor - 1] := List.getElem?_eq_getElem before
  exact ⟨_, by rw [List.head?_drop, here], holds_of_lt_bisectRight here (by omega)⟩

theorem bisectRight_drop (h : Anchored versions anchor) (order : anchor ≤ t) :
    bisectRight versions t = bisectRight versions anchor - 1 + bisectRight (versions.drop (bisectRight versions anchor - 1)) t := by
  have positive := h.bisectRight_pos
  have inside := bisectRight_le versions anchor
  have holds : ∀ v ∈ versions.take (bisectRight versions anchor - 1), decide (v.effectiveStampNs ≤ t) = true := by
    intro v inTake
    obtain ⟨i, here⟩ := List.getElem?_of_mem inTake
    rw [List.getElem?_take] at here
    split at here
    · exact decide_eq_true ((holds_of_lt_bisectRight here (by omega)).trans order)
    · cases here
  have whole : versions = versions.take (bisectRight versions anchor - 1) ++ versions.drop (bisectRight versions anchor - 1) :=
    (List.take_append_drop _ _).symm
  conv_lhs => rw [whole]
  unfold bisectRight at holds ⊢
  rw [List.takeWhile_append_of_pos holds, List.length_append, List.length_take]
  unfold bisectRight at positive inside
  omega

theorem lookup_drop (h : Anchored versions anchor) (order : anchor ≤ t) :
    (versions.drop (bisectRight versions anchor - 1))[indexBefore (bisectRight (versions.drop (bisectRight versions anchor - 1)) t)
        (versions.drop (bisectRight versions anchor - 1)).length]? =
      versions[indexBefore (bisectRight versions t) versions.length]? := by
  have positive := h.bisectRight_pos
  have positive' := ((anchored_drop h).mono order).bisectRight_pos
  rw [bisectRight_drop h order, indexBefore, indexBefore, if_neg (by omega), if_neg (by omega), List.getElem?_drop]
  congr 1
  omega

end lookup

/-! ### What was in force stays so -/

section settled
variable {K : Type}

structure Versioned (r : Run K) : Prop where
  suffix : r.estimator.versions <:+ r.versions
  anchored : Anchored r.estimator.versions r.estimator.retainedFromNs

namespace Versioned
variable {r : Run K}

theorem ne_nil (h : Versioned r) : r.estimator.versions ≠ [] := by
  obtain ⟨first, here, -⟩ := h.anchored
  intro none
  rw [none] at here
  cases here

theorem getLast? (h : Versioned r) : r.versions.getLast? = r.estimator.versions.getLast? := by
  obtain ⟨before, whole⟩ := h.suffix
  rw [← whole, List.getLast?_append_of_ne_nil _ h.ne_nil]

end Versioned

structure Extends (s s' : Estimator K) : Prop where
  retained : s.retainedFromNs ≤ s'.retainedFromNs
  later : ∀ last ∈ s.lastStampNs, ∃ last' ∈ s'.lastStampNs, last ≤ last'
  settled : ∀ last t, s.lastStampNs = some last → t < last → s'.retainedFromNs ≤ t → s'.versionAt t = s.versionAt t

namespace Extends
variable {s s' s'' : Estimator K}

theorem refl (s : Estimator K) : Extends s s := ⟨le_refl _, fun last known => ⟨last, known, le_refl _⟩, fun _ _ _ _ _ => rfl⟩

theorem trans (first : Extends s s') (second : Extends s' s'') : Extends s s'' where
  retained := first.retained.trans second.retained
  later last known := by
    obtain ⟨middle, there, before⟩ := first.later last known
    obtain ⟨last', known', after⟩ := second.later middle there
    exact ⟨last', known', before.trans after⟩
  settled last t known before kept := by
    obtain ⟨middle, there, order⟩ := first.later last known
    rw [second.settled middle t there (before.trans_le order) kept]
    exact first.settled last t known before (second.retained.trans kept)

theorem biasAt (h : Extends s s') {last t : ℤ} (known : s.lastStampNs = some last) (before : t < last) (kept : s'.retainedFromNs ≤ t) :
    s'.biasAt (.int t) = s.biasAt (.int t) := by
  have here : ¬t < s.retainedFromNs := not_lt.mpr (h.retained.trans kept)
  have there : ¬t < s'.retainedFromNs := not_lt.mpr kept
  unfold Estimator.biasAt
  by_cases negative : t < 0
  · have bad : stamp (.int t) = .error "source stamp must be a nonnegative integer" := if_pos negative
    rw [bad]
    rfl
  · have good : stamp (.int t) = .ok t := if_neg negative
    rw [good, ok_bind, ok_bind, refuse_of_not here, refuse_of_not there, ok_bind, ok_bind, h.settled last t known before kept]

end Extends

theorem effective_later {s : Estimator K} {observedNs : ℤ} : observedNs ≤ effective s observedNs := by
  unfold effective
  split
  · exact le_max_left _ _
  · exact le_refl _

end settled

/-! ### Invariants -/

section invariants
variable {K : Type} [Field K] [LinearOrder K] {n : Numerics K} {p : Policy K} {r r' : Run K} {given : Option Evidence}

theorem update_kept (s : Estimator K) (observedNs : ℤ) :
    (update n p s observedNs).1 = { s with
      versions := s.versions ++ (update n p s observedNs).2.toList, lastReason := (update n p s observedNs).1.lastReason } := by
  unfold update
  split
  · dsimp only [Option.toList]
    rw [List.append_nil]
  · rfl

structure Named (r : Run K) : Prop where
  once : (r.confirmed ++ r.estimator.candidates.map Candidate.candidateId).Nodup
  among : r.confirmed ++ r.estimator.candidates.map Candidate.candidateId ⊆ r.windows.map Candidate.candidateId
  names : (r.windows.map Candidate.candidateId).Nodup
  below : ∀ name ∈ r.windows.map Candidate.candidateId, name < r.estimator.nextCandidateId

theorem Moved.named (moved : Moved n p r given r') (h : Named r) : Named r' := by
  cases moved with
  | @kept s' window observed =>
    have new : ∀ name ∈ window.toList.map Candidate.candidateId, name = r.estimator.nextCandidateId := by
      intro name inWindow
      obtain ⟨c, here, rfl⟩ := List.mem_map.mp inWindow
      exact observed.named c (Option.mem_toList.mp here)
    have single : (window.toList.map Candidate.candidateId).Nodup := by
      cases window with
      | none => exact List.nodup_nil
      | some c => exact List.nodup_singleton _
    have unknown : ∀ name ∈ r.windows.map Candidate.candidateId, name ∉ window.toList.map Candidate.candidateId := by
      intro name known inWindow
      have := h.below name known
      rw [new name inWindow] at this
      exact absurd this (lt_irrefl _)
    have part : (_ : List ℕ).Sublist _ := observed.pending.append_left r.confirmed
    rw [← List.append_assoc] at part
    refine ⟨List.Nodup.sublist part ?_, fun name inPast => ?_, ?_, fun name known => ?_⟩
    · refine List.nodup_append.mpr ⟨h.once, single, fun a inPast b inWindow same => ?_⟩
      exact unknown a (h.among inPast) (same ▸ inWindow)
    · rw [List.map_append]
      exact (List.append_subset.mpr ⟨fun _ known => List.mem_append_left _ (h.among known), List.subset_append_right _ _⟩) (part.subset inPast)
    · rw [List.map_append]
      exact List.nodup_append.mpr ⟨h.names, single, fun a known b inWindow same => unknown a known (same ▸ inWindow)⟩
    · rw [List.map_append] at known
      rw [observed.next]
      rcases List.mem_append.mp known with earlier | inWindow
      · exact Nat.lt_add_right _ (h.below name earlier)
      · rw [new name inWindow]
        have : 0 < window.toList.length := by
          rw [← List.length_map (f := Candidate.candidateId)]
          exact List.length_pos_of_mem inWindow
        omega
  | pruned forward observed => exact ⟨h.once, h.among, h.names, h.below⟩
  | @accepted e last known later passes =>
    rw [update_kept]
    have moved : (fresh r.estimator e).Sublist r.estimator.candidates := List.filter_sublist.trans List.filter_sublist
    have left : (accept p r.estimator e).candidates.Sublist r.estimator.candidates := (keepLast_sublist _ _).trans List.filter_sublist
    have apart : ∀ a ∈ (fresh r.estimator e).map Candidate.candidateId,
        ∀ b ∈ (accept p r.estimator e).candidates.map Candidate.candidateId, a ≠ b := by
      intro a covered b pending same
      obtain ⟨c, inFresh, rfl⟩ := List.mem_map.mp covered
      obtain ⟨d, inLeft, rfl⟩ := List.mem_map.mp pending
      have unmatched := (List.mem_filter.mp ((keepLast_sublist _ _).subset inLeft)).2
      have matched : c ∈ matching r.estimator e := (List.mem_filter.mp inFresh).1
      have consumed : (matching r.estimator e).any (fun c => c.candidateId == d.candidateId) = true :=
        List.any_eq_true.mpr ⟨c, matched, beq_iff_eq.mpr same⟩
      rw [consumed] at unmatched
      cases unmatched
    have unconfirmed := List.nodup_append.mp h.once
    refine ⟨?_, fun name inPast => ?_, h.names, h.below⟩
    · rw [List.append_assoc]
      refine List.nodup_append.mpr ⟨unconfirmed.1, List.nodup_append.mpr ⟨?_, ?_, apart⟩, fun a inPast b waiting same => ?_⟩
      · exact unconfirmed.2.1.sublist (moved.map _)
      · exact unconfirmed.2.1.sublist (left.map _)
      · refine unconfirmed.2.2 a inPast b ?_ same
        rcases List.mem_append.mp waiting with covered | pending
        · exact (moved.map _).subset covered
        · exact (left.map _).subset pending
    · refine h.among ?_
      rw [List.append_assoc] at inPast
      rcases List.mem_append.mp inPast with earlier | waiting
      · exact List.mem_append_left _ earlier
      · refine List.mem_append_right _ ?_
        rcases List.mem_append.mp waiting with covered | pending
        · exact (moved.map _).subset covered
        · exact (left.map _).subset pending

theorem update_version {s : Estimator K} {observedNs : ℤ} {v : Version K} (made : v ∈ (update n p s observedNs).2) :
    unchanged n p s = none ∧ v = nextVersion n p s observedNs := by
  unfold update at made
  split at made
  · cases made
  · next changes => exact ⟨changes, (Option.some.inj made).symm⟩

theorem Moved.extends (moved : Moved n p r given r') (h : Versioned r) : Extends r.estimator r'.estimator := by
  cases moved with
  | kept observed =>
    refine ⟨observed.retained.ge, observed.later, fun last t known before kept => ?_⟩
    unfold Estimator.versionAt
    rw [observed.versions]
  | @pruned anchor forward observed =>
    refine ⟨forward, fun last known => ⟨last, known, le_refl _⟩, fun last t known before kept => ?_⟩
    have holds := h.anchored.mono forward
    have index : indexBefore (bisectRight r.estimator.versions anchor) r.estimator.versions.length =
        bisectRight r.estimator.versions anchor - 1 := if_neg (by have := holds.bisectRight_pos; omega)
    unfold Estimator.versionAt
    rw [index]
    exact lookup_drop holds kept
  | @accepted e newest known later passes =>
    rw [update_kept]
    refine ⟨le_refl _, fun last known => ⟨last, known, le_refl _⟩, fun last t known' before kept => ?_⟩
    unfold Estimator.versionAt
    cases made : (update n p (accept p r.estimator e) e.observedNs).2 with
    | none =>
      simp only [Option.toList, List.append_nil]
      rfl
    | some v =>
      obtain ⟨-, rfl⟩ := update_version (Option.mem_def.mpr made)
      have same : newest = last := Option.some.inj (known.symm.trans known')
      subst same
      have after : t < (nextVersion n p (accept p r.estimator e) e.observedNs).effectiveStampNs :=
        before.trans_le (later.trans effective_later)
      exact lookup_concat (h.anchored.mono kept) after

/-! ### Evidence -/

def Sound (r : Run K) : Prop := (r.accepted.map Prod.fst).Nodup ∧ Timed r

theorem Moved.chain {R : Version K → Version K → Prop} (moved : Moved n p r given r') (h : Versioned r)
    (next : ∀ s observedNs last, s.versions.getLast? = some last → unchanged n p s = none → R last (nextVersion n p s observedNs))
    (chain : r.versions.IsChain R) : r'.versions.IsChain R := by
  cases moved with
  | kept observed | pruned forward observed => exact chain
  | @accepted e newest known later passes =>
    refine List.isChain_append.mpr ⟨chain, ?_, fun last final v first => ?_⟩
    · cases (update n p (accept p r.estimator e) e.observedNs).2 with
      | none => exact List.isChain_nil
      | some v => exact List.isChain_singleton v
    · obtain ⟨changes, rfl⟩ := update_version (Option.mem_toList.mp (List.mem_of_mem_head? first))
      rw [h.getLast?] at final
      exact next _ _ last final changes

end invariants

/-! ### Whole runs -/

section whole
variable {K : Type} [Field K] [LinearOrder K] {n : Numerics K} {p : Policy K} (confirmedBias : Option (Axes K × String))

theorem run_concat (calls : List (Call K)) (call : Call K) :
    run n p confirmedBias (calls ++ [call]) = step n p (run n p confirmedBias calls) call := List.foldl_concat ..

end whole

section exact
variable {K : Type} [Exact K]

variable {directionP95 : List (Axes K) → Axes K → Option K} {p : Policy K}

theorem square_nonneg (a : Axes K) : 0 ≤ a.square :=
  add_nonneg (add_nonneg (mul_self_nonneg a.x) (mul_self_nonneg a.y)) (mul_self_nonneg a.z)

end exact

/-! ### A run -/

namespace Bench

def policy : Policy ℚ where
  windowS := 1 / 10
  minSamples := 3
  maxSamples := 100
  maxImuGapS := 1 / 10
  maxWheelAgeS := 1 / 5
  maxWheelSpeedMS := 1 / 500
  maxGyroSampleRadS := 15 / 1000
  maxGyroMeanRadS := 15 / 10000
  maxGyroAxisStdRadS := 4 / 1000
  gravityMS2 := 980665 / 100000
  maxAccelNormErrorMS2 := 1 / 4
  maxAccelAxisStdMS2 := 1 / 10
  maxAccelDirectionP95Deg := 1 / 2
  robustWindows := 1
  minConfirmedWindows := 1
  maxBiasNormRadS := 15 / 10000
  maxUpdateNormRadS := 1 / 4000
  maxPendingWindows := 16
  maxVersions := 2048
  positive := by norm_num
  counted := by norm_num

def quiet (k : ℕ) : Call ℚ :=
  .observe (.int (k * 50000000)) [.finite (1 / 1000), .finite 0, .finite 0] [.finite 0, .finite 0, .finite (980665 / 100000)]
    (.int (k * 50000000)) [.finite 0, .finite 0]

def window (first : ℕ) : List (Call ℚ) := [quiet first, quiet (first + 1), quiet (first + 2)]

def confirm (first : ℕ) (evidenceId : String) : Call ℚ :=
  .confirm (.int (first * 50000000)) (.int ((first + 2) * 50000000)) (.int ((first + 2) * 50000000)) (.text evidenceId)
    (.text "registration") (.bool true)

def calls : List (Call ℚ) :=
  window 0 ++ [confirm 0 "A"] ++ window 3 ++ [confirm 3 "B"] ++ window 6 ++ [confirm 6 "A"]

end Bench

end Smartwheel.CausalBias
