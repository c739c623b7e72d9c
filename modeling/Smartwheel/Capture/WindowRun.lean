import Smartwheel.Capture.Window

/-! What the audit of a capture window says of the rows. -/
namespace Smartwheel.CaptureWindow
open Effect
open Cover (steps)
open Smartwheel.Calibration (Value)
open Smartwheel.Parameters (same)

def intOf : Value → ℤ
  | .int n => n
  | _ => 0

def Row.stamp (row : Row) : ℤ := intOf row.hostMonotonicNs

def Row.number (row : Row) : ℤ := intOf row.sequence

theorem ns_ok {value : Value} {label : String} {least n : ℤ} (h : ns value label least = .ok n) : n = intOf value := by
  unfold ns at h
  split at h
  · split at h
    · exact (Except.ok.inj h).symm
    · cases h
  · cases h

def Row.Named (c : Contract) (row : Row) : Prop := row.sessionId.isNull = true ∨ row.sessionId.isText c.sessionId = true

def Follows (kind : Kind) (a b : Row) : Prop := b.number = a.number + 1 ∨ (kind = .ultrasonic ∧ a.number < b.number)

/-- Rows of one source in one piece; `named` is what is asked of their sessions. -/
structure Continuous (spec : Spec) (named : Row → Prop) (rows : List Row) : Prop where
  identity : ∀ row ∈ rows, row.sourceId.isText spec.sourceId = true
  session : ∀ row ∈ rows, named row
  epoch : ∃ epoch, epoch ≠ "" ∧ ∀ row ∈ rows, row.streamEpoch.isText epoch = true
  sequence : rows.IsChain (Follows spec.kind)
  stamps : rows.IsChain fun a b => a.stamp ≤ b.stamp
  counts : spec.kind = .lidar → ∀ row ∈ rows, row.countsValid = true

section text
variable {value other : Value} {s t : String}

theorem isText_iff : value.isText s = true ↔ value = .text s := by
  cases value with
  | text t | null | bool b | int n | float q | nonfinite | list items | object fields => simp [Value.isText]

theorem nonemptyText_iff : nonemptyText value = true ↔ ∃ s, s ≠ "" ∧ value = .text s := by
  cases value with
  | text t | null | bool b | int n | float q | nonfinite | list items | object fields => simp [nonemptyText]

theorem same_text_text : same (.text s) (.text t) = true ↔ s = t := by
  rw [same, beq_iff_eq]

end text

section rows
variable {c : Contract} {spec : Spec} {named : Row → Prop} {rows : List Row} {row : Row} {source source' : Evidence} {logical : String}

structure Fits (spec : Spec) (named : Row → Prop) (row : Row) : Prop where
  identity : row.sourceId.isText spec.sourceId = true
  session : named row
  epoch : nonemptyText row.streamEpoch = true
  counts : spec.kind = .lidar → row.countsValid = true

theorem continuous_concat : Continuous spec named (rows ++ [row]) ↔ Continuous spec named rows ∧ Fits spec named row ∧
    (∀ first ∈ rows.head?, same row.streamEpoch first.streamEpoch = true) ∧
    ∀ last ∈ rows.getLast?, Follows spec.kind last row ∧ last.stamp ≤ row.stamp := by
  constructor
  · intro h
    obtain ⟨epoch, some_, all⟩ := h.epoch
    have here := isText_iff.mp (all row (by simp))
    have before := List.isChain_append.mp h.sequence
    have before' := List.isChain_append.mp h.stamps
    refine ⟨⟨fun r inside => h.identity r (by simp [inside]), fun r inside => h.session r (by simp [inside]),
      ⟨epoch, some_, fun r inside => all r (by simp [inside])⟩, before.1, before'.1,
      fun lidar r inside => h.counts lidar r (by simp [inside])⟩, ⟨h.identity row (by simp), h.session row (by simp),
      nonemptyText_iff.mpr ⟨epoch, some_, here⟩, fun lidar => h.counts lidar row (by simp)⟩, fun first inside => ?_, fun last inside => ?_⟩
    · rw [here, isText_iff.mp (all first (List.mem_append_left _ (List.mem_of_head? inside)))]
      exact same_text_text.mpr rfl
    · exact ⟨before.2.2 last inside row rfl, before'.2.2 last inside row rfl⟩
  · rintro ⟨h, fits, first, last⟩
    have each : ∀ {P : Row → Prop}, (∀ r ∈ rows, P r) → P row → ∀ r ∈ rows ++ [row], P r := by
      intro P old new r inside
      rcases List.mem_append.mp inside with inside | inside
      · exact old r inside
      · rw [List.mem_singleton.mp inside]
        exact new
    refine ⟨each h.identity fits.identity, each h.session fits.session, ?_, ?_, ?_, fun lidar => each (h.counts lidar) (fits.counts lidar)⟩
    · obtain ⟨epoch, some_, here⟩ := nonemptyText_iff.mp fits.epoch
      refine ⟨epoch, some_, each (fun r inside => ?_) (isText_iff.mpr here)⟩
      obtain ⟨epoch', -, all⟩ := h.epoch
      cases rows with
      | nil => cases inside
      | cons r₀ rest =>
        have known := first r₀ rfl
        rw [here, isText_iff.mp (all r₀ List.mem_cons_self)] at known
        rw [same_text_text.mp known]
        exact all r inside
    · exact List.isChain_append.mpr ⟨h.sequence, List.isChain_singleton _, fun a inside b same => by cases same; exact (last a inside).1⟩
    · exact List.isChain_append.mpr ⟨h.stamps, List.isChain_singleton _, fun a inside b same => by cases same; exact (last a inside).2⟩

/-- What has been gathered of `rows`. -/
structure Gathered (c : Contract) (spec : Spec) (rows : List Row) (source : Evidence) : Prop where
  observed : source.observedCount = rows.length
  epoch : ∀ first ∈ rows.head?, source.streamEpoch = first.streamEpoch
  last : ∀ row ∈ rows.getLast?, source.sequenceLast = some row.number ∧ source.lastObserved = some row.stamp
  samples : source.samples = (rows.filter (Row.usable · spec.kind)).map Row.stamp
  issues : source.issues = [] ↔ Continuous spec (Row.Named c) rows

theorem unless_nil {α : Type} {p : Prop} [Decidable p] {x : α} : (if p then [] else [x]) = [] ↔ p := by
  by_cases h : p <;> simp [h]

theorem when_nil {α : Type} {p : Prop} [Decidable p] {x : α} : (if p then [x] else []) = [] ↔ ¬p := by
  by_cases h : p <;> simp [h]

theorem faults_nil {stamp sequence : ℤ} : faults c spec source row stamp sequence = [] ↔
    row.sourceId.isText spec.sourceId = true ∧ row.Named c ∧ nonemptyText row.streamEpoch = true ∧
      (source.observedCount = 0 ∨ (same row.streamEpoch source.streamEpoch = true ∧
        (sequence = source.sequenceLast.getD 0 + 1 ∨ (spec.kind = .ultrasonic ∧ source.sequenceLast.getD 0 < sequence)) ∧
        source.lastObserved.getD 0 ≤ stamp)) := by
  unfold faults Row.Named
  simp only [List.append_eq_nil_iff, unless_nil, Bool.or_eq_true, and_assoc]
  refine and_congr_right fun _ => and_congr_right fun _ => and_congr_right fun _ => ?_
  by_cases first : source.observedCount = 0
  · simp [first]
  · simp only [first, if_false, false_or, List.append_eq_nil_iff, unless_nil, when_nil, not_lt, and_assoc]

theorem faults_iff (row : Row) (h : Gathered c spec rows source) : (Continuous spec (Row.Named c) rows ∧ faults c spec source row row.stamp row.number = [] ∧
      (spec.kind = .lidar → row.countsValid = true)) ↔ Continuous spec (Row.Named c) (rows ++ [row]) := by
  rw [continuous_concat, faults_nil]
  refine and_congr_right fun _ => ?_
  cases rows with
  | nil =>
    have first : source.observedCount = 0 := h.observed
    constructor
    · rintro ⟨⟨identity, session, epoch, -⟩, counts⟩
      exact ⟨⟨identity, session, epoch, counts⟩, by simp, by simp⟩
    · rintro ⟨fits, -, -⟩
      exact ⟨⟨fits.identity, fits.session, fits.epoch, .inl first⟩, fits.counts⟩
  | cons r₀ rest =>
    have later : source.observedCount ≠ 0 := by
      rw [h.observed]
      exact Nat.succ_ne_zero _
    obtain ⟨last, final⟩ : ∃ last, (r₀ :: rest).getLast? = some last := ⟨_, List.getLast?_eq_some_getLast (List.cons_ne_nil _ _)⟩
    obtain ⟨number, stamp⟩ := h.last last final
    rw [h.epoch r₀ rfl, number, stamp]
    constructor
    · rintro ⟨⟨identity, session, epoch, go⟩, counts⟩
      obtain ⟨same, sequence, order⟩ := go.resolve_left later
      refine ⟨⟨identity, session, epoch, counts⟩, fun first here => ?_, fun l here => ?_⟩
      · cases here
        exact same
      · cases final.symm.trans here
        exact ⟨sequence, order⟩
    · rintro ⟨fits, first, link⟩
      obtain ⟨sequence, order⟩ := link last final
      exact ⟨⟨fits.identity, fits.session, fits.epoch, .inr ⟨first r₀ rfl, sequence, order⟩⟩, fits.counts⟩

theorem Gathered.start : Gathered c spec [] .empty :=
  ⟨rfl, by simp, by simp, rfl, iff_of_true rfl ⟨by simp, by simp, ⟨"e", by decide, by simp⟩, List.isChain_nil, List.isChain_nil, by simp⟩⟩

theorem Gathered.observe (h : Gathered c spec rows source) (row : Row) (found : List String) :
    let source' := source.observe found row row.stamp row.number
    source'.observedCount = (rows ++ [row]).length ∧ (∀ first ∈ (rows ++ [row]).head?, source'.streamEpoch = first.streamEpoch) ∧
      ∀ r ∈ (rows ++ [row]).getLast?, source'.sequenceLast = some r.number ∧ source'.lastObserved = some r.stamp := by
  refine ⟨?_, fun first here => ?_, fun r here => ?_⟩
  · rw [List.length_append, ← h.observed]
    rfl
  · cases rows with
    | nil =>
      cases here
      exact if_pos h.observed
    | cons r₀ rest =>
      cases here
      refine (if_neg ?_).trans (h.epoch _ rfl)
      rw [h.observed]
      exact Nat.succ_ne_zero _
  · rw [List.getLast?_concat] at here
    cases here
    exact ⟨rfl, rfl⟩

theorem note_gathered (h : Gathered c spec rows source) (done : note c logical spec source row = .ok source') :
    Gathered c spec (rows ++ [row]) source' := by
  unfold note at done
  obtain ⟨stamp, stamped, done⟩ := bind_eq_ok done
  obtain ⟨sequence, numbered, done⟩ := bind_eq_ok done
  have stamp_ : stamp = row.stamp := ns_ok stamped
  have number_ : sequence = row.number := ns_ok numbered
  subst stamp_ number_
  obtain ⟨observed, epoch, last⟩ := h.observe row (faults c spec source row row.stamp row.number)
  have whole := faults_iff row h
  have kept : ∀ extra, (source.issues ++ faults c spec source row row.stamp row.number ++ extra = []) ↔
      Continuous spec (Row.Named c) rows ∧ faults c spec source row row.stamp row.number = [] ∧ extra = [] := by
    intro extra
    rw [List.append_eq_nil_iff, List.append_eq_nil_iff, h.issues, and_assoc]
  have filter : ∀ kept : List Row, [row].filter (Row.usable · spec.kind) = kept →
      (rows ++ [row]).filter (Row.usable · spec.kind) = rows.filter (Row.usable · spec.kind) ++ kept := by
    rintro _ rfl
    exact List.filter_append ..
  dsimp only at done
  split at done
  · next invalid =>
    cases done
    refine ⟨observed, epoch, last, ?_, ?_⟩
    · have unusable : row.usable spec.kind = false := by simp [Row.usable, invalid.1, invalid.2]
      rw [filter [] (by simp [unusable]), List.append_nil]
      exact h.samples
    · refine (kept ["SOURCE_VALID_COUNT_MISSING_OR_INVALID"]).trans (iff_of_false (by simp) fun all => ?_)
      have valid := (whole.mpr all).2.2 invalid.1
      rw [invalid.2] at valid
      cases valid
  · next counted =>
    have counts : spec.kind = .lidar → row.countsValid = true := fun lidar => by
      by_contra invalid
      exact counted ⟨lidar, Bool.eq_false_iff.mpr invalid⟩
    have issues : source.issues ++ faults c spec source row row.stamp row.number = [] ↔ Continuous spec (Row.Named c) (rows ++ [row]) := by
      rw [← whole, ← List.append_nil (source.issues ++ _), kept]
      exact and_congr_right fun _ => and_congr_right fun _ => iff_of_true rfl counts
    split at done
    · next zero =>
      cases done
      refine ⟨observed, epoch, last, ?_, issues⟩
      have unusable : row.usable spec.kind = false := by simp [Row.usable, zero.1, zero.2]
      rw [filter [] (by simp [unusable]), List.append_nil]
      exact h.samples
    · next some_ =>
      cases done
      refine ⟨observed, epoch, last, ?_, issues⟩
      have usable : row.usable spec.kind = true := by
        unfold Row.usable
        split
        · next lidar => simp [counts lidar, Bool.eq_false_iff.mpr fun zero => some_ ⟨lidar, zero⟩]
        · rfl
      rw [filter [row] (by simp [usable]), List.map_append]
      exact congrArg (· ++ [row.stamp]) h.samples

/-! ### All rows -/

def rowsOf (logical : String) (rows : List Row) : List Row := rows.filter fun row => row.logicalSource == logical

theorem lookup_iff {β : Type} {entries : List (String × β)} {b : β} (nodup : (entries.map Prod.fst).Nodup) :
    entries.lookup logical = some b ↔ (logical, b) ∈ entries := by
  induction entries with
  | nil => simp
  | cons entry rest ih =>
    obtain ⟨name, other⟩ := entry
    rw [List.map_cons] at nodup
    obtain ⟨absent, nodup⟩ := List.nodup_cons.mp nodup
    rw [List.lookup_cons, List.mem_cons, Prod.mk.injEq]
    by_cases here : logical = name
    · subst here
      have none : (logical, b) ∉ rest := fun inside => absent (List.mem_map.mpr ⟨_, inside, rfl⟩)
      simp [none, eq_comm]
    · simp [beq_eq_false_iff_ne.mpr here, here, ih nodup]

theorem noteAll_gathered {evidence evidence' : String → Evidence} (done : List Row)
    (h : ∀ entry ∈ c.sources, Gathered c entry.2 (rowsOf entry.1 done) (evidence entry.1)) (run : noteAll c rows evidence = .ok evidence') :
    ∀ entry ∈ c.sources, Gathered c entry.2 (rowsOf entry.1 (done ++ rows)) (evidence' entry.1) := by
  induction rows generalizing done evidence with
  | nil =>
    cases run
    rwa [List.append_nil]
  | cons row rest ih =>
    obtain ⟨middle, first, run⟩ := bind_eq_ok run
    rw [List.append_cons]
    refine ih (done ++ [row]) ?_ run
    unfold noteRow at first
    split at first
    · cases first
    · next spec found =>
      obtain ⟨source, noted, first⟩ := bind_eq_ok first
      cases first
      rintro ⟨logical, other⟩ inside
      dsimp only
      unfold rowsOf
      rw [List.filter_append]
      by_cases here : logical = row.logicalSource
      · subst here
        have known := (lookup_iff c.nodup).mpr inside
        rw [found] at known
        cases known
        rw [Function.update_self, List.filter_singleton, beq_self_eq_true, cond_true]
        exact note_gathered (h _ inside) noted
      · rw [Function.update_of_ne here, List.filter_singleton, beq_eq_false_iff_ne.mpr (Ne.symm here), cond_false, List.append_nil]
        exact h _ inside

theorem sortedSet_nil {issues : List String} : sortedSet issues = [] ↔ issues = [] := by
  unfold sortedSet
  rw [← List.length_eq_zero_iff, List.length_insertionSort, List.length_eq_zero_iff, List.dedup_eq_nil]

/-! ### The window -/

/-- Every point of the open window is between two consecutive stamps, at most `gap` apart. -/
def Covers (stamps : List ℤ) (gap start stop : ℤ) : Prop :=
  (∃ first ∈ stamps.head?, first ≤ start) ∧ (∃ last ∈ stamps.getLast?, stop ≤ last) ∧
    ∀ t : ℝ, (start : ℝ) < t → t < stop → ∃ p ∈ steps stamps, (p.1 : ℝ) ≤ t ∧ t ≤ p.2 ∧ p.2 - p.1 ≤ gap

theorem maximumGap_le {stamps : List ℤ} {gap start stop : ℤ} (positive : 0 ≤ gap) : maximumGap stamps start stop ≤ gap ↔
    ∀ p ∈ steps stamps, p.1 < stop → start < p.2 → p.2 - p.1 ≤ gap := by
  unfold maximumGap
  cases widest : (((steps stamps).filter fun p => p.1 < stop ∧ start < p.2).map fun p => p.2 - p.1).max? with
  | none =>
    refine iff_of_true positive fun p inside left right => ?_
    have none := List.max?_eq_none_iff.mp widest
    have some_ : p.2 - p.1 ∈ ((steps stamps).filter fun p => p.1 < stop ∧ start < p.2).map fun p => p.2 - p.1 :=
      List.mem_map_of_mem (List.mem_filter.mpr ⟨inside, decide_eq_true ⟨left, right⟩⟩)
    rw [none] at some_
    cases some_
  | some most =>
    rw [Option.getD_some, List.max?_le_iff widest]
    simp only [List.mem_map, List.mem_filter, decide_eq_true_eq, forall_exists_index, and_imp]
    exact ⟨fun all p inside left right => all _ p inside left right rfl, fun all _ p inside left right same => same ▸ all p inside left right⟩

theorem covers_iff {stamps : List ℤ} {gap start stop : ℤ} (positive : 0 ≤ gap) (sorted : stamps.Pairwise (· ≤ ·)) (some_ : start < stop) :
    ((stamps.head?.all (start < ·) || stamps.getLast?.all (· < stop)) = false ∧ maximumGap stamps start stop ≤ gap) ↔
      Covers stamps gap start stop := by
  rw [maximumGap_le positive]
  unfold Covers
  cases head : stamps.head? with
  | none => simp
  | some first =>
    cases final : stamps.getLast? with
    | none =>
      rw [List.getLast?_eq_none_iff] at final
      rw [final] at head
      cases head
    | some last =>
      simp only [Option.all_some, Bool.or_eq_false_iff, decide_eq_false_iff_not, not_lt, Option.mem_some_iff, exists_eq_left', and_assoc]
      refine and_congr_right fun before => and_congr_right fun after => ?_
      let wide (p : ℝ × ℝ) : Prop := p.2 - p.1 ≤ gap
      have flat : ∀ a : ℝ, wide (a, a) := fun a => by
        change a - a ≤ gap
        rw [sub_self]
        exact_mod_cast positive
      have order : (stamps.map ((↑) : ℤ → ℝ)).Pairwise (· ≤ ·) := List.pairwise_map.mpr (sorted.imp Int.cast_le.mpr)
      have real := Cover.good_iff flat order (by rw [List.head?_map, head]; rfl) (by rw [List.getLast?_map, final]; rfl)
        (Int.cast_le.mpr before) (Int.cast_le.mpr after) (Int.cast_lt.mpr some_)
      have width : ∀ p : ℤ × ℤ, wide (Prod.map (↑) (↑) p) ↔ p.2 - p.1 ≤ gap := fun p => by
        change (p.2 : ℝ) - p.1 ≤ gap ↔ _
        exact_mod_cast Iff.rfl
      rw [Cover.steps_map] at real
      simp only [List.mem_map, forall_exists_index, and_imp, forall_apply_eq_imp_iff₂, exists_exists_and_eq_and, width, Prod.map_fst,
        Prod.map_snd, Int.cast_lt] at real
      exact real

structure Audited (spec : Spec) (named : Row → Prop) (rows : List Row) (start stop : ℤ) : Prop where
  continuous : Continuous spec named rows
  covers : Covers ((rows.filter (Row.usable · spec.kind)).map Row.stamp) spec.maxGapNs start stop

theorem Continuous.sorted (h : Continuous spec named rows) (kept : Row → Bool) : ((rows.filter kept).map Row.stamp).Pairwise (· ≤ ·) := by
  have chain : (rows.map Row.stamp).IsChain (· ≤ ·) := (List.isChain_map _).mpr h.stamps
  exact (List.isChain_iff_pairwise.mp chain).sublist (List.filter_sublist.map _)

theorem evaluateSource_complete (h : Gathered c spec rows source) {issues : List String} (same : issues = [] ↔ source.issues = [])
    {start stop : ℤ} (positive : 0 < spec.maxGapNs) (some_ : start < stop) :
    (evaluateSource spec { source with issues := issues } start stop).issues = [] ↔ Audited spec (Row.Named c) rows start stop := by
  unfold evaluateSource
  dsimp only
  rw [sortedSet_nil, List.append_eq_nil_iff, List.append_eq_nil_iff, when_nil, when_nil, same, h.issues, and_assoc, h.samples,
    Bool.not_eq_true, not_lt]
  constructor
  · rintro ⟨continuous, covered⟩
    exact ⟨continuous, (covers_iff positive.le (continuous.sorted _) some_).mp covered⟩
  · rintro ⟨continuous, covers⟩
    exact ⟨continuous, (covers_iff positive.le (continuous.sorted _) some_).mpr covers⟩

theorem validateContract_gap (h : validateContract c = .ok ()) {entry : String × Spec} (inside : entry ∈ c.sources) : 0 < entry.2.maxGapNs := by
  unfold validateContract at h
  simp only [bind_eq_ok_iff] at h
  obtain ⟨_, -, _, -, _, -, h⟩ := h
  have all : ∀ (entries : List (String × Spec)), entries.forM validateSource = Except.ok () → ∀ entry ∈ entries, 0 < entry.2.maxGapNs := by
    intro entries
    induction entries with
    | nil => exact fun _ entry none => absurd none List.not_mem_nil
    | cons first rest ih =>
      intro h entry inside
      obtain ⟨_, checked, h⟩ := bind_eq_ok h
      rcases List.mem_cons.mp inside with rfl | inside
      · unfold validateSource at checked
        obtain ⟨_, -, checked⟩ := bind_eq_ok checked
        obtain ⟨_, -, checked⟩ := bind_eq_ok checked
        obtain ⟨_, gap, -⟩ := bind_eq_ok checked
        exact (require_ok gap).1
      · exact ih h entry inside
  exact all c.sources h entry inside

end rows

/-- The audit reports a complete window exactly where every source of the contract is in order over it. -/
theorem window_complete_iff {c : Contract} {rows : List Row} {start stop : ℤ} {evidence : List (String × Evidence)} {report : Report}
    (collected : collectSourceEvidence c rows = .ok evidence) (evaluated : evaluateCaptureWindow evidence c start stop = .ok report) :
    report.windowComplete = true ↔ ∀ entry ∈ c.sources, Audited entry.2 (Row.Named c) (rowsOf entry.1 rows) start stop := by
  unfold collectSourceEvidence at collected
  obtain ⟨_, valid, collected⟩ := bind_eq_ok collected
  obtain ⟨gathered, noted, collected⟩ := bind_eq_ok collected
  cases collected
  unfold evaluateCaptureWindow at evaluated
  simp only [bind_eq_ok_iff] at evaluated
  obtain ⟨_, -, from_, started, until_, stopped, _, some_, evaluated⟩ := evaluated
  have some_ := not_le.mp (refuse_ok some_)
  cases ns_ok started
  cases ns_ok stopped
  cases evaluated
  have all := noteAll_gathered [] (fun _ _ => Gathered.start) noted
  change List.isEmpty _ = true ↔ _
  rw [List.isEmpty_iff, List.flatten_eq_nil_iff]
  simp only [List.mem_map, forall_exists_index, and_imp, forall_apply_eq_imp_iff₂, List.map_eq_nil_iff]
  refine forall_congr' fun entry => imp_congr_right fun inside => ?_
  have found : (c.sources.map fun entry => (entry.1, { gathered entry.1 with issues := sortedSet (gathered entry.1).issues })).lookup entry.1 =
      some { gathered entry.1 with issues := sortedSet (gathered entry.1).issues } := by
    refine (lookup_iff ?_).mpr (List.mem_map.mpr ⟨entry, inside, rfl⟩)
    rw [List.map_map]
    exact c.nodup
  rw [found, Option.getD_some]
  exact evaluateSource_complete (all entry inside) sortedSet_nil (validateContract_gap valid inside) some_

/-! Two rows of an inertial sensor, of which neither names its session. -/
namespace Bench

def contract : Contract := ⟨1, "session", [("imu", ⟨.imu, "h30", 100, none, none⟩)], by decide⟩

def row (number stamp : ℤ) : Row := ⟨"imu", .text "h30", .text "epoch", .int number, .int stamp, .null, .null, .null⟩

def rows : List Row := [row 0 10, row 1 20]

def evidence : Evidence := ⟨2, 2, 0, [10, 20], some 10, some 20, .text "epoch", some 0, some 1, some 20, 10, []⟩

theorem collected : collectSourceEvidence contract rows = .ok [("imu", evidence)] := by rfl

def report : Report := ⟨true, true, [("imu", ⟨true, 2, some 10, some 20, 10, 100, []⟩)], [], 10, 20, 10, some 10, some 20⟩

theorem evaluated : evaluateCaptureWindow [("imu", evidence)] contract 10 20 = .ok report := by rfl

theorem window_audited : Audited ⟨.imu, "h30", 100, none, none⟩ (Row.Named contract) (rowsOf "imu" rows) 10 20 :=
  (window_complete_iff collected evaluated).mp rfl ("imu", _) List.mem_cons_self

/-- A row that names no session is not refused. -/
theorem session_unnamed : ¬∀ (c : Contract) (rows : List Row) (start stop : ℤ) (evidence : List (String × Evidence)) (report : Report),
    collectSourceEvidence c rows = .ok evidence → evaluateCaptureWindow evidence c start stop = .ok report →
      (report.windowComplete = true ↔ ∀ entry ∈ c.sources,
        Audited entry.2 (fun row => row.sessionId.isText c.sessionId = true) (rowsOf entry.1 rows) start stop) := by
  intro exact_
  have audited := (exact_ contract rows 10 20 _ report collected evaluated).mp rfl
  have found : row 0 10 ∈ rowsOf "imu" rows := List.mem_filter.mpr ⟨List.mem_cons_self, rfl⟩
  have named := (audited _ List.mem_cons_self).continuous.session (row 0 10) found
  revert named
  decide

end Bench

end Smartwheel.CaptureWindow
