import Mathlib.Data.List.Induction
import Mathlib.Order.Basic
import Smartwheel.Sensors.Metadata

/-! The frames of an epoch: places without a gap, host clocks that never go back, and device stamps that do not go back
either, unless a frame without a stamp stands between them. -/
namespace Smartwheel.Sensors

def inEpoch (epoch : String) (frames : List Frame) : List Frame := frames.filter fun f => f.streamEpoch = epoch

def stamps (frames : List Frame) : List ℤ := frames.filterMap (·.deviceTimestampRaw)

structure Steady (frames : List Frame) : Prop where
  sequence : frames.map (·.frameSequence) = List.range frames.length
  host : (frames.map (·.hostReceiveNs)).Pairwise (· ≤ ·)
  monotonic : (frames.map (·.hostMonotonicNs)).Pairwise (· ≤ ·)

def Forward (frames : List Frame) : Prop := (stamps frames).Pairwise (· ≤ ·)

def Reception.Breaks (next previous : Reception) : Prop :=
  next.unit ≠ previous.unit ∨ (∃ raw ∈ next.raw, ∃ last ∈ previous.raw, raw < last) ∨
    next.host < previous.host ∨ next.monotonic < previous.monotonic

instance (next previous : Reception) : Decidable (next.Breaks previous) := by
  unfold Reception.Breaks
  infer_instance

/-- A stamp that continues an epoch right after a frame without one is not below the `last` of the epoch. -/
def Unbroken : Option ℤ → Option Reception → List Operation → Prop
  | _, _, [] => True
  | last, previous, .restart reason :: rest =>
    if reason = "" then Unbroken last previous rest else Unbroken none none rest
  | last, previous, .build input :: rest =>
    match input.read with
    | .error _ => Unbroken last previous rest
    | .ok r =>
      if ∃ p ∈ previous, r.Breaks p then Unbroken r.raw (some r) rest
      else (∀ p ∈ previous, p.raw = none → ∀ stamp ∈ last, ∀ raw ∈ r.raw, stamp ≤ raw) ∧
        Unbroken (r.raw.or last) (some r) rest

structure Tracks (fresh : ℕ → String) (b : Builder) (frames : List Frame) (last : Option ℤ) (previous : Option Reception) :
    Prop where
  epochs : ∀ f ∈ frames, ∃ k < b.drawn, f.streamEpoch = fresh k
  epoch : ∃ k, b.drawn = k + 1 ∧ b.streamEpoch = fresh k
  count : (inEpoch b.streamEpoch frames).length = b.frameSequence
  lastRaw : b.lastRaw = previous.bind (·.raw)
  lastHost : b.lastHost = previous.map (·.host)
  lastMonotonic : b.lastMonotonic = previous.map (·.monotonic)
  lastUnit : b.lastUnit = previous.map (·.unit)
  empty : previous = none → inEpoch b.streamEpoch frames = []
  before : ∀ p ∈ previous, ∀ f ∈ inEpoch b.streamEpoch frames, f.hostReceiveNs ≤ p.host ∧ f.hostMonotonicNs ≤ p.monotonic
  stamp : (stamps (inEpoch b.streamEpoch frames)).getLast? = last
  stamped : ∀ p ∈ previous, ∀ raw ∈ p.raw, last = some raw
  steady : ∀ e, Steady (inEpoch e frames)

section steps
variable {fresh : ℕ → String} {b : Builder} {frames : List Frame} {last : Option ℤ} {previous : Option Reception}
  {f : Frame} {e : String} {r : Reception}

theorem inEpoch_snoc (e : String) (frames : List Frame) (f : Frame) :
    inEpoch e (frames ++ [f]) = inEpoch e frames ++ if f.streamEpoch = e then [f] else [] := by
  unfold inEpoch
  rw [List.filter_append]
  congr 1
  by_cases same : f.streamEpoch = e <;> simp [same]

theorem stamps_snoc (frames : List Frame) (f : Frame) :
    stamps (frames ++ [f]) = stamps frames ++ f.deviceTimestampRaw.toList := by
  unfold stamps
  rw [List.filterMap_append]
  cases raw : f.deviceTimestampRaw <;> simp [raw]

theorem pairwise_snoc {l : List ℤ} {x : ℤ} : (l ++ [x]).Pairwise (· ≤ ·) ↔ l.Pairwise (· ≤ ·) ∧ ∀ y ∈ l, y ≤ x := by
  simp [List.pairwise_append]

/-- In order, all is below `x` where the last is. -/
theorem pairwise_last {l : List ℤ} {x : ℤ} (ordered : l.Pairwise (· ≤ ·)) :
    (∀ y ∈ l, y ≤ x) ↔ ∀ y ∈ l.getLast?, y ≤ x := by
  induction l using List.reverseRecOn with
  | nil => simp
  | append_singleton l z _ =>
    have below := (pairwise_snoc.mp ordered).2
    simp only [List.mem_append, List.mem_singleton, List.getLast?_concat, Option.mem_some_iff]
    constructor
    · intro all y here
      exact all y (.inr here.symm)
    · rintro top y (there | rfl)
      · exact Int.le_trans (below y there) (top z rfl)
      · exact top y rfl

theorem steady_nil : Steady [] := ⟨rfl, .nil, .nil⟩

theorem Steady.snoc (h : Steady frames) (sequence : f.frameSequence = frames.length)
    (before : ∀ g ∈ frames, g.hostReceiveNs ≤ f.hostReceiveNs ∧ g.hostMonotonicNs ≤ f.hostMonotonicNs) :
    Steady (frames ++ [f]) where
  sequence := by simp [h.sequence, sequence, List.range_succ]
  host := by
    rw [List.map_append, List.map_singleton, pairwise_snoc]
    refine ⟨h.host, fun y there => ?_⟩
    obtain ⟨g, here, rfl⟩ := List.mem_map.mp there
    exact (before g here).1
  monotonic := by
    rw [List.map_append, List.map_singleton, pairwise_snoc]
    refine ⟨h.monotonic, fun y there => ?_⟩
    obtain ⟨g, here, rfl⟩ := List.mem_map.mp there
    exact (before g here).2

theorem tracks_create (source : Source) (clockModel : Option ClockModel) :
    Tracks fresh (.create fresh source clockModel) [] none none where
  epochs := by simp
  epoch := ⟨0, rfl, rfl⟩
  count := rfl
  lastRaw := rfl
  lastHost := rfl
  lastMonotonic := rfl
  lastUnit := rfl
  empty _ := rfl
  before := by simp
  stamp := rfl
  stamped := by simp
  steady _ := steady_nil

theorem Tracks.renew (injective : Function.Injective fresh) (h : Tracks fresh b frames last previous) (reason : String) :
    Tracks fresh (b.renew fresh reason) frames none none := by
  have none_ : inEpoch (fresh b.drawn) frames = [] := by
    refine List.filter_eq_nil_iff.mpr fun f there same => ?_
    obtain ⟨k, below, epoch⟩ := h.epochs f there
    have equal := injective (epoch.symm.trans (of_decide_eq_true same))
    omega
  exact {
    epochs := fun f there => by
      obtain ⟨k, below, epoch⟩ := h.epochs f there
      exact ⟨k, Nat.lt_succ_of_lt below, epoch⟩
    epoch := ⟨b.drawn, rfl, rfl⟩
    count := congrArg List.length none_
    lastRaw := rfl
    lastHost := rfl
    lastMonotonic := rfl
    lastUnit := rfl
    empty := fun _ => none_
    before := by simp
    stamp := by
      show (stamps (inEpoch (fresh b.drawn) frames)).getLast? = none
      rw [none_]
      rfl
    stamped := by simp
    steady := h.steady }

theorem Tracks.advance (h : Tracks fresh b frames last previous) (flags : List String)
    (goes : ∀ p ∈ previous, ¬r.Breaks p) :
    Tracks fresh (b.advance r) (frames ++ [b.frame r flags]) (r.raw.or last) (some r) := by
  have mine : inEpoch b.streamEpoch (frames ++ [b.frame r flags]) = inEpoch b.streamEpoch frames ++ [b.frame r flags] := by
    rw [inEpoch_snoc, if_pos (show (b.frame r flags).streamEpoch = b.streamEpoch from rfl)]
  have later : ∀ g ∈ inEpoch b.streamEpoch frames, g.hostReceiveNs ≤ r.host ∧ g.hostMonotonicNs ≤ r.monotonic := by
    intro g there
    cases before : previous with
    | none =>
      rw [h.empty before] at there
      cases there
    | some p =>
      have old := h.before p before g there
      have forward := goes p before
      unfold Reception.Breaks at forward
      omega
  have steady : Steady (inEpoch b.streamEpoch (frames ++ [b.frame r flags])) := by
    rw [mine]
    exact (h.steady _).snoc h.count.symm later
  exact {
    epochs := fun f there => by
      rcases List.mem_append.mp there with old | new
      · exact h.epochs f old
      · obtain ⟨k, drawn, epoch⟩ := h.epoch
        rw [List.mem_singleton.mp new]
        refine ⟨k, ?_, epoch⟩
        show k < b.drawn
        omega
    epoch := h.epoch
    count := by
      show (inEpoch b.streamEpoch (frames ++ [b.frame r flags])).length = b.frameSequence + 1
      rw [mine, List.length_append, h.count]
      rfl
    lastRaw := rfl
    lastHost := rfl
    lastMonotonic := rfl
    lastUnit := rfl
    empty := by simp
    before := fun p here f there => by
      obtain rfl := Option.some.inj here
      have inside : f ∈ inEpoch b.streamEpoch (frames ++ [b.frame r flags]) := there
      rw [mine] at inside
      rcases List.mem_append.mp inside with old | new
      · exact later f old
      · rw [List.mem_singleton.mp new]
        exact ⟨Int.le_refl _, Int.le_refl _⟩
    stamp := by
      show (stamps (inEpoch b.streamEpoch (frames ++ [b.frame r flags]))).getLast? = _
      rw [mine, stamps_snoc]
      show (stamps (inEpoch b.streamEpoch frames) ++ r.raw.toList).getLast? = _
      cases raw : r.raw with
      | none => simpa using h.stamp
      | some value => simp
    stamped := fun p here raw there => by
      obtain rfl := Option.some.inj here
      rw [Option.mem_def.mp there]
      rfl
    steady := fun e => by
      by_cases same : b.streamEpoch = e
      · rw [← same]
        exact steady
      · rw [inEpoch_snoc, if_neg (show ¬ (b.frame r flags).streamEpoch = e from same), List.append_nil]
        exact h.steady e }

theorem forward_snoc (h : Tracks fresh b frames last previous) (flags : List String) :
    (∀ e, Forward (inEpoch e (frames ++ [b.frame r flags]))) ↔
      (∀ e, Forward (inEpoch e frames)) ∧ ∀ stamp ∈ last, ∀ raw ∈ r.raw, stamp ≤ raw := by
  have here : ∀ e, Forward (inEpoch e (frames ++ [b.frame r flags])) ↔
      Forward (inEpoch e frames) ∧ (b.streamEpoch = e → ∀ stamp ∈ last, ∀ raw ∈ r.raw, stamp ≤ raw) := by
    intro e
    rw [inEpoch_snoc]
    by_cases same : b.streamEpoch = e
    · subst same
      rw [if_pos (show (b.frame r flags).streamEpoch = b.streamEpoch from rfl)]
      unfold Forward
      rw [stamps_snoc]
      show (stamps _ ++ r.raw.toList).Pairwise _ ↔ _
      cases raw : r.raw with
      | none => simp
      | some value =>
        rw [Option.toList_some, pairwise_snoc]
        refine and_congr_right fun ordered => ?_
        rw [pairwise_last ordered, h.stamp]
        simp
    · rw [if_neg (show ¬ (b.frame r flags).streamEpoch = e from same), List.append_nil]
      simp [same]
  constructor
  · intro all
    exact ⟨fun e => ((here e).mp (all e)).1, ((here b.streamEpoch).mp (all _)).2 rfl⟩
  · rintro ⟨all, top⟩ e
    exact (here e).mpr ⟨all e, fun _ => top⟩

theorem backward_ne_nil (h : Tracks fresh b frames last previous) : b.backward r ≠ [] ↔ ∃ p ∈ previous, r.Breaks p := by
  have flag : ∀ {c : Prop} [Decidable c] {s : String}, flagIf c s = [] ↔ ¬c := by
    intro c _ s
    unfold flagIf
    by_cases hc : c <;> simp [hc]
  unfold Builder.backward
  rw [h.lastUnit, h.lastRaw, h.lastHost, h.lastMonotonic]
  cases previous with
  | none => simp [flag]
  | some p =>
    simp only [ne_eq, List.append_eq_nil_iff, flag, Option.map_some, Option.mem_some_iff, exists_eq_left',
      Option.bind_some, Reception.Breaks]
    rw [not_and_or, not_and_or, not_and_or, not_not, not_not, not_not, not_not, or_assoc, or_assoc]

theorem receive_tracks (injective : Function.Injective fresh) (h : Tracks fresh b frames last previous) (r : Reception) :
    ∃ frame b', b.receive fresh r = (frame, b') ∧
      (if ∃ p ∈ previous, r.Breaks p then Tracks fresh b' (frames ++ [frame]) r.raw (some r) ∧
          ((∀ e, Forward (inEpoch e (frames ++ [frame]))) ↔ ∀ e, Forward (inEpoch e frames))
        else Tracks fresh b' (frames ++ [frame]) (r.raw.or last) (some r) ∧
          ((∀ e, Forward (inEpoch e (frames ++ [frame]))) ↔ (∀ e, Forward (inEpoch e frames)) ∧
            ∀ p ∈ previous, p.raw = none → ∀ stamp ∈ last, ∀ raw ∈ r.raw, stamp ≤ raw)) := by
  refine ⟨(b.settle fresh r).1.frame r (b.settle fresh r).2, (b.settle fresh r).1.advance r, rfl, ?_⟩
  unfold Builder.settle
  by_cases breaks : ∃ p ∈ previous, r.Breaks p
  · rw [if_pos breaks, if_pos ((backward_ne_nil h).mpr breaks)]
    have renewed := h.renew injective (";".intercalate (b.backward r))
    refine ⟨by simpa using renewed.advance _ (r := r) (by simp), ?_⟩
    rw [forward_snoc renewed]
    simp
  · rw [if_neg breaks, if_neg fun flagged => breaks ((backward_ne_nil h).mp flagged)]
    have goes : ∀ p ∈ previous, ¬r.Breaks p := fun p here broken => breaks ⟨p, here, broken⟩
    refine ⟨h.advance _ goes, ?_⟩
    rw [forward_snoc h]
    refine and_congr_right fun _ => ⟨fun all p _ _ => all, fun gap stamp there raw here => ?_⟩
    cases before : previous with
    | none =>
      have none_ := h.stamp
      rw [h.empty before] at none_
      rw [← none_] at there
      cases there
    | some p =>
      cases stamped : p.raw with
      | none => exact gap p before stamped stamp there raw here
      | some old =>
        -- the previous stamp is the last of the epoch, and the code compares with it
        have same : last = some old := h.stamped p before old stamped
        have forward := goes p before
        rw [same] at there
        obtain rfl := Option.some.inj there
        unfold Reception.Breaks at forward
        by_contra below
        exact forward (.inr (.inl ⟨raw, here, old, stamped, Int.not_le.mp below⟩))

theorem run_tracks (injective : Function.Injective fresh) (ops : List Operation) {b : Builder} {frames : List Frame}
    {last : Option ℤ} {previous : Option Reception} (h : Tracks fresh b frames last previous) :
    (∀ e, Steady (inEpoch e (frames ++ b.run fresh ops))) ∧
      ((∀ e, Forward (inEpoch e (frames ++ b.run fresh ops))) ↔
        (∀ e, Forward (inEpoch e frames)) ∧ Unbroken last previous ops) := by
  induction ops generalizing b frames last previous with
  | nil => simpa [Builder.run, Unbroken] using h.steady
  | cons op rest ih =>
    cases op with
    | restart reason =>
      by_cases empty : reason = ""
      · subst empty
        have stays : b.operate fresh (.restart "") = ([], b) := by simp [Builder.operate, Builder.restart]
        simpa [Builder.run, stays, Unbroken] using ih h
      · have renews : b.operate fresh (.restart reason) = ([], b.renew fresh reason) := by
          simp [Builder.operate, Builder.restart, empty]
        simpa [Builder.run, renews, Unbroken, empty] using ih (h.renew injective reason)
    | build input =>
      cases reads : input.read with
      | error e =>
        have stays : b.operate fresh (.build input) = ([], b) := by
          simp only [Builder.operate, Builder.build, reads]
          rfl
        simpa [Builder.run, stays, Unbroken, reads] using ih h
      | ok r =>
        obtain ⟨frame, b', receives, tracks⟩ := receive_tracks injective h r
        have builds : b.operate fresh (.build input) = ([frame], b') := by
          have result : b.build fresh input = .ok (b.receive fresh r) := by
            unfold Builder.build
            rw [reads]
            rfl
          simp only [Builder.operate, result, receives]
        have whole : frames ++ b.run fresh (.build input :: rest) = (frames ++ [frame]) ++ b'.run fresh rest := by
          simp [Builder.run, builds]
        rw [whole]
        simp only [Unbroken, reads]
        by_cases breaks : ∃ p ∈ previous, r.Breaks p
        · rw [if_pos breaks] at tracks ⊢
          obtain ⟨steady, forward⟩ := ih tracks.1
          exact ⟨steady, forward.trans (and_congr_left fun _ => tracks.2)⟩
        · rw [if_neg breaks] at tracks ⊢
          obtain ⟨steady, forward⟩ := ih tracks.1
          exact ⟨steady, forward.trans ((and_congr_left fun _ => tracks.2).trans and_assoc)⟩

end steps

/-- The frames that share an epoch have the places from zero on and host clocks that do not go back. Their device stamps
do not go back if and only if no stamp that continues an epoch after frames without one is below the last of the epoch. -/
theorem source_epochs (fresh : ℕ → String) (injective : Function.Injective fresh) (source : Source)
    (clockModel : Option ClockModel) (ops : List Operation) :
    (∀ e, Steady (inEpoch e ((Builder.create fresh source clockModel).run fresh ops))) ∧
      ((∀ e, Forward (inEpoch e ((Builder.create fresh source clockModel).run fresh ops))) ↔ Unbroken none none ops) := by
  have start : Tracks fresh (.create fresh source clockModel) [] none none := tracks_create source clockModel
  have runs := run_tracks injective ops start
  simpa [inEpoch, Forward, stamps] using runs

namespace Bench

def ids (n : ℕ) : String := String.ofList (List.replicate n 'e')

theorem ids_injective : Function.Injective ids := by
  intro m n same
  have lists := congrArg String.toList same
  simpa [ids] using congrArg List.length lists

def source : Source := ⟨"session", "left", "serial-left", "lidar_left", "sha256:fixture"⟩

def input (raw : Option ℤ) (time : ℤ) : Input := ⟨.ok [], raw, "ns", time, time⟩

def gap : List Operation := [.build (input (some 100) 1), .build (input none 2), .build (input (some 50) 3)]

def resumed : List Operation := [.build (input (some 100) 1), .restart "reconnect", .build (input (some 50) 2)]

end Bench

/-- The stamps 100 and 50 share an epoch. -/
theorem gap_goes_back : Function.Injective Bench.ids ∧
    stamps (inEpoch (Bench.ids 0) ((Builder.create Bench.ids Bench.source none).run Bench.ids Bench.gap)) = [100, 50] ∧
    ¬Forward (inEpoch (Bench.ids 0) ((Builder.create Bench.ids Bench.source none).run Bench.ids Bench.gap)) := by
  have back : stamps (inEpoch (Bench.ids 0) ((Builder.create Bench.ids Bench.source none).run Bench.ids Bench.gap)) =
    [100, 50] := by decide +kernel
  refine ⟨Bench.ids_injective, back, ?_⟩
  unfold Forward
  rw [back]
  decide

/-- A stream that is restarted, with a stamp below the ones before. -/
theorem restart_forward :
    (∀ e, Steady (inEpoch e ((Builder.create Bench.ids Bench.source none).run Bench.ids Bench.resumed))) ∧
      ∀ e, Forward (inEpoch e ((Builder.create Bench.ids Bench.source none).run Bench.ids Bench.resumed)) := by
  have epochs := source_epochs Bench.ids Bench.ids_injective Bench.source none Bench.resumed
  have unbroken : Unbroken none none Bench.resumed := by
    simp [Unbroken, Bench.resumed, Bench.input, Input.read, integer, optionalInteger, bind, Except.bind, Except.map]
  exact ⟨epochs.1, epochs.2.mpr unbroken⟩

end Smartwheel.Sensors
