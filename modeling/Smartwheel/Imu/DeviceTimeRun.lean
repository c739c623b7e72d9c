import Mathlib.Tactic.Ring
import Smartwheel.Imu.DeviceTime

/-! Runs of the validator: elapsed ticks are the last raw value less the first and a period for each wrap, a rejection
latches, and a wrap is accepted within the tolerance of the host clock. -/
namespace Smartwheel.Imu

def Sample.value (s : Sample) (field : Field) : Option ℤ :=
  match s.frame.fields.lookup field.name with
  | some (.int value) => some value
  | _ => none

def sightings (field : Field) (accepted : List Sample) : List (ℤ × Option ℤ) :=
  accepted.filterMap fun s => (s.value field).map fun value => (value, s.hostMonotonicNs)

def raws (field : Field) (accepted : List Sample) : List ℤ := (sightings field accepted).map Prod.fst

def descents : List ℤ → ℤ
  | newer :: older :: rest => (if newer < older then 1 else 0) + descents (older :: rest)
  | _ => 0

def unwrapped (values : List ℤ) : Option ℤ := do
  let newest ← values.head?
  let oldest ← values.getLast?
  return newest - oldest + 2^32 * descents values

structure Coherent (v : Validator) (accepted : List Sample) : Prop where
  previous : ∀ field, v.previous field = (raws field accepted).head?
  elapsed : ∀ field, v.elapsedTicks field = unwrapped (raws field accepted)
  wraps : ∀ field, v.wraps field = (raws field accepted).head?.map fun _ => descents (raws field accepted)
  host : v.previousHost = accepted.head?.bind (·.hostMonotonicNs)

section advance
variable {profile : TimingProfile} {v v' : Validator} {s : Sample} {accepted : List Sample} {previous value delta : ℤ}
  {elapsed : Option ℤ} {wrapped : Bool} {a : Advance} {advances : Field → Option Advance}

structure WrapAgrees (profile : TimingProfile) (delta : ℤ) (elapsed : Option ℤ) : Prop where
  guarded : profile.backwardPolicy = .guardedUint32Wrap
  agrees : ∃ host ∈ elapsed, ∃ tolerance ∈ profile.wrapHostToleranceNs, |delta * profile.tickNs - host| ≤ tolerance

theorem required_eq_ok {o : Option ℤ} {e : String} (h : required o e = .ok value) : value ∈ o := by
  cases o <;> simp_all [required]

theorem nonnegative_eq_ok {x : ℤ} {e : String} (h : nonnegative x e = .ok value) : x = value := by
  unfold nonnegative at h
  split at h <;> cases h
  rfl

theorem wrapDelta_eq_ok {bound tolerance host tickNs : ℤ}
    (h : wrapDelta previous value host bound tolerance tickNs = .ok (delta, wrapped)) :
    delta = value - previous + 2^32 ∧ wrapped = true ∧ |delta * tickNs - host| ≤ tolerance := by
  unfold wrapDelta at h
  dsimp only at h
  split at h
  · cases h
  · rename_i fine
    cases h
    push Not at fine
    exact ⟨rfl, rfl, fine.2.2.2⟩

theorem advanceDeviceCounter_eq_ok (h : advanceDeviceCounter previous value elapsed profile = .ok (delta, wrapped)) :
    (previous < value ∧ delta = value - previous ∧ wrapped = false ∧ ∀ gap ∈ profile.maxGapTicks, value - previous ≤ gap) ∨
      (value < previous ∧ delta = value - previous + 2^32 ∧ wrapped = true ∧ WrapAgrees profile delta elapsed) := by
  unfold advanceDeviceCounter at h
  split at h
  · cases h
  split at h
  · cases h
  rename_i differs
  split at h
  · rename_i forward
    split at h
    · cases h
    · rename_i fine
      cases h
      push Not at fine
      exact .inl ⟨by omega, rfl, rfl, fine⟩
  · rename_i back
    split at h
    · cases h
    · rename_i guarded
      rw [ne_eq, not_not] at guarded
      cases bound : required profile.maxGapTicks "'max_gap_ticks'" with
      | error e => simp [bound, bind, Except.bind] at h
      | ok top =>
        cases given : required elapsed "IMU_DEVICE_TIME_WRAP_HOST_DELTA_REQUIRED" with
        | error e => simp [bound, given, bind, Except.bind] at h
        | ok host =>
          cases sign : nonnegative host "IMU_DEVICE_TIME_WRAP_HOST_DELTA_REQUIRED" with
          | error e => simp [bound, given, sign, bind, Except.bind] at h
          | ok host' =>
            cases tolerance : required profile.wrapHostToleranceNs "'wrap_host_tolerance_ns'" with
            | error e => simp [bound, given, sign, tolerance, bind, Except.bind] at h
            | ok limit =>
              simp only [bound, given, sign, tolerance, bind, Except.bind] at h
              obtain ⟨same, rfl, near⟩ := wrapDelta_eq_ok h
              obtain rfl := nonnegative_eq_ok sign
              exact .inr ⟨by omega, same, rfl, guarded, host, required_eq_ok given, limit, required_eq_ok tolerance, near⟩

structure Advances (profile : TimingProfile) (elapsed : Option ℤ) (before : Option ℤ) (a : Advance) : Prop where
  first : before = none → a.delta = 0 ∧ a.wrapped = false
  next : ∀ previous ∈ before,
    (previous < a.value ∧ a.delta = a.value - previous ∧ a.wrapped = false ∧
      ∀ gap ∈ profile.maxGapTicks, a.value - previous ≤ gap) ∨
    (a.value < previous ∧ a.delta = a.value - previous + 2^32 ∧ a.wrapped = true ∧ WrapAgrees profile a.delta elapsed)

theorem advanceField_eq_ok {field : Field} (h : advanceField profile v s field value = .ok a) :
    a.value = value ∧ Advances profile (hostDelta v s) (v.previous field) a := by
  unfold advanceField at h
  cases before : v.previous field with
  | none =>
    rw [before] at h
    cases h
    exact ⟨rfl, fun _ => ⟨rfl, rfl⟩, by simp⟩
  | some previous =>
    rw [before] at h
    cases counted : advanceDeviceCounter previous value (hostDelta v s) profile with
    | error e => simp [counted, bind, Except.bind] at h
    | ok pair =>
      simp only [counted, bind, Except.bind, Except.ok.injEq] at h
      subst h
      refine ⟨rfl, by simp, fun p here => ?_⟩
      obtain rfl := Option.some.inj here
      exact advanceDeviceCounter_eq_ok counted

theorem observeField_eq_ok {field : Field} {found : Option Advance} (h : observeField profile v s field = .ok found) :
    s.value field = found.map (·.value) ∧ ∀ a ∈ found, Advances profile (hostDelta v s) (v.previous field) a := by
  unfold observeField at h
  unfold Sample.value
  split at h
  · rename_i missing
    split at h <;> cases h
    simp [missing]
  · rename_i reading there
    rw [there]
    split at h
    · cases advanced : advanceField profile v s field reading with
      | error e => simp [advanced, Except.map] at h
      | ok a =>
        simp only [advanced, Except.map, Except.ok.injEq] at h
        subst h
        obtain ⟨same, advances⟩ := advanceField_eq_ok advanced
        exact ⟨by simp [same], by simpa using advances⟩
    · cases h
  · cases h

theorem observeFields_eq_ok (h : observeFields profile v s = .ok advances) (field : Field) :
    s.value field = (advances field).map (·.value) ∧
      ∀ a ∈ advances field, Advances profile (hostDelta v s) (v.previous field) a := by
  unfold observeFields at h
  cases checked : hostChecked profile v s with
  | error e => simp [checked, bind, Except.bind] at h
  | ok _ =>
    cases first : observeField profile v s .sample with
    | error e => simp [checked, first, bind, Except.bind] at h
    | ok sample =>
      cases second : observeField profile v s .dataready with
      | error e => simp [checked, first, second, bind, Except.bind] at h
      | ok dataready =>
        simp only [checked, first, second, bind, Except.bind, Except.ok.injEq] at h
        subst h
        cases field with
        | sample => exact observeField_eq_ok first
        | dataready => exact observeField_eq_ok second

theorem sightings_cons (field : Field) (s : Sample) (accepted : List Sample) : sightings field (s :: accepted) =
    ((s.value field).map fun value => (value, s.hostMonotonicNs)).toList ++ sightings field accepted := by
  unfold sightings
  rw [List.filterMap_cons]
  cases s.value field <;> rfl

theorem raws_cons (field : Field) (s : Sample) (accepted : List Sample) :
    raws field (s :: accepted) = (s.value field).toList ++ raws field accepted := by
  unfold raws
  rw [sightings_cons, List.map_append]
  cases s.value field <;> rfl

theorem unwrapped_cons (newest previous : ℤ) (rest : List ℤ) {elapsed : ℤ}
    (before : unwrapped (previous :: rest) = some elapsed) : unwrapped (newest :: previous :: rest) =
      some (elapsed + (newest - previous) + 2^32 * if newest < previous then 1 else 0) := by
  obtain ⟨oldest, last⟩ : ∃ oldest, (previous :: rest).getLast? = some oldest := ⟨_, List.getLast?_eq_some_getLast (by simp)⟩
  have last' : (newest :: previous :: rest).getLast? = some oldest := by rw [List.getLast?_cons_cons, last]
  simp only [unwrapped, List.head?_cons, last, last', Option.bind_eq_bind, Option.bind_some, Option.pure_def,
    Option.some.injEq] at before ⊢
  rw [← before, descents]
  ring

theorem Coherent.accept (h : Coherent v accepted) (read : ∀ field, s.value field = (advances field).map (·.value) ∧
    ∀ a ∈ advances field, Advances profile (hostDelta v s) (v.previous field) a) :
    Coherent (v.accept s advances) (s :: accepted) where
  previous field := by
    rw [raws_cons, (read field).1]
    simp only [Validator.accept, h.previous]
    cases advances field <;> rfl
  elapsed field := by
    obtain ⟨same, spec⟩ := read field
    rw [raws_cons, same]
    simp only [Validator.accept, h.elapsed]
    cases here : advances field with
    | none => rfl
    | some a =>
      have known := spec a here
      rw [h.previous] at known
      cases before : raws field accepted with
      | nil =>
        rw [before] at known
        simp [unwrapped, descents, (known.first rfl).1]
      | cons previous rest =>
        rw [before] at known
        obtain ⟨elapsed, counted⟩ : ∃ elapsed, unwrapped (previous :: rest) = some elapsed := by
          simp [unwrapped, List.getLast?_eq_some_getLast]
        have later := unwrapped_cons a.value previous rest counted
        simp only [Option.map_some, Option.toList_some, List.singleton_append, Option.some_or, counted, Option.getD_some]
        rw [later]
        rcases known.next previous rfl with ⟨above, delta, -⟩ | ⟨below, delta, -⟩
        · rw [delta, if_neg (not_lt.mpr (le_of_lt above)), mul_zero, add_zero]
        · rw [delta, if_pos below, mul_one, add_assoc]
  wraps field := by
    obtain ⟨same, spec⟩ := read field
    rw [raws_cons, same]
    simp only [Validator.accept, h.wraps]
    cases here : advances field with
    | none => rfl
    | some a =>
      have known := spec a here
      rw [h.previous] at known
      cases before : raws field accepted with
      | nil =>
        rw [before] at known
        simp [descents, (known.first rfl).2]
      | cons previous rest =>
        rw [before] at known
        rcases known.next previous rfl with ⟨above, -, wrapped, -⟩ | ⟨below, -, wrapped, -⟩
        · simp [descents, wrapped, not_lt.mpr (le_of_lt above)]
        · simp [descents, wrapped, below, add_comm]
  host := rfl

theorem observe_ok {timing : Timing} (h : observe profile v s = (.ok timing, v')) :
    v.error = none ∧ ∃ advances, observeFields profile v s = .ok advances ∧ v' = v.accept s advances := by
  unfold observe at h
  cases latched : v.error with
  | some error => simp [latched] at h
  | none =>
    rw [latched] at h
    cases read : observeFields profile v s with
    | error error => simp [read] at h
    | ok advances =>
      simp only [read, Prod.mk.injEq] at h
      exact ⟨rfl, advances, rfl, h.2.symm⟩

theorem observe_error {error : String} (h : observe profile v s = (.error error, v')) :
    v' = { v with error := v'.error } ∧ v'.error.isSome := by
  unfold observe at h
  cases latched : v.error with
  | some _ =>
    simp only [latched, Prod.mk.injEq] at h
    obtain ⟨-, rfl⟩ := h
    exact ⟨rfl, by simp [latched]⟩
  | none =>
    rw [latched] at h
    cases read : observeFields profile v s with
    | error _ =>
      simp only [read, Prod.mk.injEq] at h
      obtain ⟨-, rfl⟩ := h
      exact ⟨rfl, rfl⟩
    | ok advances => simp [read] at h

theorem runSamples_coherent (samples : List Sample) (h : Coherent v accepted) :
    Coherent (runSamples profile samples (v, accepted)).1 (runSamples profile samples (v, accepted)).2 := by
  induction samples generalizing v accepted with
  | nil => exact h
  | cons s rest ih =>
    unfold runSamples
    cases result : observe profile v s with
    | mk outcome v' =>
      cases outcome with
      | ok timing =>
        obtain ⟨-, advances, read, rfl⟩ := observe_ok result
        exact ih (h.accept (observeFields_eq_ok read))
      | error error =>
        have same := (observe_error result).1
        have kept : Coherent v' accepted := by
          rw [same]
          exact ⟨h.previous, h.elapsed, h.wraps, h.host⟩
        exact ih kept

theorem runSamples_latched (samples : List Sample) (latched : v.error.isSome) :
    runSamples profile samples (v, accepted) = (v, accepted) := by
  induction samples with
  | nil => rfl
  | cons s rest ih =>
    obtain ⟨error, there⟩ := Option.isSome_iff_exists.mp latched
    have refused : observe profile v s = (.error ("IMU_DEVICE_TIME_LATCHED: " ++ error), v) := by simp [observe, there]
    rw [runSamples, refused]
    exact ih

theorem fresh_coherent : Coherent .fresh [] := ⟨fun _ => rfl, fun _ => rfl, fun _ => rfl, rfl⟩

/-- The elapsed ticks of a field are its last raw value less the first one and a period for each wrap. A refused
sample leaves everything but the error, and all later ones are refused. An accepted value is above the one before,
within the gap if there is one, or wraps; a wrap of a field the sample before had agrees with the host within the
tolerance. -/
theorem device_time (profile : TimingProfile) (samples : List Sample) {v : Validator} {accepted : List Sample}
    (runs : runSamples profile samples (.fresh, []) = (v, accepted)) :
    (∀ field, v.elapsedTicks field = unwrapped (raws field accepted) ∧
      v.wraps field = (raws field accepted).head?.map fun _ => descents (raws field accepted)) ∧
    (∀ s error v', observe profile v s = (.error error, v') → v' = { v with error := v'.error } ∧
      ∀ later, runSamples profile later (v', accepted) = (v', accepted)) ∧
    ∀ s timing v', observe profile v s = (.ok timing, v') → ∀ field, ∀ value ∈ s.value field,
      ∀ previous ∈ (sightings field accepted).head?,
        (previous.1 < value ∧ ∀ gap ∈ profile.maxGapTicks, value - previous.1 ≤ gap) ∨
        (value < previous.1 ∧ profile.backwardPolicy = .guardedUint32Wrap ∧
          ∀ last ∈ accepted.head?, (last.value field).isSome → ∃ host ∈ s.hostMonotonicNs, ∃ before ∈ previous.2,
            ∃ tolerance ∈ profile.wrapHostToleranceNs,
              |(value - previous.1 + 2^32) * profile.tickNs - (host - before)| ≤ tolerance) := by
  have coherent : Coherent v accepted := by
    have all : Coherent (runSamples profile samples (.fresh, [])).1 (runSamples profile samples (.fresh, [])).2 :=
      runSamples_coherent samples fresh_coherent
    rw [runs] at all
    exact all
  refine ⟨fun field => ⟨coherent.elapsed field, coherent.wraps field⟩, fun s error v' refused => ?_, ?_⟩
  · obtain ⟨same, latched⟩ := observe_error refused
    exact ⟨same, fun later => runSamples_latched later latched⟩
  · intro s timing v' accepts field value here previous there
    obtain ⟨-, advances, read, -⟩ := observe_ok accepts
    obtain ⟨same, spec⟩ := observeFields_eq_ok read field
    rw [same] at here
    obtain ⟨a, advanced, rfl⟩ := Option.map_eq_some_iff.mp here
    have known : previous.1 ∈ v.previous field := by
      rw [coherent.previous, raws, List.head?_map]
      exact Option.map_eq_some_iff.mpr ⟨previous, there, rfl⟩
    rcases (spec a advanced).next previous.1 known with ⟨above, -, -, gap⟩ | ⟨below, delta, -, wraps⟩
    · exact .inl ⟨above, gap⟩
    · refine .inr ⟨below, wraps.guarded, fun last newest seen => ?_⟩
      -- the sample before had the field, so its host time is the one the code keeps
      have own : previous.2 = last.hostMonotonicNs := by
        obtain ⟨rest, split⟩ : ∃ rest, accepted = last :: rest := by
          cases accepted with
          | nil => cases newest
          | cons first rest => exact ⟨rest, by rw [Option.some.inj newest]⟩
        obtain ⟨old, had⟩ := Option.isSome_iff_exists.mp seen
        rw [split, sightings_cons, had] at there
        exact congrArg Prod.snd (Option.some.inj there).symm
      have host : v.previousHost = previous.2 := by
        rw [coherent.host, own]
        exact congrArg (Option.bind · _) newest
      obtain ⟨elapsed, given, tolerance, limit, near⟩ := wraps.agrees
      unfold hostDelta at given
      rw [host] at given
      obtain ⟨before, known₁, rest⟩ := Option.bind_eq_some_iff.mp given
      obtain ⟨time, known₂, rest⟩ := Option.bind_eq_some_iff.mp rest
      obtain rfl := Option.some.inj rest
      rw [delta] at near
      exact ⟨time, known₂, before, known₁, tolerance, limit, near⟩

end advance
namespace Bench

def profile : TimingProfile where
  deviceTimestampUnit := "us"
  tickNs := 1000
  requiredFields := [.sample]
  backwardPolicy := .guardedUint32Wrap
  maxGapTicks := some 1000000
  wrapHostToleranceNs := some 0
  profileSha256 := "synthetic"
  unit_scale := by simp
  sample_required := by simp
  maxGap_pos := by simp
  wrap_guards _ := by simp

def sample (raw host : ℤ) : Sample := ⟨⟨0, [], [], [("sample_timestamp_raw", .int raw)], ∅⟩, some host⟩

end Bench

/-- A counter that goes forward by 5000 ns is accepted where the host saw one. -/
theorem forward_unchecked : (observe Bench.profile (observe Bench.profile .fresh (Bench.sample 0 0)).2 (Bench.sample 5 1)).1.isOk ∧
    ∀ tolerance ∈ Bench.profile.wrapHostToleranceNs, ¬|(5 - 0) * Bench.profile.tickNs - (1 - 0)| ≤ tolerance := by
  refine ⟨by decide +kernel, fun tolerance given => ?_⟩
  obtain rfl := Option.some.inj given
  decide

/-- A wrap that takes 2000 ns is two ticks. -/
theorem bench_wraps : ∃ run, runSamples Bench.profile [Bench.sample (2^32 - 1) 0, Bench.sample 1 2000] (.fresh, []) = run ∧
    run.1.elapsedTicks .sample = unwrapped (raws .sample run.2) := by
  obtain ⟨run, runs⟩ : ∃ run, runSamples Bench.profile [Bench.sample (2^32 - 1) 0, Bench.sample 1 2000] (.fresh, []) = run :=
    ⟨_, rfl⟩
  exact ⟨run, runs, ((device_time Bench.profile [Bench.sample (2^32 - 1) 0, Bench.sample 1 2000] runs).1 .sample).1⟩

end Smartwheel.Imu
