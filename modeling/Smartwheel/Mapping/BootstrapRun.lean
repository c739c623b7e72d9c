import Mathlib.Data.List.Chain
import Smartwheel.Mapping.Bootstrap

/-! What a bootstrap retains in any sequence of messages. -/
namespace Smartwheel.Mapping.Bootstrap
open Effect
open Smartwheel.Calibration (Value)

section goes
variable {F T : Type}

def Next (a b : Sample F) : Prop :=
  b.epoch = a.epoch ∧ a.sequence < b.sequence ∧ 0 ≤ b.host - a.host ∧ b.host - a.host ≤ bootGapNs

def Retained (b b' : Boot F T) : Prop :=
  (b'.window = b.window ∧ b'.wheels = b.wheels) ∨ (b'.window = [] ∧ b'.wheels = [])

structure Made (numbers : Numbers F) (b : Boot F T) (sample : Sample F) (r : Ready F T) : Prop where
  samples : r.samples = b.window
  wheels : r.wheels = b.wheels
  mean : r.mean = some (numbers.mean (b.window.map Sample.acceleration))
  span : ∃ first, b.window.head? = some first ∧ bootWindowNs ≤ sample.host - first.host ∧
    r.windowHostSpanNs = some (sample.host - first.host)

inductive Goes (numbers : Numbers F) (w : World F T) : World F T → Prop
  | refused (b : Boot F T) (failure : Option String) (imu : b.lastImu = w.boot.lastImu) (wheel : b.lastWheel = w.boot.lastWheel)
      (ready : b.ready = w.boot.ready) (retained : Retained w.boot b) : Goes numbers w ⟨b, failure, w.events⟩
  | wheel (b : Boot F T) (failure : Option String) (record : Wheel) (imu : b.lastImu = w.boot.lastImu)
      (wheel : b.lastWheel = some record) (ready : b.ready = w.boot.ready) (retained : Retained w.boot b)
      (moving : w.boot.ready = none → record.zero = false → b.window = []) :
      Goes numbers w ⟨b, failure, w.events ++ [.wheel record]⟩
  | passed (b : Boot F T) (failure : Option String) (sample : Sample F) (nowNs : ℤ) (imu : b.lastImu = some sample)
      (wheel : b.lastWheel = w.boot.lastWheel) (ready : b.ready = w.boot.ready)
      (emptied : w.boot.ready = none → b.window = [] ∧ b.wheels = []) :
      Goes numbers w ⟨b, failure, w.events ++ [.imu sample nowNs w.boot.lastWheel]⟩
  | gathered (b : Boot F T) (failure : Option String) (sample : Sample F) (nowNs : ℤ) (record : Wheel)
      (before : Boot F T) (imu : b.lastImu = some sample) (wheel : b.lastWheel = w.boot.lastWheel)
      (going : w.boot.ready = none) (retained : Retained w.boot before)
      (next : before.window = [] ∨ ∀ last, w.boot.lastImu = some last → Next last sample)
      (rests : resting numbers sample = true) (there : w.boot.lastWheel = some record) (stands : standing nowNs record = true)
      (window : b.window = before.window ++ [sample]) (wheels : b.wheels = Boot.keep before.wheels record)
      (ready : b.ready = none ∨ ∃ r, b.ready = some r ∧ Made numbers b sample r) :
      Goes numbers w ⟨b, failure, w.events ++ [.imu sample nowNs w.boot.lastWheel]⟩

theorem Goes.fail {numbers : Numbers F} {w w' : World F T} (goes : Goes numbers w w') (failure : Option String) :
    Goes numbers w { w' with failure := failure } := by
  cases goes with
  | refused b _ imu wheel ready retained => exact .refused b failure imu wheel ready retained
  | wheel b _ record imu wheel ready retained moving => exact .wheel b failure record imu wheel ready retained moving
  | passed b _ sample nowNs imu wheel ready emptied => exact .passed b failure sample nowNs imu wheel ready emptied
  | gathered b _ sample nowNs record before imu wheel going retained next rests there stands window wheels ready =>
    exact .gathered b failure sample nowNs record before imu wheel going retained next rests there stands window wheels ready

theorem follow_keeps (b : Boot F T) (sequence host : ℤ) : (b.follow sequence host).lastImu = b.lastImu ∧
    (b.follow sequence host).lastWheel = b.lastWheel ∧ (b.follow sequence host).ready = b.ready ∧
    Retained b (b.follow sequence host) ∧
    (b.ready = none → (b.follow sequence host).window = [] ∨ ∀ last, b.lastImu = some last → host - last.host ≤ bootGapNs) := by
  unfold Boot.follow
  cases held : b.lastImu with
  | none => exact ⟨held, rfl, rfl, .inl ⟨rfl, rfl⟩, fun _ => .inr fun last absent => by cases absent⟩
  | some last =>
    dsimp only
    split
    · exact ⟨rfl, rfl, rfl, .inr ⟨rfl, rfl⟩, fun _ => .inl rfl⟩
    · next short =>
      refine ⟨rfl, rfl, rfl, .inl ⟨rfl, rfl⟩, fun going => .inr fun last' same => ?_⟩
      cases same
      by_contra gap
      exact short ⟨by omega, by rw [going]; rfl⟩

theorem turn_keeps (b : Boot F T) (record : Wheel) : (b.turn record).lastImu = b.lastImu ∧
    (b.turn record).lastWheel = some record ∧ (b.turn record).ready = b.ready ∧ Retained b (b.turn record) ∧
    (b.ready = none → record.zero = false → (b.turn record).window = []) := by
  unfold Boot.turn
  dsimp only
  split
  · exact ⟨rfl, rfl, rfl, .inr ⟨rfl, rfl⟩, fun _ _ => rfl⟩
  · next rests =>
    refine ⟨rfl, rfl, rfl, .inl ⟨rfl, rfl⟩, fun going moves => ?_⟩
    exact absurd ⟨moves, by rw [going]; rfl⟩ rests

theorem imuOrder_ok {last : Option (Sample F)} {sample : Sample F} {u : Unit} (h : imuOrder last sample = .ok u) :
    ∀ l, last = some l → sample.epoch = l.epoch ∧ l.sequence < sample.sequence ∧ l.host ≤ sample.host := by
  intro l same
  subst same
  obtain ⟨epoch, sequence, host, -⟩ := require_ok h
  exact ⟨epoch, sequence, host⟩

end goes

section steps
variable {F T : Type} {env : Env F T}

theorem wheel_goes (value : Value) (nowNs : ℤ) (w : World F T) :
    (wheel env.loads env.fromHex env.sha256 env.config value nowNs).wp (fun _ w' => Goes env.numbers w w') w := by
  unfold wheel
  simp only [Program.wp_bind]
  cases wheelRecord env.loads env.fromHex env.sha256 env.config value nowNs with
  | error e => exact .refused w.boot w.failure rfl rfl rfl (.inl ⟨rfl, rfl⟩)
  | ok record =>
    simp only [lift, Program.wp_pure, Program.andThen_value, Program.wp_bind, Program.wp_get]
    cases wheelOrder w.boot.lastWheel record with
    | error e => exact .refused w.boot w.failure rfl rfl rfl (.inl ⟨rfl, rfl⟩)
    | ok u =>
      obtain ⟨imu, wheel, ready, retained, moving⟩ := turn_keeps w.boot record
      exact .wheel (w.boot.turn record) w.failure record imu wheel ready retained moving

theorem gather_goes {w : World F T} {b : Boot F T} {sample : Sample F} {nowNs : ℤ} (going : w.boot.ready = none)
    (imu : b.lastImu = some sample) (wheel : b.lastWheel = w.boot.lastWheel) (ready : b.ready = none)
    (retained : Retained w.boot b) (next : b.window = [] ∨ ∀ last, w.boot.lastImu = some last → Next last sample) :
    (gather env.numbers env.transforms sample nowNs).wp (fun _ w' => Goes env.numbers w w')
      ⟨b, w.failure, w.events ++ [.imu sample nowNs w.boot.lastWheel]⟩ := by
  unfold gather
  simp only [Program.wp_bind, Program.wp_get, Program.andThen_value]
  have emptied : Goes env.numbers w ⟨b.reset, w.failure, w.events ++ [.imu sample nowNs w.boot.lastWheel]⟩ :=
    .passed b.reset w.failure sample nowNs imu wheel (ready.trans going.symm) fun _ => ⟨rfl, rfl⟩
  split
  · next record fresh rests =>
    obtain ⟨there, stands⟩ := Option.filter_eq_some_iff.mp fresh
    have held : ∀ b' : Boot F T, b'.lastImu = b.lastImu → b'.lastWheel = b.lastWheel → b'.window = b.window ++ [sample] →
        b'.wheels = Boot.keep b.wheels record →
        (b'.ready = none ∨ ∃ r, b'.ready = some r ∧ Made env.numbers b' sample r) →
        Goes env.numbers w ⟨b', w.failure, w.events ++ [.imu sample nowNs w.boot.lastWheel]⟩ :=
      fun b' imu' wheel' window wheels made => .gathered b' w.failure sample nowNs record b (imu'.trans imu)
        (wheel'.trans wheel) going retained next rests (wheel ▸ there) stands window wheels made
    have pending := held (b.append sample record) rfl rfl rfl rfl (.inl ready)
    simp only [update, Program.wp_bind, Program.wp_modify, Program.andThen_value, Program.wp_get, Program.wp_raiseIf]
    split
    · exact pending
    · rw [Program.wp_ite]
      split
      · exact pending
      · next long =>
        unfold complete
        simp only [Program.wp_bind, Program.wp_get, Program.andThen_value, Program.wp_raiseIf]
        split
        · exact pending
        · cases env.transforms (env.numbers.mean ((b.append sample record).window.map Sample.acceleration)) with
          | error e => exact pending
          | ok made =>
            refine held { b.append sample record with ready := some _ } rfl rfl rfl rfl (.inr ⟨_, rfl, rfl, rfl, rfl, ?_⟩)
            obtain ⟨first, top⟩ : ∃ first, (b.append sample record).window.head? = some first := by
              simp [Boot.append, List.head?_append]
            refine ⟨first, top, ?_, ?_⟩
            · rw [top] at long
              exact not_lt.mp long
            · rw [top]
              rfl
  · exact emptied

theorem imu_goes (m : ImuFrame F) (nowNs : ℤ) (w : World F T) :
    (imu env.numbers env.transforms env.config m nowNs).wp (fun _ w' => Goes env.numbers w w') w := by
  unfold imu
  simp only [Program.wp_bind]
  cases imuSample env.numbers env.config m nowNs with
  | error e => exact .refused w.boot w.failure rfl rfl rfl (.inl ⟨rfl, rfl⟩)
  | ok sample =>
    simp only [lift, Program.wp_pure, Program.andThen_value, Program.wp_bind, Program.wp_get]
    cases ordered : imuOrder w.boot.lastImu sample with
    | error e => exact .refused w.boot w.failure rfl rfl rfl (.inl ⟨rfl, rfl⟩)
    | ok u =>
      obtain ⟨imu, wheel, ready, retained, close⟩ := follow_keeps w.boot sample.sequence sample.host
      simp only [Program.wp_pure, Program.andThen_value, update, Program.wp_modify, Program.wp_bind, Program.raiseIf, Program.when]
      generalize w.boot.follow sample.sequence sample.host = b at imu wheel ready retained close
      split
      · exact .refused b w.failure imu wheel ready retained
      · change Program.wp (if b.ready.isSome then Pure.pure false else gather env.numbers env.transforms sample nowNs)
          (fun _ w' => Goes env.numbers w w')
          ⟨{ b with lastImu := some sample }, w.failure, w.events ++ [.imu sample nowNs b.lastWheel]⟩
        rw [wheel]
        split
        · next done =>
          refine .passed _ w.failure sample nowNs rfl rfl ready fun going => ?_
          rw [ready, going] at done
          cases done
        · next going =>
          have going : w.boot.ready = none := by rw [← ready]; exact Option.not_isSome_iff_eq_none.mp going
          refine gather_goes going rfl rfl (ready.trans going) retained ?_
          refine (close going).imp_right fun short last held => ?_
          obtain ⟨epoch, sequence, host⟩ := imuOrder_ok ordered last held
          exact ⟨epoch, sequence, by omega, short last held⟩

theorem serve_goes (call : Call F) (w : World F T) : Goes env.numbers w (serve env call w).2 := by
  cases call with
  | wheel value nowNs => exact wheel_goes value nowNs w
  | imu m nowNs =>
    have served : (serve env (.imu m nowNs)).wp (fun _ w' => Goes env.numbers w w') w :=
      (imu_goes m nowNs w).seq (fun _ _ goes => goes) (fun _ _ goes => goes) fun _ goes => goes
    exact served

theorem ensureActive_same (other : Option String) (w : World F T) :
    (ensureActive other : Act F T Unit).wp (fun r w' => w' = w ∧ (r = .value () → w.failure = none)) w := by
  unfold ensureActive
  rw [Program.wp_bind, Program.wp_get, Program.andThen_value]
  cases held : w.failure with
  | some reason => exact ⟨rfl, fun h => by cases h⟩
  | none =>
    cases other with
    | some e | none => exact ⟨rfl, fun _ => rfl⟩

def Ended (w w' : World F T) : Prop := w'.failure ≠ none ∧ w'.boot = w.boot ∧ w'.events = w.events

theorem guarded {α : Type} {x : Act F T α} {w : World F T} (other : Option String)
    (inner : x.wp (fun _ w' => Goes env.numbers w w') w) :
    (Program.handle (do ensureActive other; x) failWith).wp (fun _ w' => Goes env.numbers w w' ∧
      (w.failure ≠ none → Ended w w')) w := by
  have same : Goes env.numbers w w := .refused w.boot w.failure rfl rfl rfl (.inl ⟨rfl, rfl⟩)
  rw [Program.wp_handle]
  refine (ensureActive_same other w).seq ?_ ?_ ?_
  · rintro ⟨⟩ w' ⟨rfl, active⟩
    refine inner.mono ?_
    rintro (a | e | _) w'' goes
    · exact ⟨goes, fun failed => absurd (active rfl) failed⟩
    · exact ⟨goes.fail _, fun failed => absurd (active rfl) failed⟩
    · exact ⟨goes, fun failed => absurd (active rfl) failed⟩
  · rintro e w' ⟨rfl, -⟩
    exact ⟨same.fail _, fun _ => ⟨Option.some_ne_none _, rfl, rfl⟩⟩
  · rintro w' ⟨rfl, -⟩
    exact ⟨same, fun failed => ⟨failed, rfl, rfl⟩⟩

theorem act_goes (input : Input F) (w : World F T) : Goes env.numbers w (act env input w).2 ∧
    (w.failure ≠ none → Ended w (act env input w).2) := by
  cases input with
  | wheel value nowNs other => exact guarded other (wheel_goes value nowNs w)
  | imu m nowNs other submit =>
    have served : (act env (.imu m nowNs other submit)).wp (fun _ w' => Goes env.numbers w w' ∧
        (w.failure ≠ none → Ended w w')) w := by
      refine (guarded other ?_).seq (fun _ _ h => h) (fun _ _ h => h) fun _ h => h
      refine (imu_goes m nowNs w).seq ?_ (fun _ _ goes => goes) fun _ goes => goes
      intro done w' goes
      cases done with
      | false => exact goes
      | true =>
        cases submit with
        | some e | none => exact goes
    exact served
  | fail reason => exact ⟨.refused w.boot _ rfl rfl rfl (.inl ⟨rfl, rfl⟩), fun _ => ⟨Option.some_ne_none _, rfl, rfl⟩⟩

theorem run_ended {w : World F T} (failed : w.failure ≠ none) (inputs : List (Input F)) : Ended w (run env w inputs) := by
  induction inputs generalizing w with
  | nil => exact ⟨failed, rfl, rfl⟩
  | cons input rest ih =>
    obtain ⟨still, boot, events⟩ := (act_goes input w).2 failed
    obtain ⟨failed', boot', events'⟩ := ih still
    exact ⟨failed', boot'.trans boot, events'.trans events⟩

end steps

/-! ### What is retained -/

section retained
variable {F T : Type}

def sampleOf : Event F → Option (Sample F)
  | .imu sample _ _ => some sample
  | .wheel _ => none

def recordOf : Event F → Option Wheel
  | .imu _ _ _ => none
  | .wheel record => some record

def samplesOf (events : List (Event F)) : List (Sample F) := events.filterMap sampleOf

def recordsOf (events : List (Event F)) : List Wheel := events.filterMap recordOf

def Still (numbers : Numbers F) : Event F → Prop
  | .imu sample nowNs record => resting numbers sample = true ∧ ∃ r, record = some r ∧ standing nowNs r = true
  | .wheel record => record.zero = true

structure Held (numbers : Numbers F) (segment : List (Event F)) (window : List (Sample F)) (wheels : List Wheel) : Prop where
  samples : samplesOf segment = window
  still : ∀ e ∈ segment, Still numbers e
  chain : window.IsChain Next
  zero : ∀ record ∈ wheels, record.zero = true

structure Completed (numbers : Numbers F) (events : List (Event F)) (r : Ready F T) : Prop where
  held : ∃ before segment after, events = before ++ segment ++ after ∧ Held numbers segment r.samples r.wheels
  span : ∃ first last, r.samples.head? = some first ∧ r.samples.getLast? = some last ∧ bootWindowNs ≤ last.host - first.host ∧
    r.windowHostSpanNs = some (last.host - first.host)
  mean : r.mean = some (numbers.divide (numbers.sum (r.samples.map Sample.acceleration)) r.samples.length)

structure Sound (env : Env F T) (w : World F T) : Prop where
  wheel : w.boot.lastWheel = (recordsOf w.events).getLast?
  imu : w.boot.lastImu = (samplesOf w.events).getLast?
  paired : ∀ before sample nowNs record after, w.events = before ++ .imu sample nowNs record :: after →
    record = (recordsOf before).getLast?
  window : w.boot.ready = none → ∃ before segment, w.events = before ++ segment ∧
    Held env.numbers segment w.boot.window w.boot.wheels
  completed : env.config.continuousMapping = false → ∀ r, w.boot.ready = some r → Completed env.numbers w.events r

variable {wheels : List Wheel}

theorem keep_zero {record : Wheel} (zero : ∀ w ∈ wheels, w.zero = true) (rest : record.zero = true) :
    ∀ w ∈ Boot.keep wheels record, w.zero = true := by
  intro w there
  unfold Boot.keep at there
  split at there
  · obtain ⟨old, known, rfl⟩ := List.mem_map.mp there
    split
    · exact rest
    · exact zero old known
  · rcases List.mem_append.mp there with known | new
    · exact zero w known
    · rw [List.mem_singleton.mp new]
      exact rest

variable {events : List (Event F)}

theorem paired_append {e : Event F}
    (paired : ∀ before sample nowNs record after, events = before ++ .imu sample nowNs record :: after →
      record = (recordsOf before).getLast?)
    (new : ∀ sample nowNs record, e = .imu sample nowNs record → record = (recordsOf events).getLast?)
    (before : List (Event F)) (sample : Sample F) (nowNs : ℤ) (record : Option Wheel) (after : List (Event F))
    (split : events ++ [e] = before ++ .imu sample nowNs record :: after) : record = (recordsOf before).getLast? := by
  rcases List.eq_nil_or_concat after with rfl | ⟨after, last, rfl⟩
  · obtain ⟨rfl, same⟩ := List.append_inj' split rfl
    exact new sample nowNs record (List.singleton_inj.mp same)
  · refine paired before sample nowNs record after ?_
    have whole : events ++ [e] = (before ++ .imu sample nowNs record :: after) ++ [last] := by simpa using split
    exact (List.append_inj' whole rfl).1

theorem Completed.append {numbers : Numbers F} {r : Ready F T} (done : Completed numbers events r)
    (e : Event F) : Completed numbers (events ++ [e]) r where
  held := by
    obtain ⟨before, segment, after, rfl, held⟩ := done.held
    exact ⟨before, segment, after ++ [e], by simp, held⟩
  span := done.span
  mean := done.mean

theorem held_empty (numbers : Numbers F) (events : List (Event F)) (zero : ∀ record ∈ wheels, record.zero = true) :
    ∃ before segment, events = before ++ segment ∧ Held numbers segment [] wheels :=
  ⟨events, [], (List.append_nil events).symm, rfl, fun _ absent => absurd absent List.not_mem_nil, List.isChain_nil, zero⟩

variable {segment : List (Event F)}

theorem Held.retained {numbers : Numbers F} {b b' : Boot F T} (held : Held numbers segment b.window b.wheels)
    (events : List (Event F)) (before : List (Event F)) (split : events = before ++ segment) (retained : Retained b b') :
    ∃ before segment, events = before ++ segment ∧ Held numbers segment b'.window b'.wheels := by
  rcases retained with ⟨window, wheels⟩ | ⟨window, wheels⟩
  · rw [window, wheels]
    exact ⟨before, segment, split, held⟩
  · rw [window, wheels]
    exact held_empty numbers events fun _ absent => absurd absent List.not_mem_nil

theorem Held.snoc {numbers : Numbers F} {window : List (Sample F)} {wheels' : List Wheel}
    (held : Held numbers segment window wheels) {e : Event F} (still : Still numbers e)
    (next : ∀ last ∈ window.getLast?, ∀ sample ∈ sampleOf e, Next last sample) (zero : ∀ record ∈ wheels', record.zero = true) :
    Held numbers (segment ++ [e]) (window ++ (sampleOf e).toList) wheels' where
  samples := by
    unfold samplesOf
    rw [List.filterMap_append, ← held.samples]
    cases e <;> rfl
  still := by
    intro e' there
    rcases List.mem_append.mp there with old | new
    · exact held.still e' old
    · rw [List.mem_singleton.mp new]
      exact still
  chain := by
    refine List.isChain_append.mpr ⟨held.chain, ?_, ?_⟩
    · cases sampleOf e with
      | none => exact List.isChain_nil
      | some sample => exact List.isChain_singleton sample
    · intro last there sample head
      refine next last there sample ?_
      cases made : sampleOf e with
      | none =>
        rw [made] at head
        cases head
      | some sample' =>
        rw [made] at head
        exact head
  zero := zero

theorem samplesOf_snoc (events : List (Event F)) (e : Event F) :
    samplesOf (events ++ [e]) = samplesOf events ++ (sampleOf e).toList := by
  unfold samplesOf
  rw [List.filterMap_append]
  cases e <;> rfl

theorem recordsOf_snoc (events : List (Event F)) (e : Event F) :
    recordsOf (events ++ [e]) = recordsOf events ++ (recordOf e).toList := by
  unfold recordsOf
  rw [List.filterMap_append]
  cases e <;> rfl

theorem window_last {numbers : Numbers F} {before : List (Event F)} {window : List (Sample F)}
    (split : events = before ++ segment) (held : Held numbers segment window wheels) :
    ∀ last ∈ window.getLast?, (samplesOf events).getLast? = some last := by
  intro last there
  have parts : samplesOf events = samplesOf before ++ window := by
    rw [split, ← held.samples]
    exact List.filterMap_append
  rw [parts, List.getLast?_append, there]
  rfl

variable {env : Env F T}

theorem Sound.track {w : World F T} (sound : Sound env w) {b : Boot F T} {sample : Sample F} {nowNs : ℤ}
    (imu : b.lastImu = some sample) (wheel : b.lastWheel = w.boot.lastWheel) :
    let events := w.events ++ [.imu sample nowNs w.boot.lastWheel]
    b.lastWheel = (recordsOf events).getLast? ∧ b.lastImu = (samplesOf events).getLast? ∧
      ∀ before sample nowNs record after, events = before ++ .imu sample nowNs record :: after →
        record = (recordsOf before).getLast? := by
  refine ⟨?_, ?_, ?_⟩
  · rw [recordsOf_snoc]
    exact (wheel.trans sound.wheel).trans (congrArg List.getLast? (List.append_nil _).symm)
  · rw [samplesOf_snoc]
    exact imu.trans List.getLast?_concat.symm
  · refine paired_append sound.paired fun sample' nowNs' record same => ?_
    cases same
    exact sound.wheel

theorem Sound.goes {w w' : World F T} (sound : Sound env w) (goes : Goes env.numbers w w') : Sound env w' := by
  cases goes with
  | refused b failure imu wheel ready retained =>
    refine ⟨wheel.trans sound.wheel, imu.trans sound.imu, sound.paired, fun going => ?_, fun fixed r made => ?_⟩
    · obtain ⟨before, segment, split, held⟩ := sound.window (ready ▸ going)
      exact held.retained w.events before split retained
    · exact sound.completed fixed r (ready ▸ made)
  | wheel b failure record imu wheel ready retained moving =>
    refine ⟨?_, ?_, ?_, fun going => ?_, fun fixed r made => ?_⟩
    · rw [recordsOf_snoc]
      exact wheel.trans List.getLast?_concat.symm
    · rw [samplesOf_snoc]
      exact (imu.trans sound.imu).trans (congrArg List.getLast? (List.append_nil _).symm)
    · exact paired_append sound.paired fun sample nowNs record' same => by cases same
    · have going : w.boot.ready = none := ready ▸ going
      obtain ⟨before, segment, split, held⟩ := sound.window going
      obtain ⟨before, segment, split, held⟩ := held.retained w.events before split retained
      cases zero : record.zero with
      | true =>
        refine ⟨before, segment ++ [.wheel record], by rw [split, List.append_assoc], ?_⟩
        have grown := held.snoc (e := .wheel record) zero (fun _ _ _ absent => by cases absent) held.zero
        exact List.append_nil b.window ▸ grown
      | false =>
        rw [moving going zero]
        exact held_empty env.numbers _ held.zero
    · exact (sound.completed fixed r (ready ▸ made)).append _
  | passed b failure sample nowNs imu wheel ready emptied =>
    obtain ⟨records, samples, paired⟩ := sound.track imu wheel
    refine ⟨records, samples, paired, fun going => ?_, fun fixed r made => ?_⟩
    · obtain ⟨window, wheels⟩ := emptied (ready ▸ going)
      rw [window, wheels]
      exact held_empty env.numbers _ fun _ absent => absurd absent List.not_mem_nil
    · exact (sound.completed fixed r (ready ▸ made)).append _
  | gathered b failure sample nowNs record before imu wheel going retained next rests there stands window wheels ready =>
    have grown : ∃ before segment, w.events ++ [.imu sample nowNs w.boot.lastWheel] = before ++ segment ∧
        Held env.numbers segment b.window b.wheels := by
      obtain ⟨pre, segment, split, held⟩ := sound.window going
      obtain ⟨pre, segment, split, held⟩ := held.retained w.events pre split retained
      refine ⟨pre, segment ++ [.imu sample nowNs w.boot.lastWheel], by rw [split, List.append_assoc], ?_⟩
      rw [window, wheels]
      have zero : record.zero = true := by
        unfold standing at stands
        rw [Bool.and_eq_true, Bool.and_eq_true] at stands
        exact stands.1.1
      refine held.snoc (e := .imu sample nowNs w.boot.lastWheel) ⟨rests, record, there, stands⟩ ?_ (keep_zero held.zero zero)
      intro last top sample' same
      cases same
      rcases next with empty | close
      · rw [empty] at top
        cases top
      · exact close last (sound.imu.trans (window_last split held last top))
    obtain ⟨records, samples, paired⟩ := sound.track imu wheel
    refine ⟨records, samples, paired, fun _ => grown, fun fixed r made => ?_⟩
    · rcases ready with pending | ⟨r', made', parts⟩
      · rw [pending] at made
        cases made
      · cases Option.some.inj (made'.symm.trans made)
        obtain ⟨pre, segment, split, held⟩ := grown
        obtain ⟨first, top, span, recorded⟩ := parts.span
        refine ⟨⟨pre, segment, [], by rw [split, List.append_nil], ?_⟩, ⟨first, sample, ?_, ?_, span, recorded⟩, ?_⟩
        · rw [parts.samples, parts.wheels]
          exact held
        · rw [parts.samples]
          exact top
        · rw [parts.samples, window]
          exact List.getLast?_concat
        · rw [parts.mean, parts.samples]
          unfold Numbers.mean
          rw [List.length_map]

theorem Sound.init (startedNs : ℤ) (fixed : T) : Sound env (World.init env startedNs fixed) where
  wheel := rfl
  imu := rfl
  paired before sample nowNs record after split := by
    cases List.append_ne_nil_of_right_ne_nil before (List.cons_ne_nil _ after) split.symm
  window _ := held_empty env.numbers [] fun _ absent => absurd absent List.not_mem_nil
  completed profile r made := by
    have pending : (World.init env startedNs fixed).boot.ready = none := by
      change (if env.config.continuousMapping then _ else none) = none
      rw [profile]
      rfl
    rw [pending] at made
    cases made

theorem Sound.calls {w : World F T} (sound : Sound env w) (made : List (Call F)) : Sound env (calls env w made) := by
  induction made generalizing w with
  | nil => exact sound
  | cons call rest ih => exact ih (sound.goes (serve_goes call w))

theorem Sound.run {w : World F T} (sound : Sound env w) (inputs : List (Input F)) : Sound env (run env w inputs) := by
  induction inputs generalizing w with
  | nil => exact sound
  | cons input rest ih => exact ih (sound.goes (act_goes input w).1)

structure Emptied (env : Env F T) (w : World F T) : Prop where
  moved : ∀ before e, w.events = before ++ [e] → ¬Still env.numbers e → w.boot.window = []
  gap : ∀ before a b, samplesOf w.events = before ++ [a, b] → bootGapNs < b.host - a.host →
    w.boot.window = [] ∨ w.boot.window = [b]

theorem Sound.emptied {w : World F T} (sound : Sound env w) (going : w.boot.ready = none) : Emptied env w := by
  obtain ⟨pre, segment, split, held⟩ := sound.window going
  refine ⟨fun before e last moves => ?_, fun before a b ends wide => ?_⟩
  · rcases List.eq_nil_or_concat' segment with rfl | ⟨segment, e', rfl⟩
    · exact held.samples.symm
    · rw [split, ← List.append_assoc] at last
      cases List.singleton_inj.mp (List.append_inj' last rfl).2
      exact absurd (held.still e (by simp)) moves
  · have parts : samplesOf pre ++ w.boot.window = before ++ [a, b] := by
      rw [← ends, split, ← held.samples]
      exact List.filterMap_append.symm
    rcases List.eq_nil_or_concat' w.boot.window with empty | ⟨window, last, whole⟩
    · exact .inl empty
    · right
      rw [whole] at parts ⊢
      have ends : (samplesOf pre ++ window) ++ [last] = (before ++ [a]) ++ [b] := by simpa using parts
      obtain ⟨front, same⟩ := List.append_inj' ends rfl
      cases List.singleton_inj.mp same
      rcases List.eq_nil_or_concat' window with rfl | ⟨window, last', rfl⟩
      · rfl
      · rw [← List.append_assoc] at front
        cases List.singleton_inj.mp (List.append_inj' front rfl).2
        have chain := held.chain
        rw [whole, List.append_assoc] at chain
        have next := List.isChain_pair.mp (List.isChain_append.mp chain).2.1
        exact absurd next.2.2.2 (not_le.mpr wide)

/-- In any sequence of messages, let in or not: the window and what it is completed with are samples of a part of the
input in which everything is still and no two samples are far apart. What is not still, and a gap, empty the window,
and nothing changes once the owner failed. -/
theorem window_retained (env : Env F T) (startedNs : ℤ) (fixed : T) :
    (∀ made, let w := calls env (World.init env startedNs fixed) made
      Sound env w ∧ (w.boot.ready = none → Emptied env w)) ∧
    ∀ inputs, let w := run env (World.init env startedNs fixed) inputs
      Sound env w ∧ (w.boot.ready = none → Emptied env w) ∧
      (w.failure ≠ none → ∀ more, Ended w (run env w more)) := by
  refine ⟨fun made => ?_, fun inputs => ?_⟩
  · have sound : Sound env _ := (Sound.init startedNs fixed).calls made
    exact ⟨sound, sound.emptied⟩
  · have sound : Sound env _ := (Sound.init startedNs fixed).run inputs
    exact ⟨sound, sound.emptied, fun failed more => run_ended failed more⟩

end retained

namespace Bench

def numbers : Numbers ℤ where
  finite _ := true
  norm v := v.1.natAbs + v.2.1.natAbs + v.2.2.natAbs
  le a b := decide (a ≤ b)
  maxGyro := 0
  lowGravity := 8
  highGravity := 12
  sum rows := rows.foldl (fun s v => (s.1 + v.1, s.2.1 + v.2.1, s.2.2 + v.2.2)) (0, 0, 0)
  divide v n := (v.1 / n, v.2.1 / n, v.2.2 / n)

def env : Env ℤ Unit where
  loads _ := .error "JSON"
  fromHex _ := .ok [1, 3, 4, 0, 0, 0, 0, 250, 51]
  sha256 _ := "h"
  numbers := numbers
  transforms _ := .ok ()
  config := ⟨"bench", "imu", "wheel", false, false⟩

def record (seq time : ℤ) : Value := .object [("schema", .text "wc_wheel_feedback_v1"), ("device_id", .text "wheel"),
  ("status", .text "RESPONSE_VALID"), ("time_source", .text "arrival_only"), ("time_valid", .bool false),
  ("formal_odometry_eligible", .bool false), ("control_transmissions", .int 0), ("request_hex", .text "010320ab0002be2b"),
  ("response_hex", .text "01030400000000fa33"), ("response_sha256", .text "h"), ("register_words_u16", .list [.int 0, .int 0]),
  ("receive_monotonic_ns", .int time), ("stamp_ns", .int time), ("sequence", .int seq), ("stream_epoch", .text "e")]

def sample (seq time : ℤ) : ImuFrame ℤ where
  sessionId := "bench"
  sensorId := "imu"
  frameId := "imu_h30_native"
  imuFrameId := "imu_h30_native"
  coordinateConvention := "H30_NATIVE_UNVALIDATED"
  timeSource := "arrival_only"
  commonTimeValid := false
  uncertaintyValid := false
  commonTimeNs := 0
  stamp := ⟨seq, 0⟩
  imuStamp := ⟨seq, 0⟩
  hostReceiveTime := ⟨seq, 0⟩
  hostMonotonicNs := time
  frameSequence := seq
  streamEpoch := "e"
  angularVelocityValid := true
  linearAccelerationValid := true
  angularVelocity := (0, 0, 0)
  linearAcceleration := (0, 0, 10)
  rawPacket := [0]

def inputs : List (Input ℤ) :=
  (List.range 6).flatMap fun n => [.wheel (record (n + 1) (n * 400000000 + 1)) (n * 400000000 + 1) none,
    .imu (sample (n + 1) (n * 400000000 + 2)) (n * 400000000 + 2) none none]

end Bench

theorem bench_completed :
    let w := run Bench.env (World.init Bench.env 0 ()) Bench.inputs
    (w.boot.ready.map fun r => (r.samples.map Sample.sequence, r.mean, r.windowHostSpanNs)) =
      some ([1, 2, 3, 4, 5, 6], some (0, 0, 10), some 2000000000) ∧ Sound Bench.env w :=
  ⟨by decide +kernel, ((window_retained Bench.env 0 ()).2 Bench.inputs).1⟩

end Smartwheel.Mapping.Bootstrap
