import Smartwheel.Modbus.Exchange
import Smartwheel.Motion.OdometryRun

/-! `HistoryPreview`: wheel feedback of an archive, integrated between consecutive arrivals. Numbers are exact. -/
namespace Smartwheel.Motion.Preview
open Effect Modbus

/-- What `bytes.fromhex` makes of a field. -/
inductive Hex where
  | absent
  | refused (text : String) (spoken : text ≠ "")
  | bytes (b : Bytes)

/-- The fields of a record that are read; a text or a truth value that is none is `none`. -/
structure Record where
  schema : Option String
  status : Option String
  deviceId : Option String
  request : Hex
  response : Hex
  stampNs : Given ℤ
  receiveMonotonicNs : Given ℤ
  sequence : Given ℤ
  streamEpoch : Given String
  timeValid : Option Bool
  timeSource : Option String

structure Config where
  deviceId : Option String
  expectedDeviceId : Option String
  continuous : Bool
  wheelRadiusM : ℚ
  trackWidthM : ℚ
  registerToWheelRpm : ℚ
  maxGapS : ℚ
  maxWheelSpeedMS : ℚ
  leftSign : ℤ
  rightSign : ℤ
  provenance : String
  devices_agree : ∀ a ∈ deviceId, ∀ b ∈ expectedDeviceId, a = b
  wheelRadius_bounds : 1/100 ≤ wheelRadiusM ∧ wheelRadiusM ≤ 1
  trackWidth_bounds : 1/10 ≤ trackWidthM ∧ trackWidthM ≤ 2
  register_bounds : 1/10000 ≤ registerToWheelRpm ∧ registerToWheelRpm ≤ 100
  gap_bounds : 1/100 ≤ maxGapS ∧ maxGapS ≤ 1
  speed_bounds : 1/100 ≤ maxWheelSpeedMS ∧ maxWheelSpeedMS ≤ 3
  signs : leftSign ∈ [-1, 1] ∧ rightSign ∈ [-1, 1]
  provenance_ne : provenance ≠ ""

structure Reading where
  stamp : ℤ
  receive : ℤ
  sequence : ℤ
  epoch : String
  raw : Wheels ℤ
  rpm : Wheels ℚ
  speeds : Wheels ℚ
deriving DecidableEq, Repr

structure HistoryPreview where
  deviceId : Option String
  previous : Option Reading
  pose : Pose
  distance : ℚ
  travel : ℚ
  wheelTravel : Wheels ℚ
  blocked : Option String
  gapCount : ℕ
  missingSequences : ℤ
  uncoveredDurationS : ℚ
deriving DecidableEq, Repr

/-- What `update` returns, without its constants. -/
structure Sample where
  reading : Reading
  linearVelocityMS : ℚ
  angularVelocityRadS : ℚ
  pose : Pose
  distance : ℚ
  travel : ℚ
  wheelTravel : Wheels ℚ
  integrationIntervalS : Option ℚ
  sourceIntervalS : Option ℚ
  continuousMapping : Bool
  integrationGap : Bool
  missingSequencesThisInterval : ℤ
  integrationGapCount : ℕ
  missingSequences : ℤ
  uncoveredDurationS : ℚ
  motionCoverageComplete : Bool
  gapHandling : Option String
  parameterProvenance : String
deriving DecidableEq, Repr

def HistoryPreview.initial (c : Config) : HistoryPreview where
  deviceId := c.expectedDeviceId.or c.deviceId
  previous := none
  pose := ⟨0, 0, 0⟩
  distance := 0
  travel := 0
  wheelTravel := ⟨0, 0⟩
  blocked := none
  gapCount := 0
  missingSequences := 0
  uncoveredDurationS := 0

/-- The text of the `KeyError` of a field that is missing. -/
def missing (field : String) : String := "'" ++ field ++ "'"

def integer (value : Given ℤ) (field name : String) (lower : ℤ) : Except String ℤ :=
  match value with
  | .absent => .error (missing field)
  | .improper => Motion.integer none name lower none
  | .value v => Motion.integer (some v) name lower none

def fromHex (value : Hex) (field : String) : Except String Bytes :=
  match value with
  | .absent => .error (missing field)
  | .refused text _ => .error text
  | .bytes b => .ok b

def isIdentityChar (c : Char) : Bool := c.isAlphanum || c ∈ ['_', '.', ':', '-']

/-- `identity_token` with the prefix `ZLAC8030D-`. -/
def identityToken (value : Option String) : Except String String :=
  match value with
  | none => .error "explicit bounded sensor identity required"
  | some v => do
    refuse (¬(v.toList.head?.any Char.isAlphanum ∧ v.toList.tail.all isIdentityChar ∧ v.length ≤ 128))
      "explicit bounded sensor identity required"
    refuse (¬"ZLAC8030D-".toList <+: v.toList ∨ v.length = "ZLAC8030D-".length)
      "sensor identity must start with ZLAC8030D- and identify one device"
    return v

def identify (r : Record) : Except String String := do
  refuse (r.schema ≠ some "wc_wheel_feedback_v1" ∨ r.status ≠ some "RESPONSE_VALID") "preview requires valid identified feedback"
  identityToken r.deviceId

def epochOf (epoch : Given String) : Except String String :=
  match epoch with
  | .absent => .error (missing "stream_epoch")
  | .improper => .error "feedback stream epoch required"
  | .value e => do
    refuse (e = "") "feedback stream epoch required"
    return e

def registers (request response : Bytes) : Except String (List Word) :=
  match parseExchange request response with
  | .ok words => .ok words
  | .error fault => .error fault.text

section update
variable (t : Trig) (c : Config)

def rpmOf (raw : Wheels ℤ) : Wheels ℚ :=
  ⟨raw.left * c.registerToWheelRpm * c.leftSign, raw.right * c.registerToWheelRpm * c.rightSign⟩

def speedsOf (rpm : Wheels ℚ) : Wheels ℚ :=
  ⟨rpm.left * (2 * t.pi / 60) * c.wheelRadiusM, rpm.right * (2 * t.pi / 60) * c.wheelRadiusM⟩

def read (r : Record) : Except String Reading := do
  let request ← fromHex r.request "request_hex"
  let response ← fromHex r.response "response_hex"
  refuse (request ≠ query) "preview request is not the reviewed feedback query"
  let words ← registers request response
  let stamp ← integer r.stampNs "stamp_ns" "arrival timestamp" 1
  let receive ← integer r.receiveMonotonicNs "receive_monotonic_ns" "arrival monotonic time" 1
  let sequence ← integer r.sequence "sequence" "sequence" 0
  let epoch ← epochOf r.streamEpoch
  refuse (r.timeValid ≠ some false ∨ r.timeSource ≠ some "arrival_only")
    "preview must retain arrival-only timing classification"
  let raw : Wheels ℤ := ⟨signed (words.getD 0 0), signed (words.getD 1 0)⟩
  let speeds := speedsOf t c (rpmOf c raw)
  refuse (c.maxWheelSpeedMS < max |speeds.left| |speeds.right|) "candidate wheel speed exceeds preview plausibility bound"
  return ⟨stamp, receive, sequence, epoch, raw, rpmOf c raw, speeds⟩

/-- `interval`, between two arrivals. -/
def interval (now previous : Reading) : ℚ := (now.receive - previous.receive : ℤ) * (1 / 10 ^ 9)

def missed (now previous : Reading) : ℤ := now.sequence - previous.sequence - 1

def IsGap (now previous : Reading) : Prop := missed now previous ≠ 0 ∨ c.maxGapS < interval now previous

instance (now previous : Reading) : Decidable (IsGap c now previous) := inferInstanceAs (Decidable (_ ∨ _))

def continues (now previous : Reading) : Except String Unit := do
  refuse (now.epoch ≠ previous.epoch ∨ now.sequence ≤ previous.sequence ∨ now.stamp ≤ previous.stamp ∨
    now.receive ≤ previous.receive) "preview identity/sequence/time discontinuity"
  refuse (missed now previous ≠ 0 ∧ c.continuous = false) "preview identity/sequence/time discontinuity"
  refuse (c.maxGapS < interval now previous ∧ c.continuous = false) "preview feedback gap; integration stopped"

def HistoryPreview.skip (s : HistoryPreview) (now previous : Reading) : HistoryPreview :=
  { s with
    gapCount := s.gapCount + 1
    missingSequences := s.missingSequences + missed now previous
    uncoveredDurationS := s.uncoveredDurationS + interval now previous }

def HistoryPreview.integrate (s : HistoryPreview) (now previous : Reading) : HistoryPreview :=
  let dt := interval now previous
  let travel : Wheels ℚ :=
    ⟨(now.speeds.left + previous.speeds.left) * (1 / 2) * dt, (now.speeds.right + previous.speeds.right) * (1 / 2) * dt⟩
  let distance := (travel.left + travel.right) / 2
  { s with
    pose := s.pose.integrate t travel c.trackWidthM
    distance := s.distance + distance
    travel := s.travel + |distance|
    wheelTravel := ⟨s.wheelTravel.left + travel.left, s.wheelTravel.right + travel.right⟩ }

def HistoryPreview.cover (s : HistoryPreview) (now : Reading) : HistoryPreview :=
  match s.previous with
  | none => s
  | some previous => if IsGap c now previous then s.skip now previous else s.integrate t c now previous

def HistoryPreview.sample (s : HistoryPreview) (now : Reading) (previous : Option Reading) : Sample :=
  let gap := decide (∃ p ∈ previous, IsGap c now p)
  { reading := now
    linearVelocityMS := (now.speeds.left + now.speeds.right) / 2
    angularVelocityRadS := (now.speeds.right - now.speeds.left) / c.trackWidthM
    pose := s.pose
    distance := s.distance
    travel := s.travel
    wheelTravel := s.wheelTravel
    integrationIntervalS := if gap then none else previous.map (interval now)
    sourceIntervalS := previous.map (interval now)
    continuousMapping := c.continuous
    integrationGap := gap
    missingSequencesThisInterval := previous.elim 0 (missed now)
    integrationGapCount := s.gapCount
    missingSequences := s.missingSequences
    uncoveredDurationS := s.uncoveredDurationS
    motionCoverageComplete := s.gapCount = 0
    gapHandling := if gap then some "POSE_HELD; integration resumes between subsequent covered samples" else none
    parameterProvenance := c.provenance }

def HistoryPreview.admit (s : HistoryPreview) (r : Record) (identity : String) : Except String Reading := do
  refuse (some identity ≠ s.deviceId) "preview feedback device identity changed"
  let now ← read t c r
  match s.previous with
  | none => return now
  | some previous => do
    continues c now previous
    return now

/-- `_update`; the identity stays bound where a later check fails. -/
def HistoryPreview.observe (s : HistoryPreview) (r : Record) : Except String Sample × HistoryPreview :=
  match identify r with
  | .error reason => (.error reason, s)
  | .ok identity =>
    let s := { s with deviceId := s.deviceId.or (some identity) }
    match s.admit t c r identity with
    | .error reason => (.error reason, s)
    | .ok now =>
      let s' := { s.cover t c now with previous := some now }
      (.ok (s'.sample c now s.previous), s')

/-- `update`. A reason that is empty does not block. -/
def HistoryPreview.update (s : HistoryPreview) (r : Record) : Except String Sample × HistoryPreview :=
  match s.blocked.filter (· ≠ "") with
  | some reason => (.error ("preview integration BLOCKED: " ++ reason), s)
  | none =>
    match s.observe t c r with
    | (.ok sample, s') => (.ok sample, s')
    | (.error reason, s') => (.error reason, { s' with blocked := some reason })

end update

/-! ### Runs of `HistoryPreview`: what is covered and what is not add up to the time and the sequence numbers between the
first accepted record and the last, and a rejected record blocks. -/

structure World where
  preview : HistoryPreview
  accepted : List Sample

section runs
variable (t : Trig) (c : Config)

def World.initial : World := ⟨.initial c, []⟩

def World.feed (w : World) (r : Record) : World :=
  match w.preview.update t c r with
  | (.ok sample, s) => ⟨s, sample :: w.accepted⟩
  | (.error _, s) => ⟨s, w.accepted⟩

def World.run (records : List Record) : World := records.foldl (World.feed t c) (.initial c)

end runs

def covered (accepted : List Sample) : ℚ := (accepted.map fun a => a.integrationIntervalS.getD 0).sum

def gaps : List Sample → ℕ
  | newer :: older :: rest => (if newer.integrationIntervalS = none then 1 else 0) + gaps (older :: rest)
  | _ => 0

def Holds (newer older : Sample) : Prop := newer.integrationIntervalS = none → newer.pose = older.pose

def HistoryPreview.Open (s : HistoryPreview) : Prop := s.blocked.filter (· ≠ "") = none

section texts
variable {t : Trig} {c : Config}

theorem missing_ne (field : String) : missing field ≠ "" := append_ne_empty (b := "'") (by decide)

theorem integer_fails (value : Given ℤ) (field name : String) (lower : ℤ) :
    Fails (· ≠ "") (integer value field name lower) := by
  cases value with
  | absent => exact .error (missing_ne field)
  | improper => exact Motion.integer_fails none name lower none
  | value v => exact Motion.integer_fails (some v) name lower none

theorem fromHex_fails (value : Hex) (field : String) : Fails (· ≠ "") (fromHex value field) := by
  cases value with
  | absent => exact .error (missing_ne field)
  | refused text spoken => exact .error spoken
  | bytes b => exact .ok b

theorem epochOf_fails (epoch : Given String) : Fails (· ≠ "") (epochOf epoch) := by
  cases epoch with
  | absent => exact .error (missing_ne _)
  | improper => exact .error (by decide)
  | value e => exact Fails.bind (.refuse (by decide)) fun _ => .ok e

theorem parseReply_fails (slave : Byte) (count : ℕ) (response : Bytes) :
    Fails (fun fault : Fault => fault.text ≠ "") (parseReply slave count response) := by
  intro fault failed
  simp only [parseReply, bind, Except.bind] at failed
  split at failed
  · cases failed
    decide
  · split at failed
    · cases failed
      simp [Fault.text]
    · split at failed <;> cases failed
      decide

theorem registers_fails (response : Bytes) : Fails (· ≠ "") (registers query response) := by
  have parsed : Fails (fun fault : Fault => fault.text ≠ "") (parseExchange query response) := by
    rw [parseExchange_built readRequest_query]
    refine Fails.bind ?_ fun frame => parseReply_fails _ _ frame
    unfold checkedFrame
    split
    · exact .ok _
    · exact .error (by decide)
  intro text failed
  unfold registers at failed
  split at failed <;> cases failed
  rename_i refused
  exact parsed _ refused

theorem identify_fails (r : Record) : Fails (· ≠ "") (identify r) := by
  refine Fails.bind (.refuse (by decide)) fun _ => ?_
  unfold identityToken
  split
  · exact .error (by decide)
  · exact Fails.bind (.refuse (by decide)) fun _ => Fails.bind (.refuse (by decide)) fun _ => .ok _

theorem read_fails (r : Record) : Fails (· ≠ "") (read t c r) := by
  refine Fails.bind (fromHex_fails _ _) fun request => Fails.bind (fromHex_fails _ _) fun response => ?_
  intro text failed
  rcases bind_eq_error failed with other | ⟨_, reviewed, rest⟩
  · exact Fails.refuse (P := (· ≠ "")) (by decide) text other
  · have same := refuse_ok reviewed
    rw [not_not] at same
    subst same
    refine (Fails.bind (registers_fails response) fun words => ?_) text rest
    refine Fails.bind (integer_fails _ _ _ _) fun _ => Fails.bind (integer_fails _ _ _ _) fun _ => ?_
    refine Fails.bind (integer_fails _ _ _ _) fun _ => Fails.bind (epochOf_fails _) fun _ => ?_
    exact Fails.bind (.refuse (by decide)) fun _ => Fails.bind (.refuse (by decide)) fun _ => .ok _

theorem continues_fails (now previous : Reading) : Fails (· ≠ "") (continues c now previous) :=
  Fails.bind (.refuse (by decide)) fun _ => Fails.bind (.refuse (by decide)) fun _ => .refuse (by decide)

theorem admit_fails (s : HistoryPreview) (r : Record) (identity : String) : Fails (· ≠ "") <| s.admit t c r identity := by
  refine Fails.bind (.refuse (by decide)) fun _ => Fails.bind (read_fails r) fun now => ?_
  split
  · exact .ok now
  · exact Fails.bind (continues_fails _ _) fun _ => .ok now

end texts

section steps
variable {t : Trig} {c : Config} {s s' : HistoryPreview} {r : Record} {sample : Sample}

structure Accepting (t : Trig) (c : Config) (s s' : HistoryPreview) (sample : Sample) (now : Reading) : Prop where
  bound : ∃ device, s' = { ({ s with deviceId := device } : HistoryPreview).cover t c now with previous := some now }
  returned : sample = s'.sample c now s.previous
  ordered : ∀ p ∈ s.previous, continues c now p = .ok ()

theorem update_ok (h : s.update t c r = (.ok sample, s')) : s.Open ∧ ∃ now, Accepting t c s s' sample now := by
  unfold HistoryPreview.update at h
  split at h
  · cases h
  · rename_i here
    refine ⟨here, ?_⟩
    split at h <;> cases h
    rename_i observed
    unfold HistoryPreview.observe at observed
    split at observed
    · cases observed
    · dsimp only at observed
      split at observed
      · cases observed
      · rename_i identity _ now admitted
        cases observed
        refine ⟨now, ⟨_, rfl⟩, rfl, fun p here => ?_⟩
        obtain ⟨_, _, admitted⟩ := bind_eq_ok admitted
        obtain ⟨now', _, admitted⟩ := bind_eq_ok admitted
        simp only [Option.mem_def.mp here] at admitted
        obtain ⟨_, continued, same⟩ := bind_eq_ok admitted
        cases same
        exact continued

theorem update_error {reason : String} (h : s.update t c r = (.error reason, s')) :
    ¬s'.Open ∧ ∃ device blocked, s' = { s with deviceId := device, blocked := blocked } := by
  unfold HistoryPreview.update at h
  split at h
  · rename_i told here
    cases h
    exact ⟨fun open_ => (by cases here.symm.trans open_), s.deviceId, s.blocked, rfl⟩
  · split at h <;> cases h
    rename_i left observed
    suffices spoken : reason ≠ "" ∧ ∃ device, left = { s with deviceId := device } by
      obtain ⟨text, device, rfl⟩ := spoken
      exact ⟨fun open_ => by simp [HistoryPreview.Open, text] at open_, device, some reason, rfl⟩
    unfold HistoryPreview.observe at observed
    split at observed
    · rename_i unidentified
      cases observed
      exact ⟨identify_fails r _ unidentified, s.deviceId, rfl⟩
    · dsimp only at observed
      split at observed <;> cases observed
      rename_i refused
      exact ⟨admit_fails _ r _ _ refused, _, rfl⟩

theorem update_of_blocked (shut : ¬s.Open) (r : Record) : ∃ reason, s.update t c r = (.error reason, s) := by
  obtain ⟨reason, here⟩ := Option.ne_none_iff_exists'.mp shut
  exact ⟨"preview integration BLOCKED: " ++ reason, by simp only [HistoryPreview.update, here]⟩

structure Accounts (w : World) : Prop where
  previous : w.preview.previous = w.accepted.head?.map (·.reading)
  pose : ∀ a ∈ w.accepted.head?, a.pose = w.preview.pose
  held : w.accepted.IsChain Holds
  first : ∀ a ∈ w.accepted.getLast?, a.integrationIntervalS = none
  time : ∀ newest ∈ w.accepted.head?, ∀ oldest ∈ w.accepted.getLast?,
    covered w.accepted + w.preview.uncoveredDurationS = interval newest.reading oldest.reading
  numbers : ∀ newest ∈ w.accepted.head?, ∀ oldest ∈ w.accepted.getLast?,
    (w.accepted.length - 1 : ℤ) + w.preview.missingSequences = newest.reading.sequence - oldest.reading.sequence
  gapCount : w.preview.gapCount = gaps w.accepted
  none_yet : w.accepted = [] → w.preview.missingSequences = 0 ∧ w.preview.uncoveredDurationS = 0

theorem accounts_initial : Accounts (.initial c) where
  previous := rfl
  pose := by simp [World.initial]
  held := .nil
  first := by simp [World.initial]
  time := by simp [World.initial]
  numbers := by simp [World.initial]
  gapCount := rfl
  none_yet _ := ⟨rfl, rfl⟩

theorem interval_add (x y z : Reading) : interval x y + interval y z = interval x z := by
  unfold interval
  push_cast
  ring

theorem interval_self (x : Reading) : interval x x = 0 := by simp [interval]

theorem gaps_cons (newer older : Sample) (rest : List Sample) :
    gaps (newer :: older :: rest) = (if newer.integrationIntervalS = none then 1 else 0) + gaps (older :: rest) := rfl

theorem Accounts.accept {accepted : List Sample} {now : Reading} (h : Accounts ⟨s, accepted⟩)
    (accepting : Accepting t c s s' sample now) : Accounts ⟨s', sample :: accepted⟩ := by
  obtain ⟨⟨device, rfl⟩, rfl, ordered⟩ := accepting
  have previous := h.previous
  have pose := h.pose
  have count := h.gapCount
  cases accepted with
  | nil =>
    have none_ : s.previous = none := previous
    obtain ⟨missing, uncovered⟩ := h.none_yet rfl
    dsimp only at missing uncovered count
    simp only [HistoryPreview.cover, none_]
    exact {
      previous := rfl
      pose := by simp [HistoryPreview.sample]
      held := .singleton _
      first := by simp [HistoryPreview.sample]
      time := by simp [HistoryPreview.sample, covered, uncovered, interval_self]
      numbers := by simp [HistoryPreview.sample, missing]
      gapCount := count
      none_yet := by simp }
  | cons older rest =>
    have some_ : s.previous = some older.reading := previous
    have time := h.time older rfl
    have numbers := h.numbers older rfl
    have pose := pose older rfl
    dsimp only at pose time numbers count
    simp only [List.length_cons] at numbers
    by_cases gap : IsGap c now older.reading
    · simp only [HistoryPreview.cover, some_, if_pos gap, HistoryPreview.sample, HistoryPreview.skip]
      exact {
        previous := rfl
        pose := by simp
        held := h.held.cons_cons fun _ => pose.symm
        first := by simpa using h.first
        time := fun newest here oldest there => by
          obtain rfl := Option.some.inj here
          have before := time oldest (by simpa using there)
          have split := interval_add now older.reading oldest.reading
          simp [covered, gap] at before ⊢
          linarith
        numbers := fun newest here oldest there => by
          obtain rfl := Option.some.inj here
          have before := numbers oldest (by simpa using there)
          simp only [List.length_cons, missed]
          push_cast at before ⊢
          linarith
        gapCount := by simp [gaps_cons, gap, count, Nat.add_comm]
        none_yet := by simp }
    · have all : missed now older.reading = 0 := not_not.mp fun some_missed => gap (.inl some_missed)
      simp only [HistoryPreview.cover, some_, if_neg gap, HistoryPreview.sample, HistoryPreview.integrate]
      exact {
        previous := rfl
        pose := by simp
        held := h.held.cons_cons fun none_ => by simp [gap] at none_
        first := by simpa using h.first
        time := fun newest here oldest there => by
          obtain rfl := Option.some.inj here
          have before := time oldest (by simpa using there)
          have split := interval_add now older.reading oldest.reading
          simp [covered, gap] at before ⊢
          linarith
        numbers := fun newest here oldest there => by
          obtain rfl := Option.some.inj here
          have before := numbers oldest (by simpa using there)
          simp only [List.length_cons]
          unfold missed at all
          push_cast at before ⊢
          linarith
        gapCount := by simp [gaps_cons, gap, count]
        none_yet := by simp }

theorem Accounts.feed {w : World} (h : Accounts w) (r : Record) : Accounts (w.feed t c r) := by
  unfold World.feed
  split
  · rename_i updated
    obtain ⟨-, now, accepting⟩ := update_ok updated
    exact Accounts.accept h accepting
  · rename_i rejected
    obtain ⟨-, device, blocked, rfl⟩ := update_error rejected
    exact ⟨h.previous, h.pose, h.held, h.first, h.time, h.numbers, h.gapCount, h.none_yet⟩

theorem Accounts.run (records : List Record) {w : World} (h : Accounts w) : Accounts (records.foldl (World.feed t c) w) := by
  induction records generalizing w with
  | nil => exact h
  | cons r rest ih => exact ih (h.feed r)

end steps

/-- At any time the covered and the uncovered duration are the time between the first and the last accepted record,
the accepted and the missing records the span of their numbers, and the gaps the pairs that are not integrated, over
which the pose is held. A rejected record blocks every later one. -/
theorem preview_accounted (t : Trig) (c : Config) (records : List Record) :
    let w := World.run t c records
    (∀ newest ∈ w.accepted.head?, ∀ oldest ∈ w.accepted.getLast?,
        covered w.accepted + w.preview.uncoveredDurationS =
            (newest.reading.receive - oldest.reading.receive : ℤ) * (1 / 10 ^ 9) ∧
          (w.accepted.length - 1 : ℤ) + w.preview.missingSequences = newest.reading.sequence - oldest.reading.sequence ∧
          newest.pose = w.preview.pose) ∧
      w.preview.gapCount = gaps w.accepted ∧ w.accepted.IsChain Holds ∧
      ∀ r reason s', w.preview.update t c r = (.error reason, s') → ∀ r', ∃ reason', s'.update t c r' = (.error reason', s') := by
  have accounts : Accounts (World.run t c records) := Accounts.run records accounts_initial
  refine ⟨fun newest here oldest there => ⟨?_, ?_, ?_⟩, accounts.gapCount, accounts.held, fun r reason s' rejected => ?_⟩
  · exact accounts.time newest here oldest there
  · exact accounts.numbers newest here oldest there
  · exact accounts.pose newest here
  · exact update_of_blocked (update_error rejected).1

end Smartwheel.Motion.Preview
