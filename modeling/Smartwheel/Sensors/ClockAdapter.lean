import Mathlib.Algebra.Order.Ring.Int
import Smartwheel.Calibration.Value
import Smartwheel.Effect.Check
import Smartwheel.Effect.Program
import Smartwheel.Sensors.Metadata

/-! `apply_clock_model`: a clock model, checked against its contract and against a native frame, gives a copy of the frame
with a common time. Frames and models are objects of a heap. -/
namespace Smartwheel.Sensors.ClockAdapter
open Effect
open Smartwheel.Calibration (Value isSpace strip)

structure Obj where
  isDict : Bool
  get : String → Option Value

def Obj.set (o : Obj) (name : String) (value : Value) : Obj :=
  { o with get := fun n => if n = name then some value else o.get n }

def uint64Max : ℤ := 2 ^ 64 - 1

def int64Max : ℤ := 2 ^ 63 - 1

/-- `_CHANGED_FIELDS`. -/
def changedFields : List String :=
  ["common_time_valid", "common_time_ns", "clock_model_id", "uncertainty_valid", "uncertainty_ns", "time_source"]

/-- `_value`. -/
def field (o : Obj) (name : String) : Except String Value :=
  match o.get name with
  | some value => .ok value
  | none => .error ("missing required field: " ++ name)

/-- `_integer`. -/
def within (value : Value) (name : String) (minimum maximum : Option ℤ) : Except String ℤ :=
  match value with
  | .int n => do
    refuse ((∃ low ∈ minimum, n < low) ∨ ∃ top ∈ maximum, top < n) (name ++ " outside valid range")
    return n
  | _ => .error (name ++ " must be an integer, not float/bool")

/-- `_true`. -/
def isTrue (value : Value) (name : String) : Except String Unit :=
  match value with
  | .bool true => .ok ()
  | _ => .error (name ++ " must explicitly be true")

def isFalse : Value → Bool
  | .bool b => !b
  | _ => false

def token (value name : String) : Except String Unit :=
  refuse (value = "" ∨ value.toList.any (fun c => c = '/' || c = '\\' || c.toNat = 0))
    (name ++ " must be a nonempty path-safe identifier")

def makeModel (modelId unit : String) (numerator denominator offset uncertainty lower upper : ℤ) : Except String ClockModel := do
  token modelId "model_id"
  if known : unit ≠ "" ∧ unit.startsWith "UNKNOWN" = false then
    if scales : 1 ≤ numerator ∧ 1 ≤ denominator then
      if low : 0 ≤ lower then
        if top : lower ≤ upper then
          if bound : 0 ≤ uncertainty then
            return {
              modelId := modelId
              deviceTimestampUnit := unit
              scaleNumerator := numerator
              scaleDenominator := denominator
              offsetNs := offset
              uncertaintyNs := some uncertainty
              validated := true
              validRawMin := lower
              validRawMax := some upper
              unit_known := known
              scale_pos := scales
              uncertainty_nonneg := by simpa using bound
              validRaw_nonneg := low
              validRaw_le := by simpa using top }
          else .error "uncertainty_ns below minimum"
        else .error "valid_raw_max below minimum"
      else .error "valid_raw_min below minimum"
    else .error ((if numerator < 1 then "scale_numerator" else "scale_denominator") ++ " below minimum")
  else .error "clock model requires a known source unit"

section checks
-- `str.upper`
variable (upper : String → String)

/-- `_text`. -/
def text (value : Value) (name : String) (identifier : Bool) : Except String String :=
  match value with
  | .text s => do
    refuse (strip s = "" ∨ s ≠ strip s ∨ s.toList.any fun c => c.toNat = 0) (name ++ " must be an explicit nonempty string")
    refuse (["UNKNOWN", "UNVERIFIED", "TBD", "TODO"].any fun p => (upper s).startsWith p) (name ++ " is unresolved")
    refuse (identifier ∧ s.toList.any fun c => isSpace c || c = '/' || c = '\\')
      (name ++ " must be an unambiguous identifier")
    return s
  | _ => .error (name ++ " must be an explicit nonempty string")

/-- The references of `_evidence`, one after the other. -/
def references (name : String) : List Value → Except String Unit
  | [] => return ()
  | reference :: rest => do
    let _ ← text upper reference name false
    references name rest

/-- `_evidence`. -/
def evidence (value : Value) (name : String) : Except String Unit :=
  match value with
  | .list (reference :: rest) => references upper name (reference :: rest)
  | _ => .error (name ++ " must contain nonempty evidence references")

def isHash (s : String) : Bool :=
  s.length = 64 && s.toList.all fun c => c.isDigit || ('a' ≤ c && c ≤ 'f') || ('A' ≤ c && c ≤ 'F')

def contract (model : Obj) : Except String Unit := do
  let version ← within (← field model "schema_version") "schema_version" (some 0) none
  refuse (version ≠ 1) "unsupported clock model schema"
  let mode ← field model "source_mode"
  refuse (mode.isText "real" = false) "only externally VALIDATED real clock models are accepted"
  let status ← field model "status"
  refuse (status.isText "VALIDATED" = false) "only externally VALIDATED real clock models are accepted"
  isTrue (← field model "validated") "validated"
  evidence upper (← field model "evidence_refs") "evidence_refs"
  evidence upper (← field model "unit_evidence_refs") "unit_evidence_refs"
  evidence upper (← field model "measurement_evidence_refs") "measurement_evidence_refs"
  isTrue (← field model "unit_verified") "unit_verified"
  isTrue (← field model "measurement_semantics_verified") "measurement_semantics_verified"
  let _ ← text upper (← field model "measurement_semantics") "measurement_semantics" false
  let basis ← text upper (← field model "validation_basis") "validation_basis" false
  refuse (basis ∉ ["independent_measurement", "hardware_synchronization"])
    "arrival fits or unspecified validation basis cannot establish measurement time"

def identities (frame model : Obj) (sensorId modelId : String) : Except String Unit := do
  let model_ ← text upper (← field model "model_id") "model_id" true
  refuse (model_ ≠ modelId) "clock model ID mismatch"
  let sensor ← text upper (← field model "sensor_id") "sensor_id" true
  refuse (sensor ≠ sensorId) "model sensor identity mismatch"
  refuse ((← field frame "sensor_id").isText sensorId = false) "frame sensor identity mismatch"
  let epoch ← text upper (← field model "stream_epoch") "stream_epoch" true
  refuse ((← field frame "stream_epoch").isText epoch = false) "stream epoch mismatch; reconnect/reset requires new validation"
  let hash ← text upper (← field model "source_config_hash") "source_config_hash" false
  refuse (isHash hash = false) "source_config_hash must be the native driver SHA256 hex value"
  refuse ((← field frame "source_config_hash").isText hash = false) "source configuration hash mismatch"

def native (frame : Obj) : Except String Unit := do
  refuse ((← field frame "time_source").isText "arrival_only" = false)
    "only original arrival_only native frames may be adapted"
  refuse (isFalse (← field frame "common_time_valid") = false)
    "arrival_only frame must have unknown common time and uncertainty"
  refuse (isFalse (← field frame "uncertainty_valid") = false)
    "arrival_only frame must have unknown common time and uncertainty"
  refuse ((← field frame "clock_model_id").isText "" = false) "native arrival_only frame must not already name a clock model"
  let mode := (frame.get "source_mode").getD .null
  refuse (mode.isNull = false ∧ mode.isText "real" = false) "synthetic/unknown frame provenance cannot use a real clock model"

def timestampNs (seconds nanoseconds : ℤ) : ℤ := seconds * 1000000000 + nanoseconds

def rawTime (frame model : Obj) : Except String (ℤ × String) := do
  let input ← field model "input_timestamp"
  let unit ← text upper (← field model "device_timestamp_unit") "device_timestamp_unit" false
  if input.isText "device_scalar" then do
    isTrue (← field frame "device_timestamp_valid") "device_timestamp_valid"
    refuse ((← field frame "device_timestamp_unit").isText unit = false) "scalar timestamp unit mismatch"
    let raw ← within (← field frame "device_timestamp_raw") "device_timestamp_raw" (some 0) (some uint64Max)
    return (raw, unit)
  else if input.isText "device_components_ns" then do
    isTrue (← field frame "device_time_components_valid") "device_time_components_valid"
    refuse (unit ≠ "ns") "components model unit must be ns with explicit unit evidence"
    let seconds ← within (← field frame "device_timestamp_seconds") "device_timestamp_seconds" (some 0) (some uint64Max)
    let nanos ← within (← field frame "device_timestamp_nanoseconds") "device_timestamp_nanoseconds" (some 0) (some 999999999)
    return (timestampNs seconds nanos, unit)
  else .error "input_timestamp must explicitly select a device time representation"

def clockOf (model : Obj) (modelId unit : String) : Except String ClockModel := do
  let lower ← within (← field model "valid_raw_min") "valid_raw_min" (some 0) none
  let top ← within (← field model "valid_raw_max") "valid_raw_max" (some lower) none
  let uncertainty ← within (← field model "uncertainty_ns") "uncertainty_ns" (some 0) (some uint64Max)
  let numerator ← within (← field model "scale_numerator") "scale_numerator" (some 1) none
  let denominator ← within (← field model "scale_denominator") "scale_denominator" (some 1) none
  let offset ← within (← field model "offset_ns") "offset_ns" none none
  makeModel modelId unit numerator denominator offset uncertainty lower top

def valuesOf (common : ℤ) (modelId : String) (uncertainty : ℤ) : List Value :=
  [.bool true, .int common, .text modelId, .bool true, .int uncertainty, .text "validated_model"]

def checked (frame model : Obj) (sensorId modelId : Value) : Except String (ℤ × String × ℤ) := do
  refuse (model.isDict = false) "model_dict must be a dictionary; no model loading is performed"
  let sensorId ← text upper sensorId "expected_sensor_id" true
  let modelId ← text upper modelId "expected_model_id" true
  contract upper model
  identities upper frame model sensorId modelId
  native frame
  let (raw, unit) ← rawTime upper frame model
  let clock ← clockOf model modelId unit
  let common ← clock.convert raw unit
  refuse (¬(0 ≤ common ∧ common ≤ int64Max)) "common_time_ns exceeds nonnegative ROS int64 range"
  return (common, modelId, clock.uncertaintyNs.getD 0)

end checks

structure Env where
  upper : String → String
  copying : Obj → Option String
  setting : Obj → String → Value → Option String

section apply
variable (env : Env)

def lift {α : Type} (x : Except String α) : Program (List Obj) String α :=
  match x with
  | .ok a => pure a
  | .error e => .raise e

def load (ref : ℕ) : Program (List Obj) String Obj := do
  let heap ← .get
  .need heap[ref]? "the reference dangles"

def deepcopy (o : Obj) : Program (List Obj) String ℕ :=
  match env.copying o with
  | some e => .raise e
  | none => do
    let heap ← .get
    .modify (· ++ [o])
    return heap.length

def assign (ref : ℕ) (name : String) (value : Value) : Program (List Obj) String Unit := do
  let o ← load ref
  match if o.isDict then none else env.setting o name value with
  | some e => .raise e
  | none => .modify fun heap => heap.modify ref fun o => o.set name value

def assignAll (ref : ℕ) : List (String × Value) → Program (List Obj) String Unit
  | [] => return ()
  | (name, value) :: rest => do
    assign env ref name value
    assignAll ref rest

def applyClockModel (frameMsg modelDict : ℕ) (expectedSensorId expectedModelId : Value) : Program (List Obj) String ℕ := do
  let frame ← load frameMsg
  let model ← load modelDict
  let (common, modelId, uncertainty) ← lift (checked env.upper frame model expectedSensorId expectedModelId)
  let result ← deepcopy env frame
  assignAll env result (changedFields.zip (valuesOf common modelId uncertainty))
  return result

end apply

def Obj.setAll (o : Obj) (fields : List (String × Value)) : Obj := fields.foldl (fun o f => o.set f.1 f.2) o

def converted (o : Obj) (common : ℤ) (modelId : String) (uncertainty : ℤ) : Obj :=
  o.setAll (changedFields.zip (valuesOf common modelId uncertainty))

def commonTime (heap : List Obj) (ref : ℕ) : Option Value := heap[ref]?.bind fun o => o.get "common_time_ns"

def deviceTime (upper : String → String) (heap : List Obj) (frameMsg modelDict : ℕ) : Option ℤ := do
  let frame ← heap[frameMsg]?
  let model ← heap[modelDict]?
  (rawTime upper frame model).toOption.map Prod.fst

structure Converted (frame copy : Obj) (common : ℤ) : Prop where
  kind : copy.isDict = frame.isDict
  others : ∀ name, name ∉ changedFields → copy.get name = frame.get name
  time : copy.get "common_time_ns" = some (.int common)
  valid : copy.get "common_time_valid" = some (.bool true) ∧ copy.get "uncertainty_valid" = some (.bool true)
  source : copy.get "time_source" = some (.text "validated_model")
  range : 0 ≤ common ∧ common ≤ int64Max

section values
variable {upper : String → String} {frame model : Obj} {sensorId modelId : Value} {common uncertainty : ℤ} {name : String}

theorem setAll_get (o : Obj) (fields : List (String × Value)) (other : name ∉ fields.map Prod.fst) :
    (o.setAll fields).get name = o.get name := by
  induction fields generalizing o with
  | nil => rfl
  | cons f rest ih =>
    simp only [List.map_cons, List.mem_cons, not_or] at other
    have later := ih (o.set f.1 f.2) other.2
    simpa [Obj.setAll, Obj.set, other.1] using later

theorem setAll_isDict (o : Obj) (fields : List (String × Value)) : (o.setAll fields).isDict = o.isDict := by
  induction fields generalizing o with
  | nil => rfl
  | cons f rest ih => exact ih (o.set f.1 f.2)

theorem converted_of_range (o : Obj) (modelId : String) (uncertainty : ℤ) (range : 0 ≤ common ∧ common ≤ int64Max) :
    Converted o (converted o common modelId uncertainty) common where
  kind := setAll_isDict _ _
  others name other := setAll_get o _ (by simpa [changedFields, valuesOf] using other)
  time := by simp [converted, Obj.setAll, Obj.set, changedFields, valuesOf]
  valid := by simp [converted, Obj.setAll, Obj.set, changedFields, valuesOf]
  source := by simp [converted, Obj.setAll, Obj.set, changedFields, valuesOf]
  range := range

theorem checked_ok {id : String} (h : checked upper frame model sensorId modelId = .ok (common, id, uncertainty)) :
    text upper modelId "expected_model_id" true = .ok id ∧ native frame = .ok () ∧ (0 ≤ common ∧ common ≤ int64Max) ∧
      ∃ raw unit clock, rawTime upper frame model = .ok (raw, unit) ∧ clockOf model id unit = .ok clock ∧
        clock.convert raw unit = .ok common := by
  unfold checked at h
  simp only [bind_eq_ok_iff] at h
  obtain ⟨_, -, sensor, -, id', named, _, -, _, -, _, arrival, ⟨raw, unit⟩, device, clock, made,
    common', converts, _, range, same⟩ := h
  cases same
  exact ⟨named, arrival, not_not.mp (refuse_ok range), raw, unit, clock, device, made, converts⟩

theorem convert_ok {m : ClockModel} {raw : ℤ} {unit : String} (h : m.convert raw unit = .ok common) :
    common = (raw * m.scaleNumerator).fdiv m.scaleDenominator + m.offsetNs := by
  obtain ⟨raw', read, ends⟩ := bind_eq_ok h
  have same : raw' = raw := by
    unfold integer at read
    split at read <;> cases read
    rfl
  rw [same] at ends
  split at ends
  · cases ends
  · split at ends
    · cases ends
    · split at ends <;> cases ends
      rfl

theorem rawTime_unit {raw : ℤ} {unit : String} (h : rawTime upper frame model = .ok (raw, unit)) :
    ∃ value, field model "device_timestamp_unit" = .ok value ∧ text upper value "device_timestamp_unit" false = .ok unit := by
  unfold rawTime at h
  simp only [bind_eq_ok_iff] at h
  obtain ⟨input, -, value, there, unit', named, h⟩ := h
  refine ⟨value, there, ?_⟩
  split at h
  · simp only [bind_eq_ok_iff] at h
    obtain ⟨_, -, _, -, _, -, _, -, _, -, _, -, same⟩ := h
    cases same
    exact named
  · split at h
    · simp only [bind_eq_ok_iff] at h
      obtain ⟨_, -, _, -, _, -, _, -, _, -, _, -, _, -, same⟩ := h
      cases same
      exact named
    · cases h

theorem common_mono {frame' : Obj} {common' uncertainty' raw raw' : ℤ} {id id' unit unit' : String} {sensorId' : Value}
    (h : checked upper frame model sensorId modelId = .ok (common, id, uncertainty))
    (h' : checked upper frame' model sensorId' modelId = .ok (common', id', uncertainty'))
    (device : rawTime upper frame model = .ok (raw, unit)) (device' : rawTime upper frame' model = .ok (raw', unit'))
    (later : raw ≤ raw') : common ≤ common' := by
  obtain ⟨named, _, _, raw₁, unit₁, clock, read, made, converts⟩ := checked_ok h
  obtain ⟨named', _, _, raw₂, unit₂, clock', read', made', converts'⟩ := checked_ok h'
  cases read.symm.trans device
  cases read'.symm.trans device'
  cases named.symm.trans named'
  obtain ⟨value, there, same⟩ := rawTime_unit device
  obtain ⟨value', there', same'⟩ := rawTime_unit device'
  cases there.symm.trans there'
  cases same.symm.trans same'
  cases made.symm.trans made'
  rw [convert_ok converts, convert_ok converts']
  have numerator : 0 ≤ clock.scaleNumerator := by have positive := clock.scale_pos.1; omega
  have denominator : 0 < clock.scaleDenominator := by have positive := clock.scale_pos.2; omega
  have scaled : raw * clock.scaleNumerator ≤ raw' * clock.scaleNumerator := Int.mul_le_mul_of_nonneg_right later numerator
  rw [Int.fdiv_eq_ediv_of_nonneg _ denominator.le, Int.fdiv_eq_ediv_of_nonneg _ denominator.le]
  exact Int.add_le_add_right (Int.ediv_le_ediv denominator scaled) _

theorem native_converted {copy : Obj} (h : Converted frame copy common) : native copy ≠ .ok () := by
  intro arrival
  obtain ⟨value, there, rest⟩ := bind_eq_ok arrival
  obtain ⟨_, refused, _⟩ := bind_eq_ok rest
  rw [field, h.source] at there
  cases there
  exact refuse_ok refused rfl

theorem checked_converted {copy : Obj} (h : Converted frame copy common) : ∃ e, checked upper copy model sensorId modelId = .error e := by
  cases again : checked upper copy model sensorId modelId with
  | ok result =>
    obtain ⟨c, id, u⟩ := result
    exact absurd (checked_ok again).2.1 (native_converted h)
  | error e => exact ⟨e, rfl⟩

end values

section heap
variable {env : Env} {heap : List Obj} {o : Obj}

theorem modify_last (heap : List Obj) (o : Obj) (f : Obj → Obj) : (heap ++ [o]).modify heap.length f = heap ++ [f o] := by
  induction heap with
  | nil => rfl
  | cons head rest ih => simp [ih]

theorem assignAll_runs (env : Env) (heap : List Obj) (fields : List (String × Value)) (o : Obj) :
    ∃ o', (assignAll env heap.length fields (heap ++ [o])).2 = heap ++ [o'] ∧
      ∀ u, (assignAll env heap.length fields (heap ++ [o])).1 = .value u → o' = o.setAll fields := by
  induction fields generalizing o with
  | nil => exact ⟨o, rfl, fun _ _ => rfl⟩
  | cons f rest ih =>
    obtain ⟨name, value⟩ := f
    have here : (heap ++ [o])[heap.length]? = some o := by simp
    have loaded : load heap.length (heap ++ [o]) = (.value o, heap ++ [o]) := by
      show Program.need (heap ++ [o])[heap.length]? _ _ = _
      rw [here]
      rfl
    cases failing : (if o.isDict then none else env.setting o name value) with
    | some e =>
      have ends : assign env heap.length name value (heap ++ [o]) = (.raised e, heap ++ [o]) := by
        simp only [assign, bind, Program.bind, loaded, failing]
        rfl
      refine ⟨o, ?_, fun u done => ?_⟩
      · simp only [assignAll, bind, Program.bind, ends]
      · simp only [assignAll, bind, Program.bind, ends] at done
        cases done
    | none =>
      have ends : assign env heap.length name value (heap ++ [o]) = (.value (), heap ++ [o.set name value]) := by
        simp only [assign, bind, Program.bind, loaded, failing]
        simp [Program.modify, modify_last]
      obtain ⟨o', left, done⟩ := ih (o.set name value)
      refine ⟨o', ?_, fun u ended => ?_⟩
      · simp only [assignAll, bind, Program.bind, ends]
        exact left
      · simp only [assignAll, bind, Program.bind, ends] at ended
        exact done u ended

theorem load_eq {ref : ℕ} (there : heap[ref]? = some o) : load ref heap = (.value o, heap) := by
  show Program.need heap[ref]? _ _ = _
  rw [there]
  rfl

theorem load_missing {ref : ℕ} (gone : heap[ref]? = none) : load ref heap = (.raised "the reference dangles", heap) := by
  show Program.need heap[ref]? _ _ = _
  rw [gone]
  rfl

theorem apply_refused {frameMsg modelDict : ℕ} {sensorId modelId : Value} (there : heap[frameMsg]? = some o)
    (refused : ∀ model, ∃ e, checked env.upper o model sensorId modelId = .error e) :
    ∃ e, applyClockModel env frameMsg modelDict sensorId modelId heap = (.raised e, heap) := by
  cases other : heap[modelDict]? with
  | none =>
    refine ⟨"the reference dangles", ?_⟩
    simp only [applyClockModel, bind, Program.bind, load_eq there, load_missing other]
  | some model =>
    obtain ⟨e, fails⟩ := refused model
    refine ⟨e, ?_⟩
    simp only [applyClockModel, bind, Program.bind, load_eq there, load_eq other, fails]
    rfl

theorem apply_runs (env : Env) (heap : List Obj) (frameMsg modelDict : ℕ) (sensorId modelId : Value) :
    (∃ added, (applyClockModel env frameMsg modelDict sensorId modelId heap).2 = heap ++ added) ∧
      ∀ result, (applyClockModel env frameMsg modelDict sensorId modelId heap).1 = .value result →
        ∃ frame model common id uncertainty, heap[frameMsg]? = some frame ∧ heap[modelDict]? = some model ∧
          checked env.upper frame model sensorId modelId = .ok (common, id, uncertainty) ∧ result = heap.length ∧
          (applyClockModel env frameMsg modelDict sensorId modelId heap).2 = heap ++ [converted frame common id uncertainty] := by
  cases there : heap[frameMsg]? with
  | none =>
    simp only [applyClockModel, bind, Program.bind, load_missing there]
    exact ⟨⟨[], by simp⟩, fun _ none_ => by cases none_⟩
  | some frame =>
    cases other : heap[modelDict]? with
    | none =>
      simp only [applyClockModel, bind, Program.bind, load_eq there, load_missing other]
      exact ⟨⟨[], by simp⟩, fun _ none_ => by cases none_⟩
    | some model =>
      cases checks : checked env.upper frame model sensorId modelId with
      | error e =>
        simp only [applyClockModel, bind, Program.bind, load_eq there, load_eq other, checks]
        exact ⟨⟨[], by simp [lift, Program.raise]⟩, fun _ none_ => by cases none_⟩
      | ok values =>
        obtain ⟨common, id, uncertainty⟩ := values
        cases copies : env.copying frame with
        | some e =>
          have fails : deepcopy env frame heap = (.raised e, heap) := by simp [deepcopy, copies, Program.raise]
          simp only [applyClockModel, bind, Program.bind, load_eq there, load_eq other, checks, lift, Pure.pure, Program.pure,
            fails]
          exact ⟨⟨[], by simp⟩, fun _ none_ => by cases none_⟩
        | none =>
          have copied : deepcopy env frame heap = (.value heap.length, heap ++ [frame]) := by
            simp only [deepcopy, copies]
            rfl
          obtain ⟨o', left, done⟩ := assignAll_runs env heap
            (changedFields.zip (valuesOf common id uncertainty)) frame
          simp only [applyClockModel, bind, Program.bind, load_eq there, load_eq other, checks, lift, Pure.pure, Program.pure,
            copied]
          cases ends : assignAll env heap.length (changedFields.zip (valuesOf common id uncertainty)) (heap ++ [frame]) with
          | mk outcome heap' =>
            rw [ends] at left done
            dsimp only at left done
            subst left
            cases outcome with
            | value u =>
              refine ⟨⟨[o'], rfl⟩, fun result same => ?_⟩
              cases same
              exact ⟨frame, model, common, id, uncertainty, rfl, rfl, checks, rfl, by rw [done u rfl]; rfl⟩
            | raised e | cut => exact ⟨⟨[o'], rfl⟩, fun _ none_ => by cases none_⟩

end heap

/-- An application leaves all objects as they were. Where it returns, it returns a copy in which only the six fields
changed, with a time of the range; no model is applied to the copy again; and of two frames that one model converts,
the one with the later device time has no earlier common time. -/
theorem clock_model_applied (env : Env) (heap : List Obj) (frameMsg modelDict : ℕ) (sensorId modelId : Value) :
    let run := applyClockModel env frameMsg modelDict sensorId modelId heap
    (∀ i < heap.length, run.2[i]? = heap[i]?) ∧
      (∀ result, run.1 = .value result →
        (∃ frame copy common, heap[frameMsg]? = some frame ∧ run.2[result]? = some copy ∧ heap[result]? = none ∧
          Converted frame copy common) ∧
        ∀ modelDict' sensorId' modelId', ∃ e,
          applyClockModel env result modelDict' sensorId' modelId' run.2 = (.raised e, run.2)) ∧
      ∀ heap' frameMsg' modelDict' sensorId' result result' common common' raw raw',
        let run' := applyClockModel env frameMsg' modelDict' sensorId' modelId heap'
        heap'[modelDict']? = heap[modelDict]? → run.1 = .value result → run'.1 = .value result' →
          commonTime run.2 result = some (.int common) → commonTime run'.2 result' = some (.int common') →
          deviceTime env.upper heap frameMsg modelDict = some raw →
          deviceTime env.upper heap' frameMsg' modelDict' = some raw' → raw ≤ raw' → common ≤ common' := by
  obtain ⟨⟨added, left⟩, returns⟩ := apply_runs env heap frameMsg modelDict sensorId modelId
  refine ⟨fun i below => ?_, fun result ended => ?_, ?_⟩
  · rw [left, List.getElem?_append_left below]
  · obtain ⟨frame, model, common, id, uncertainty, there, _, checks, rfl, after⟩ := returns result ended
    have converts := converted_of_range frame id uncertainty (checked_ok checks).2.2.1
    have copy : (heap ++ [converted frame common id uncertainty])[heap.length]? = some (converted frame common id uncertainty) := by
      simp
    rw [after]
    exact ⟨⟨frame, _, common, there, copy, by simp, converts⟩, fun modelDict' sensorId' modelId' =>
      apply_refused copy fun _ => checked_converted converts⟩
  · intro heap' frameMsg' modelDict' sensorId' result result' common common' raw raw' run' same ended ended' time time' device device' later
    obtain ⟨frame, model, c, id, uncertainty, there, other, checks, rfl, after⟩ := returns result ended
    obtain ⟨frame', model', c', id', uncertainty', there', other', checks', rfl, after'⟩ := (apply_runs _ _ _ _ _ _).2 result' ended'
    rw [other, other'] at same
    cases same
    have told : c = common := by
      simpa [commonTime, after, (converted_of_range frame id uncertainty (checked_ok checks).2.2.1).time] using time
    have told' : c' = common' := by
      simpa [run', commonTime, after', (converted_of_range frame' id' uncertainty' (checked_ok checks').2.2.1).time] using time'
    subst told told'
    obtain ⟨_, _, _, _, unit, _, read, _⟩ := checked_ok checks
    obtain ⟨_, _, _, _, unit', _, read', _⟩ := checked_ok checks'
    simp only [deviceTime, there, other, read, Option.bind_eq_bind, Option.bind_some, Except.toOption, Option.map_some,
      Option.some.injEq] at device
    simp only [deviceTime, there', other', read', Option.bind_eq_bind, Option.bind_some, Except.toOption, Option.map_some,
      Option.some.injEq] at device'
    exact common_mono checks checks' read read' (by rw [device, device']; exact later)

end Smartwheel.Sensors.ClockAdapter
