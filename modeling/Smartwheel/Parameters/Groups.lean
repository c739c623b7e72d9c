import Smartwheel.Calibration.Value
import Smartwheel.Effect.Check
import Smartwheel.Profiles.Transaction

/-! The parameter groups: what an edit of each must be, and what it makes of the configurations. -/
namespace Smartwheel.Parameters
open Effect
open Smartwheel.Calibration (Value Fields)
open Smartwheel.Profiles (Name files)

/-! ### Documents -/

def noAttribute : String := "object has no such attribute"

/-- A dictionary; anything else has no `get`. -/
def fieldsOf : Value → Except String Fields
  | .object fields => .ok fields
  | _ => .error noAttribute

/-- `fields[key]`. -/
def item (fields : Fields) (key : String) : Except String Value :=
  match fields.lookup key with
  | some v => .ok v
  | none => .error ("'" ++ key ++ "'")

/-- `fields[key] = value`. -/
def setItem (fields : Fields) (key : String) (value : Value) : Fields :=
  if fields.any fun f => f.1 == key then fields.map fun f => if f.1 == key then (key, value) else f
  else fields ++ [(key, value)]

/-- `fields.update(other)`. -/
def update (fields other : Fields) : Fields := other.foldl (fun f e => setItem f e.1 e.2) fields

def pop (fields : Fields) (key : String) : Fields := fields.filter fun f => f.1 != key

/-- `set(fields) == set(keys)`. -/
def sameKeys (fields : Fields) (keys : List String) : Bool :=
  (fields.all fun f => keys.contains f.1) && keys.all fun k => fields.any fun f => f.1 == k

def iterate : Value → Except String (List Value)
  | .list items => .ok items
  | .object fields => .ok (fields.map fun f => .text f.1)
  | .text s => .ok (s.toList.map fun c => .text (String.singleton c))
  | _ => .error "object is not iterable"

def truthy : Value → Bool
  | .null => false
  | .bool b => b
  | .int n => n ≠ 0
  | .float q => q ≠ 0
  | .nonfinite => true
  | .text s => s ≠ ""
  | .list items => !items.isEmpty
  | .object fields => !fields.isEmpty

def number : Value → Option ℚ
  | .bool b => some (if b then 1 else 0)
  | .int n => some n
  | .float q => some q
  | _ => none

mutual

/-- `==`. -/
def same : Value → Value → Bool
  | .null, .null => true
  | .text a, .text b => a == b
  | .list a, .list b => sameItems a b
  | .object a, .object b => a.length == b.length && sameFields a b
  | .bool a, b => number b == some (if a then 1 else 0)
  | .int a, b => number b == some (a : ℚ)
  | .float a, b => number b == some a
  | _, _ => false

def sameItems : List Value → List Value → Bool
  | [], [] => true
  | a :: as, b :: bs => same a b && sameItems as bs
  | _, _ => false

def sameFields : List (String × Value) → Fields → Bool
  | [], _ => true
  | (key, a) :: rest, others =>
    (match others.lookup key with
    | some b => same a b
    | none => false) && sameFields rest others

end

/-- `type(value) in (int,float) and math.isfinite(value)`. -/
def finite : Value → Bool
  | .int _ | .float _ => true
  | _ => false

mutual

/-- `_validate_numeric_structure`. -/
def numericStructure : Value → Value → Except String Unit
  | .object before, after =>
    match after with
    | .object after => do
      require (sameKeys after (before.map Prod.fst)) "算法配置结构不能改变"
      numericFields before after
    | _ => .error "算法配置结构不能改变"
  | .list before, after =>
    match after with
    | .list after => do
      require (before.length = after.length) "算法数组尺寸不能改变"
      numericItems before after
    | _ => .error "算法数组尺寸不能改变"
  | .bool _, after =>
    match after with
    | .bool _ => .ok ()
    | _ => .error "开关必须为布尔值"
  | .int _, after => require (finite after) "算法参数必须为有限数值"
  | .float _, after => require (finite after) "算法参数必须为有限数值"
  | .nonfinite, after => require (finite after) "算法参数必须为有限数值"
  | .null, after => require (same .null after) "算法状态、模式和单位字段只读"
  | .text s, after => require (same (.text s) after) "算法状态、模式和单位字段只读"

def numericFields : List (String × Value) → Fields → Except String Unit
  | [], _ => .ok ()
  | (key, before) :: rest, after => do
    numericStructure before (after.get key)
    numericFields rest after

def numericItems : List Value → List Value → Except String Unit
  | before :: bs, after :: as => do
    numericStructure before after
    numericItems bs as
  | _, _ => .ok ()

end

mutual

/-- `_positive_weights`. -/
def positiveWeights : Value → Except String Unit
  | .object fields => positiveFields fields
  | .list items => positiveItems items
  | .int n => refuse (n ≤ 0) "噪声和协方差参数必须大于零"
  | .float q => refuse (q ≤ 0) "噪声和协方差参数必须大于零"
  | _ => .ok ()

def positiveFields : List (String × Value) → Except String Unit
  | [] => .ok ()
  | (_, value) :: rest => do
    positiveWeights value
    positiveFields rest

def positiveItems : List Value → Except String Unit
  | [] => .ok ()
  | value :: rest => do
    positiveWeights value
    positiveItems rest

end

/-- `snapshot_path` of a source document. -/
def documentPath (source : Value) : Except String String := do
  let source ← fieldsOf source
  match (source.lookup "snapshot_path").getD (.text "") with
  | .text name => return name
  | _ => .error noAttribute

/-- `snapshot_path` of each source document. -/
def snapshotPaths (setup : Value) : Except String (List String) := do
  let fields ← fieldsOf setup
  let items ← iterate ((fields.lookup "source_documents").getD (.list []))
  items.mapM documentPath

/-! ### The groups -/

structure Validators where
  /-- `float(..)`. -/
  float : Value → Except String ℚ
  resolveHardwareSetup : Value → Except String Unit
  resolveCloudFilter : Value → Except String Unit
  validatePlanarConfig : Value → Except String Unit
  validateProfile : Value → Except String Unit
  validateCovariance : Value → Except String Unit

/-- A document that was imported as evidence; `file` is its name in config/calibration/panel_extrinsics. -/
structure Source where
  id : String
  file : String
  sha256 : String
  evidenceType : String
  assemblyRevision : Value
  note : String
  originalPath : String

def wheelNumbers : List String := ["wheel_radius_m", "track_width_m", "register_to_wheel_rpm", "left_sign", "right_sign",
  "max_gap_s", "max_wheel_speed_m_s"]

def algorithmFields : List String := ["cloud_filter", "planar_ekf", "map_profile", "input_rate_hz", "max_pair_delta_ns",
  "wheel_imu_covariance", "wheel_imu_estimator"]

def maxEvidenceBytes : ℕ := 16 * 1024 * 1024

/-- `algorithm_values`. -/
def algorithmValues (mapping : Fields) : Fields :=
  setItem (algorithmFields.filterMap fun key => (mapping.lookup key).map fun v => (key, v)) "wheel_imu_estimator"
    ((mapping.lookup "wheel_imu_estimator").getD (.text "five_state"))

structure Edit where
  configs : Name → Value
  changed : List Name

def setConfig (configs : Name → Value) (name : Name) (fields : Fields) : Name → Value :=
  Function.update configs name (.object fields)

def sameIdentity (original proposed : Value) : Except String Unit := do
  let original ← fieldsOf original
  let proposed ← fieldsOf proposed
  ["id", "parent_frame", "child_frame", "direction", "unit"].forM fun key =>
    require (same (proposed.get key) (original.get key)) ("外参身份、方向和单位只读: " ++ key)

/-- The checks of `extrinsics` before the sources are verified. -/
def extrinsicItems (setup : Fields) (value : Value) : Except String (List Value) := do
  let before ← iterate ((setup.lookup "data_transforms").getD (.list []))
  match value with
  | .list items => do
    require (items.length = before.length) "不能添加、删除或重绑定设备外参身份"
    (before.zip items).forM fun pair => sameIdentity pair.1 pair.2
    return items
  | _ => .error "不能添加、删除或重绑定设备外参身份"

/-- `source_id` of all evidence of the transforms. -/
def references (transforms : List Value) : Except String (List Value) := do
  let parts ← transforms.mapM fun transform => do
    let fields ← fieldsOf transform
    let parts ← ["translation", "rotation"].mapM fun component => do
      let fields ← fieldsOf ((fields.lookup component).getD (.object []))
      let items ← iterate ((fields.lookup "evidence").getD (.list []))
      items.mapM fun evidence => do
        let fields ← fieldsOf evidence
        return fields.get "source_id"
    return parts.flatten
  return parts.flatten

def Source.snapshotPath (source : Source) : String := "config/calibration/panel_extrinsics/" ++ source.file

def Source.document (source : Source) : Value := .object [
  ("id", .text source.id), ("snapshot_path", .text source.snapshotPath), ("sha256", .text source.sha256),
  ("evidence_type", .text source.evidenceType), ("assembly_revision", source.assemblyRevision), ("note", .text source.note),
  ("original_path", .text source.originalPath)]

/-- `setup['source_documents'].append(..)`. -/
def appendSource (setup : Fields) (source : Source) : Except String Fields := do
  match ← item setup "source_documents" with
  | .list items => return setItem setup "source_documents" (.list (items ++ [source.document]))
  | _ => .error noAttribute

def wheelNumber (field : String × Value) : Except String Unit := do
  require (finite field.2) "轮参数必须为有限数值"
  if field.1.endsWith "_sign" then
    require (same field.2 (.int (-1)) ∨ same field.2 (.int 1)) "左右轮符号必须为 -1 或 1"
  else require (∃ q ∈ number field.2, 0 < q) "轮参数必须大于零"

def wheels (configs : Name → Value) (value : Value) : Except String Edit := do
  let setup ← fieldsOf (configs .setup)
  match value with
  | .object fields => do
    require (sameKeys fields wheelNumbers) "轮参数字段不匹配"
    fields.forM wheelNumber
    let odometry ← fieldsOf (← item setup "wheel_odometry")
    return ⟨setConfig configs .setup (setItem setup "wheel_odometry" (.object (update odometry fields))), [.setup]⟩
  | _ => .error "轮参数字段不匹配"

/-- `key in container`, of a text. -/
def contains (container : Value) (key : Value) : Except String Bool := do
  let items ← iterate container
  return items.any fun i => same i key

def isRotation : Value → Bool
  | .int n => n = 0 || n = 90 || n = 180 || n = 270
  | _ => false

def turnCamera (rotations : Fields) (row : Value) : Except String Value := do
  let fields ← fieldsOf row
  match ← item fields "role" with
  | .text role => do
    let rotation ← item rotations role
    require (isRotation rotation) "相机旋转必须为 0/90/180/270 度"
    return .object (setItem fields "rotate_deg" rotation)
  | _ => .error "相机身份不可修改"

def roleOf (row : Value) : Except String Value := do
  let fields ← fieldsOf row
  item fields "role"

def display (configs : Name → Value) (value : Value) : Except String Edit := do
  let setup ← fieldsOf (configs .setup)
  let mapping ← fieldsOf (configs .mapping)
  let cameras ← fieldsOf (configs .cameras)
  match value with
  | .object asked => do
    let fields : Fields := asked
    require (sameKeys fields ["visualization", "camera_rotations", "camera_profile", "rviz_renderer"]) "显示配置字段不匹配"
    let known ← contains (← item cameras "profiles") (fields.get "camera_profile")
    require (known = true) "未知相机显示配置"
    require (same (fields.get "rviz_renderer") (.text "software") ∨ same (fields.get "rviz_renderer") (.text "system"))
      "渲染器必须是 software 或 system"
    let rotations ← fieldsOf (fields.get "camera_rotations")
    let rows ← iterate (← item cameras "cameras")
    let roles ← rows.mapM roleOf
    require ((rotations.all fun f => roles.any fun r => r.isText f.1) ∧
      roles.all fun r => rotations.any fun f => r.isText f.1) "相机身份不可修改"
    let turned ← rows.mapM (turnCamera rotations)
    let cameras := setItem (setItem cameras "cameras" (.list turned)) "default_profile" (fields.get "camera_profile")
    return ⟨setConfig (setConfig (setConfig configs .cameras cameras) .setup
      (setItem setup "visualization" (fields.get "visualization"))) .mapping
      (setItem mapping "rviz_renderer" (fields.get "rviz_renderer")), files⟩
  | _ => .error "显示配置字段不匹配"

def isPairDelta : Value → Bool
  | .int n => decide (0 ≤ n) && decide (n ≤ 50000000)
  | _ => false

section algorithms
variable (env : Validators)

def algorithms (configs : Name → Value) (value : Value) : Except String Edit := do
  let mapping ← fieldsOf (configs .mapping)
  let before := algorithmValues mapping
  let fields ← fieldsOf value
  require (sameKeys fields (before.map Prod.fst)) "算法配置字段不匹配"
  require (same (fields.get "wheel_imu_estimator") (.text "five_state") ∨
    same (fields.get "wheel_imu_estimator") (.text "robot_localization")) "估计器必须为 five_state 或 robot_localization"
  numericFields (before.filter fun f => f.1 != "wheel_imu_estimator") fields
  let rate ← env.float ((fields.lookup "input_rate_hz").getD (.int 5))
  require (0 < rate ∧ rate ≤ 5) "在线输入频率必须在 (0,5] Hz；离线频率请在离线融合窗口选择"
  require (isPairDelta ((fields.lookup "max_pair_delta_ns").getD (.int 1))) "配对时间阈值必须为 0..50000000 ns 的整数"
  ["planar_ekf", "wheel_imu_covariance"].forM fun key => positiveWeights ((fields.lookup key).getD (.object []))
  let mapping := update mapping fields
  env.resolveCloudFilter (.object mapping)
  env.validatePlanarConfig (mapping.get "planar_ekf")
  env.validateProfile (mapping.get "map_profile")
  env.validateCovariance (mapping.get "wheel_imu_covariance")
  return ⟨setConfig configs .mapping mapping, [.mapping]⟩

end algorithms

end Smartwheel.Parameters
