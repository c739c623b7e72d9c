import Smartwheel.Calibration.Value
import Smartwheel.Effect.Faulty

/-! `PlaneSession.mutate`: requests change the poses of a workspace and what was computed from them, and every accepted
change is saved in `workspace.json`. A request holds the lock of the session, so that requests follow each other. -/
namespace Smartwheel.Plane
open Effect
open Effect.Program hiding pure bind
open Smartwheel.Calibration (Value Fields strip)

inductive Side where
  | left
  | right
deriving DecidableEq

inductive Role where
  | train
  | holdout
deriving DecidableEq

structure Roi where
  r0 : ℤ
  c0 : ℤ
  r1 : ℤ
  c1 : ℤ
deriving DecidableEq

/-- What the loader returns of a recording; the arrays and the evidence are `δ`. -/
structure Capture (δ : Type) where
  captureId : String
  sourceMode : String
  sensorIds : δ
  width : ℤ
  height : ℤ
  clouds : δ
  amplitude : δ
  frames : δ
  dataset : String
  provenance : δ
deriving DecidableEq

structure Pose (δ : Type) where
  id : String
  label : String
  role : Role
  captureId : String
  dataset : String
  sourceMode : String
  sensorIds : δ
  width : ℤ
  height : ℤ
  clouds : δ
  amplitude : δ
  provenance : δ
  dataHash : String
  rois : Side → Option Roi
  fit : Option (δ × δ)
  sameFaceConfirmed : Bool

structure Observation (δ : Type) where
  id : String
  label : String
  captureId : String
  role : Role
  left : δ
  right : δ
  sameFaceConfirmed : Bool

structure PlaneResult (δ : Type) where
  status : String
  initial : δ
  report : δ

structure SavedPose (δ : Type) where
  id : String
  label : String
  role : Role
  captureId : String
  dataset : String
  sourceMode : String
  sensorIds : δ
  width : ℤ
  height : ℤ
  provenance : δ
  dataHash : String
  rois : Side → Option Roi
  fit : Option (δ × δ)
  sameFaceConfirmed : Bool

/-- `workspace.json`, without its constants. -/
structure Manifest (δ : Type) where
  sessionId : String
  revision : ℤ
  poses : List (SavedPose δ)
  result : Option (PlaneResult δ)
  icp : Option δ

/-- A directory that `save` makes: its candidate, once written, and whether it is complete. -/
structure Export (δ : Type) where
  name : String
  candidate : Option (Manifest δ × List (Observation δ))
  complete : Bool

structure Session (δ : Type) where
  sessionId : String
  revision : ℤ
  poses : List (Pose δ)
  result : Option (PlaneResult δ)
  icp : Option δ
  captures : List (String × Capture δ)
  workspace : Option (Manifest δ)
  exports : List (Export δ)

structure Tools (δ : Type) where
  hash : δ → δ → String
  fitSide : Capture δ → Pose δ → Side → Roi → Except String δ
  solvePlanes : List (Observation δ) → Except String (PlaneResult δ)
  inliers : Pose δ → Side → Except String δ
  refinePlanesIcp : List (Observation δ) → List (String × δ × δ) → δ → Except String δ

/-- A request, and what is found while it is handled: what the loader returns, the names drawn for a pose and an export,
and what goes wrong after `workspace.json` has been replaced, if anything. -/
structure Request (δ : Type) where
  action : String
  body : Fields
  loaded : Except String (Capture δ)
  identity : String
  exportName : String
  directorySync : Option String
  storageAfter : Option String

variable {δ : Type}

abbrev Part (δ α : Type) := Program (Host (Session δ)) String α

def passes (what : String) : Part δ Unit := atomic what id

def require (condition : Prop) [Decidable condition] (message : String) : Part δ Unit := raiseIf (¬condition) message

def returned {α : Type} : Except String α → Part δ α
  | .ok a => pure a
  | .error reason => raise reason

def Pose.saved (p : Pose δ) : SavedPose δ where
  id := p.id
  label := p.label
  role := p.role
  captureId := p.captureId
  dataset := p.dataset
  sourceMode := p.sourceMode
  sensorIds := p.sensorIds
  width := p.width
  height := p.height
  provenance := p.provenance
  dataHash := p.dataHash
  rois := p.rois
  fit := p.fit
  sameFaceConfirmed := p.sameFaceConfirmed

/-- `_manifest`. -/
def Session.manifest (s : Session δ) : Manifest δ where
  sessionId := s.sessionId
  revision := s.revision
  poses := s.poses.map Pose.saved
  result := s.result
  icp := s.icp

/-- `_check_storage`. -/
def checkStorage : Part δ Unit := passes "storage"

/-- `_persist`, with the write, the replacement and the last operations of `atomic_json`. -/
def persist (r : Request δ) : Part δ Unit := do
  checkStorage
  passes "links"
  passes "write"
  atomic "replace" fun s => { s with workspace := some s.manifest }
  returned (match r.directorySync with
    | some reason => .error reason
    | none => .ok ())
  returned (match r.storageAfter with
    | some reason => .error reason
    | none => .ok ())

/-- `roi_indices`, as far as it may refuse. -/
def roiIndices (roi : Roi) (height width : ℤ) : Part δ Unit :=
  require (0 ≤ roi.r0 ∧ roi.r0 ≤ roi.r1 ∧ roi.r1 < height ∧ 0 ≤ roi.c0 ∧ roi.c0 ≤ roi.c1 ∧ roi.c1 < width)
    "框选范围超出原始图像"

def roiOf : Value → Option Roi
  | .list [.int r0, .int c0, .int r1, .int c1] => some ⟨r0, c0, r1, c1⟩
  | _ => none

def roleOf (value : Value) : Option Role :=
  if value.isText "train" then some .train else if value.isText "holdout" then some .holdout else none

def boolOf : Value → Option Bool
  | .bool b => some b
  | _ => none

def sideOf (value : Value) : Option Side :=
  if value.isText "left" then some .left else if value.isText "right" then some .right else none

def datasetOf : Value → Option String
  | .text dataset => if dataset.length ≤ 1024 then some dataset else none
  | _ => none

def labelOf : Option Value → Option String
  | none => some ""
  | some (.text label) => some (strip label)
  | some _ => none


/-- `_new_pose`. -/
def newPose (tools : Tools δ) (capture : Capture δ) (label : String) (role : Role) (identity : String) : Pose δ where
  id := identity
  label := label
  role := role
  captureId := capture.captureId
  dataset := capture.dataset
  sourceMode := capture.sourceMode
  sensorIds := capture.sensorIds
  width := capture.width
  height := capture.height
  clouds := capture.clouds
  amplitude := capture.amplitude
  provenance := capture.provenance
  dataHash := tools.hash capture.clouds capture.amplitude
  rois _ := none
  fit := none
  sameFaceConfirmed := false

/-- `_pose`: where the one pose with this id is. -/
def findPose (identity : Value) : Part δ (Pose δ) := do
  let found ← look fun s => s.poses.filter fun p => identity.isText p.id
  match found with
  | [p] => return p
  | _ => raise "请选择当前工作区的姿态"

/-- The pose `p` is changed where it stands. -/
def changePose (p : Pose δ) (f : Pose δ → Pose δ) : Part δ Unit :=
  change fun s => { s with poses := s.poses.map fun q => if q.id = p.id then f q else q }

def sourceCheck (p : Pose δ) : Part δ (Capture δ) := do
  let found ← look fun s => s.captures.lookup p.captureId
  let capture ← need found "KeyError"
  passes "source"
  return capture

def Pose.observation (p : Pose δ) : Option (Observation δ) :=
  p.fit.map fun fit => ⟨p.id, p.label, p.captureId, p.role, fit.1, fit.2, p.sameFaceConfirmed⟩

/-- `_observations`. -/
def observations : Part δ (List (Observation δ)) := do
  let poses ← look Session.poses
  require (poses ≠ []) "请先导入已完成的静止录制"
  collect (fun p => do
    let observation ← need p.observation "每个保留姿态都须先框选两侧并拟合平面"
    let _ ← sourceCheck p
    return observation) poses

/-- One side of `_fit`. -/
def fitSide (tools : Tools δ) (capture : Capture δ) (p : Pose δ) (side : Side) : Part δ δ := do
  let roi ← need (p.rois side) "请先框选左右两侧的板面内部"
  roiIndices roi p.height p.width
  returned (tools.fitSide capture p side roi)

/-- `_fit`. -/
def fitPose (tools : Tools δ) (p : Pose δ) : Part δ (δ × δ) := do
  let capture ← sourceCheck p
  let left ← fitSide tools capture p .left
  let right ← fitSide tools capture p .right
  passes "source"
  return (left, right)

/-- The action `import`. -/
def importPose [DecidableEq δ] (tools : Tools δ) (r : Request δ) : Part δ Unit := do
  let poses ← look Session.poses
  require (poses.length < 16) "单工作区最多 16 个姿态"
  let label ← need (labelOf (r.body.lookup "label")) "AttributeError"
  let role ← need (roleOf (r.body.get "role")) "请输入姿态名并选择用途"
  require (1 ≤ label.length ∧ label.length ≤ 80) "请输入姿态名并选择用途"
  let _ ← need (datasetOf (r.body.get "dataset")) "请输入已完成录制的完整目录"
  let capture ← returned r.loaded
  let captures ← look Session.captures
  require (capture.captureId ∉ captures.map Prod.fst) "同一录制已经导入；连续帧不能冒充新的独立姿态"
  require (∀ first ∈ poses.head?, capture.sensorIds = first.sensorIds) "左右雷达身份与已有姿态不一致"
  require (∀ first ∈ poses.head?, capture.sourceMode = first.sourceMode) "不能混合合成与实机数据"
  change fun s => { s with poses := s.poses ++ [newPose tools capture label role r.identity] }
  change fun s => { s with captures := s.captures ++ [(capture.captureId, capture)] }

def givenRoi (value : Value) (p : Pose δ) : Part δ (Option Roi) :=
  if value.isNull then pure none
  else do
    let roi ← need (roiOf value) "框选范围须为四个整数原始行列值"
    roiIndices roi p.height p.width
    return some roi

/-- The action `roi`. -/
def setRoi (r : Request δ) (p : Pose δ) : Part δ Unit := do
  let side ← need (sideOf (r.body.get "side")) "左右标识无效"
  let roi ← givenRoi (r.body.get "roi") p
  changePose p fun q => { q with rois := fun t => if t = side then roi else q.rois t }
  changePose p fun q => { q with fit := none, sameFaceConfirmed := false }

/-- The action `role`. -/
def setRole (r : Request δ) (p : Pose δ) : Part δ Unit := do
  let role ← need (roleOf (r.body.get "role")) "姿态用途无效"
  changePose p fun q => { q with role }

/-- The action `remove`. -/
def removePose (p : Pose δ) : Part δ Unit := do
  change fun s => { s with poses := s.poses.filter (·.id ≠ p.id) }
  let captures ← look Session.captures
  require (p.captureId ∈ captures.map Prod.fst) "KeyError"
  change fun s => { s with captures := s.captures.filter (·.1 ≠ p.captureId) }

/-- The action `fit`. -/
def setFit (tools : Tools δ) (r : Request δ) (p : Pose δ) : Part δ Unit := do
  let confirmed ← need (boolOf (r.body.get "same_face_confirmed")) "请明确确认左右是否为同一面"
  let fit ← fitPose tools p
  changePose p fun q => { q with fit := some fit }
  changePose p fun q => { q with sameFaceConfirmed := confirmed }

/-- The action `solve`. -/
def solve (tools : Tools δ) : Part δ Unit := do
  let observed ← observations
  let result ← returned (tools.solvePlanes observed)
  change fun s => { s with result := some result }
  change fun s => { s with icp := none }

def Pose.selected (tools : Tools δ) (p : Pose δ) : Except String (String × δ × δ) := do
  let left ← tools.inliers p .left
  let right ← tools.inliers p .right
  return (p.id, left, right)

/-- The action `icp`. -/
def icp (tools : Tools δ) : Part δ Unit := do
  let current ← look Session.result
  let result ← need (current.filter fun result => result.status = "CANDIDATE") "须先获得通过训练门限的平面初值"
  let observed ← observations
  let poses ← look Session.poses
  let clouds ← returned (poses.mapM (Pose.selected tools))
  let refined ← returned (tools.refinePlanesIcp observed clouds result.initial)
  change fun s => { s with icp := some refined }

def Session.amend (s : Session δ) (name : String) (f : Export δ → Export δ) : Session δ :=
  { s with exports := s.exports.map fun e => if e.name = name then f e else e }

/-- `atomic_json` in an export: where it fails, the file is there or not. -/
def writeExport (name : String) (f : Session δ → Export δ → Export δ) : Part δ Unit :=
  attempt "write" (fun s => s.amend name (f s)) fun way s => if way = 0 then s else s.amend name (f s)

/-- The action `save`. -/
def save (r : Request δ) : Part δ Unit := do
  let current ← look Session.result
  require current.isSome "请先计算平面标定结果"
  let _ ← observations
  passes "links"
  atomic "mkdir" fun s => { s with exports := s.exports ++ [⟨r.exportName, none, false⟩] }
  let observed ← observations
  writeExport r.exportName fun s e => { e with candidate := some (s.manifest, observed) }
  checkStorage
  let _ ← observations
  writeExport r.exportName fun _ e => { e with complete := true }

/-- What is done for an action, and the path that `save` returns. -/
def act [DecidableEq δ] (tools : Tools δ) (r : Request δ) : Part δ (Option String) :=
  match r.action with
  | "import" => do
    importPose tools r
    return none
  | "roi" => do
    let p ← findPose (r.body.get "pose_id")
    setRoi r p
    return none
  | "role" => do
    let p ← findPose (r.body.get "pose_id")
    setRole r p
    return none
  | "remove" => do
    let p ← findPose (r.body.get "pose_id")
    removePose p
    return none
  | "fit" => do
    let p ← findPose (r.body.get "pose_id")
    setFit tools r p
    return none
  | "solve" => do
    solve tools
    return none
  | "icp" => do
    icp tools
    return none
  | "save" => do
    save r
    return some r.exportName
  | _ => raise "未知操作"

def edits (action : String) : Prop := action ∈ ["import", "roi", "role", "remove", "fit"]

instance (action : String) : Decidable (edits action) := inferInstanceAs (Decidable (_ ∈ _))

def forget (r : Request δ) : Part δ Unit :=
  Program.when (edits r.action) (change fun s => { s with result := none, icp := none })

def Request.revision (r : Request δ) : Option ℤ :=
  match r.body.get "revision" with
  | .int n => some n
  | _ => none

/-- The attributes that the handler of `mutate` puts back. -/
def Session.restore (s before : Session δ) : Session δ :=
  { s with
    poses := before.poses
    result := before.result
    icp := before.icp
    revision := before.revision
    captures := before.captures }

def transact [DecidableEq δ] (tools : Tools δ) (r : Request δ) : Part δ (Option String) := do
  let saved ← act tools r
  forget r
  change fun s => { s with revision := s.revision + 1 }
  persist r
  return saved

/-- `mutate`. -/
def mutate [DecidableEq δ] (tools : Tools δ) (r : Request δ) : Part δ (Option String) := do
  let revision ← look Session.revision
  require (r.revision = some revision) "页面版本已过期，请重新载入工作区；服务端已保存你的操作"
  checkStorage
  let before ← look id
  (transact tools r).handle fun reason => do
    change fun s => s.restore before
    raise reason

def opened (sessionId : String) (revision : ℤ) (poses : List (Pose δ)) (captures : List (String × Capture δ)) : Session δ :=
  let s : Session δ := ⟨sessionId, revision, poses, none, none, captures, none, []⟩
  { s with workspace := some s.manifest }

end Smartwheel.Plane
