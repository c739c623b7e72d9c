import Mathlib.Data.Finset.Max
import Mathlib.Data.Finset.Sort
import Mathlib.Data.Prod.Lex
import Smartwheel.Calibration.Value
import Smartwheel.Fusion.Geometry
import Smartwheel.Maps.Rays

/-! `build_map` in exact arithmetic: a map is built from the frames of a graph revision. An array that has no finite values
of the expected shape is `none`. -/
namespace Smartwheel.Maps
open Calibration (Value)
open Fusion (Transform rotation)

/-- A `MapError`, or any other exception. -/
inductive Failure where
  | map (text : String)
  | other (text : String)
deriving DecidableEq

def refuseIf (c : Prop) [Decidable c] (text : String) : Except Failure Unit :=
  if c then .error (.map text) else .ok ()

inductive Side where
  | left | right
deriving DecidableEq, Repr

namespace Side

def name : Side → String
  | .left => "left"
  | .right => "right"

def read : Value → Option Side
  | .text "left" => some .left
  | .text "right" => some .right
  | _ => none

end Side

inductive Epoch where
  | text (s : String)
  | number (n : ℕ)
deriving DecidableEq

def Epoch.equals (value : Value) (e : Epoch) : Bool :=
  match value, e with
  | .text s, .text t => s = t
  | .int n, .number m => n = m
  | .float q, .number m => q = m
  | .bool b, .number m => (if b then 1 else 0) = m
  | _, _ => false

/-- `integer`. -/
def integer (value : Value) (label : String) : Except Failure ℕ :=
  match value with
  | .int (.ofNat n) => .ok n
  | _ => .error (.map (label ++ ": expected a nonnegative integer"))

/-- `epoch`. -/
def epoch (value : Value) (label : String) : Except Failure Epoch :=
  match value with
  | .text s => if s = "" then .error (.map (label ++ ": expected a nonnegative integer")) else .ok (.text s)
  | _ => Epoch.number <$> integer value label

/-- `json.dumps`, with the options of the callers. -/
abbrev Dumps := Value → Except String String

def dumped (dumps : Dumps) (value : Value) : Except Failure String := (dumps value).mapError .other

/-- `identity`. -/
def identity (dumps : Dumps) (value : Value) (label : String) : Except Failure String :=
  match value with
  | .text s => if s = "" then .error (.map (label ++ ": expected a nonempty string or integer")) else dumped dumps value
  | .int _ => dumped dumps value
  | _ => .error (.map (label ++ ": expected a nonempty string or integer"))

/-- `raw_identity`. -/
def rawIdentity (dumps : Dumps) (value : Value) : Except Failure String :=
  match value with
  | .text s => if s = "" then .error (.map "raw_key must be a nonempty string or structured key") else .ok s
  | .object fields =>
    if fields.isEmpty then .error (.map "raw_key must be a nonempty string or structured key") else dumped dumps value
  | _ => .error (.map "raw_key must be a nonempty string or structured key")

/-- `np.allclose` with an absolute tolerance only. -/
def close {m n : ℕ} (a b : Matrix (Fin m) (Fin n) ℚ) (atol : ℚ) : Bool :=
  (List.finRange m).all fun i => (List.finRange n).all fun j => |a i j - b i j| ≤ atol

/-- `rigid`. -/
def rigid (value : Option Transform) (label : String) : Except Failure Transform :=
  match value with
  | none => .error (.map (label ++ ": expected a finite 4x4 transform"))
  | some t => do
    refuseIf (!close (t.submatrix (fun _ : Fin 1 => 3) id) !![0, 0, 0, 1] (1 / 10 ^ 8))
      (label ++ ": invalid homogeneous transform")
    refuseIf (!close ((rotation t).transpose * rotation t) 1 (1 / 10 ^ 6)) (label ++ ": rotation is not orthonormal")
    refuseIf (1 / 10 ^ 6 < |(rotation t).det - 1|) (label ++ ": rotation is not proper")
    return t

structure GraphNode where
  nodeId : Value
  odomEpoch : Value
  pose : Option Transform

structure GraphEdge where
  fromId : Value
  toId : Value
  type : Value

structure Graph where
  sessionId : Value
  graphEpoch : Value
  revision : Value
  nodes : List GraphNode
  edges : List GraphEdge

structure Frame where
  rawKey : Value
  nodeId : Value
  odomEpoch : Value
  sessionId : Option Value
  graphEpoch : Option Value
  side : Value
  sensorId : Value
  pose : Option Transform
  points : Option (List Vec)

/-- The configuration: what `float(config[key])` raises or gives, where a number that is not finite is `none`. -/
structure Config where
  number : String → Except String (Option ℚ)
  groundValid : Value
  sensorMode : Option Value
  maxRayCells : Option Value
  maxGridCells : Option Value
  maxPoints : Option Value
  maxVoxels : Option Value

structure Settings where
  resolution : ℚ
  ground : ℚ
  tolerance : ℚ
  minimum : ℚ
  maximum : ℚ
  groundValid : Bool
  expectedSides : Finset Side
  maxRayCells : ℕ
  maxGridCells : ℕ
  maxPoints : ℕ
  maxVoxels : ℕ

def setting (config : Config) (key : String) : Except Failure (Option ℚ) :=
  (config.number key).mapError fun text => .map ("missing/invalid physical map configuration: " ++ text)

def finiteNumber (value : Option ℚ) : Except Failure ℚ :=
  match value with
  | some q => .ok q
  | none => .error (.map "map configuration must be finite")

def sidesOf : Value → Except Failure (Finset Side)
  | .text "dual" => .ok {.left, .right}
  | .text "single_left" => .ok {.left}
  | .text "single_right" => .ok {.right}
  | value => if value.hashable then .error (.map "invalid sensor_mode") else .error (.other "unhashable type")

def readSettings (config : Config) : Except Failure Settings := do
  let resolution ← setting config "resolution"
  let ground ← setting config "ground_z"
  let tolerance ← setting config "ground_tolerance"
  let minimum ← setting config "collision_min_height"
  let maximum ← setting config "collision_max_height"
  let resolution ← finiteNumber resolution
  let ground ← finiteNumber ground
  let tolerance ← finiteNumber tolerance
  let minimum ← finiteNumber minimum
  let maximum ← finiteNumber maximum
  refuseIf (resolution ≤ 0 ∨ tolerance < 0 ∨ minimum ≤ tolerance ∨ maximum ≤ minimum)
    "require resolution>0 and 0<=ground_tolerance<collision_min_height<collision_max_height"
  match config.groundValid with
  | .bool groundValid =>
    let expectedSides ← sidesOf (config.sensorMode.getD (.text "dual"))
    let maxRayCells ← integer (config.maxRayCells.getD (.int 10000)) "max_ray_cells"
    let maxGridCells ← integer (config.maxGridCells.getD (.int 4000000)) "max_grid_cells"
    let maxPoints ← integer (config.maxPoints.getD (.int 5000000)) "max_points"
    let maxVoxels ← integer (config.maxVoxels.getD (.int 4000000)) "max_voxels"
    return { resolution, ground, tolerance, minimum, maximum, groundValid, expectedSides, maxRayCells, maxGridCells,
             maxPoints, maxVoxels }
  | _ => .error (.map "ground_valid must be explicitly true or false")

structure Node where
  key : String
  nodeId : Value
  odomEpoch : Epoch
  pose : Transform

structure Checked where
  sessionId : String
  graphEpoch : Epoch
  revision : ℕ
  nodes : List Node

def readNode (dumps : Dumps) (nodes : List Node) (node : GraphNode) : Except Failure (List Node) := do
  let key ← identity dumps node.nodeId "node_id"
  refuseIf (nodes.any (·.key = key)) "duplicate graph node ID"
  let odomEpoch ← epoch node.odomEpoch "node odom_epoch"
  let pose ← rigid node.pose "T_map_node"
  return nodes ++ [⟨key, node.nodeId, odomEpoch, pose⟩]

def readEdge (dumps : Dumps) (nodes : List Node) (edge : GraphEdge) : Except Failure Unit := do
  let missing := "graph edge references a missing node"
  let from_ ← identity dumps edge.fromId "edge from_id"
  refuseIf (!nodes.any (·.key = from_)) missing
  let to_ ← identity dumps edge.toId "edge to_id"
  refuseIf (!nodes.any (·.key = to_)) missing
  match edge.type with
  | .text s => refuseIf (s = "") "edge type must retain its actual graph provenance"
  | _ => .error (.map "edge type must retain its actual graph provenance")

/-- A row of `raw_data_index`; the session and the graph epoch are those of the graph. -/
structure RawRow where
  rawKey : Value
  nodeId : Value
  odomEpoch : Epoch
  sensorId : String
  side : Side
  pointCount : ℕ
  pose : Transform

structure Evidence where
  allCells : Finset Voxel
  occupied : Finset Voxel
  groundSupport : Finset (ℤ × ℤ)
  seenRaw : Finset String
  mapped : String → Finset Side
  sensorSides : String → Option Side
  sideSensors : Side → Option String
  cloud : List Vec
  origins : List (Value × Side × Vec)
  rawIndex : List RawRow
  counts : Side → ℕ

def Evidence.initial : Evidence where
  allCells := ∅
  occupied := ∅
  groundSupport := ∅
  seenRaw := ∅
  mapped _ := ∅
  sensorSides _ := none
  sideSensors _ := none
  cloud := []
  origins := []
  rawIndex := []
  counts _ := 0

def Axis.index : Axis → Fin 3
  | .x => 0
  | .y => 1
  | .z => 2

def translation (t : Transform) : Vec := fun a => t a.index.castSucc 3

/-- `points @ R.T + t`, for one point. -/
def moved (t : Transform) (p : Vec) : Vec := fun a =>
  let row := rotation t a.index
  p .x * row 0 + p .y * row 1 + p .z * row 2 + translation t a

/-- The square of `np.linalg.norm`. -/
def squared (p : Vec) : ℚ := p .x ^ 2 + p .y ^ 2 + p .z ^ 2

def remote (resolution : ℚ) (p : Vec) : Bool :=
  10 ^ 12 < |p .x| / resolution ∨ 10 ^ 12 < |p .y| / resolution ∨ 10 ^ 12 < |p .z| / resolution

def voxelLimit : String := "snapshot exceeds max_voxels resource bound"

def reserve (maxVoxels : ℕ) : List Voxel → Finset Voxel → Except Failure (Finset Voxel)
  | [], all => .ok all
  | cell :: rest, all =>
    if cell ∈ all then reserve maxVoxels rest all
    else if maxVoxels ≤ all.card then .error (.map voxelLimit)
    else reserve maxVoxels rest (insert cell all)

def join (maxVoxels : ℕ) (ray : List Voxel) (all : Finset Voxel) : Except Failure (Finset Voxel) :=
  if all.card + ray.length ≤ maxVoxels then .ok (all ∪ ray.toFinset) else reserve maxVoxels ray all

def trace (s : Settings) (origin : Vec) (e : Evidence) (endpoint : Vec) : Except Failure Evidence := do
  refuseIf (squared (fun a => endpoint a - origin a) ≤ (1 / 10 ^ 10) ^ 2) "zero-range return cannot be treated as an obstacle"
  let v := voxel s.resolution endpoint
  refuseIf (s.maxVoxels ≤ e.allCells.card ∧ v ∉ e.allCells) voxelLimit
  let ray ← (rayCells origin endpoint s.resolution s.maxRayCells).mapError .map
  let allCells ← join s.maxVoxels ray (insert v e.allCells)
  return { e with
    allCells
    occupied := insert v e.occupied
    groundSupport := if |endpoint .z - s.ground| ≤ s.tolerance then insert (v .x, v .y) e.groundSupport else e.groundSupport }

def nodeOf (g : Checked) (key : String) : Except Failure Node :=
  match g.nodes.find? (·.key = key) with
  | some node => .ok node
  | none => .error (.map "observation references a missing graph node")

def sensorOf (s : Settings) (f : Frame) : Except Failure (Side × String) :=
  let invalid := Failure.map "observation sensor identity/side is invalid"
  if !f.side.hashable then .error (.other "unhashable type")
  else
    match Side.read f.side, f.sensorId with
    | some side, .text sensor => if side ∉ s.expectedSides ∨ sensor = "" then .error invalid else .ok (side, sensor)
    | _, _ => .error invalid

def pointsOf (f : Frame) : Except Failure (List Vec) :=
  match f.points with
  | some (p :: ps) => .ok (p :: ps)
  | _ => .error (.map "raw points must be a nonempty finite Nx3 array; invalid/no-return data must be excluded explicitly")

def observe (dumps : Dumps) (g : Checked) (s : Settings) (e : Evidence) (f : Frame) : Except Failure Evidence := do
  let rawKey ← rawIdentity dumps f.rawKey
  refuseIf (rawKey ∈ e.seenRaw) "raw frame reused; a raw_key may contribute only once"
  let key ← identity dumps f.nodeId "observation node_id"
  let node ← nodeOf g key
  let odomEpoch ← epoch f.odomEpoch "observation odom_epoch"
  refuseIf (odomEpoch ≠ node.odomEpoch) "observation crosses an odometry epoch"
  refuseIf (f.sessionId.any (!·.isText g.sessionId) ∨ f.graphEpoch.any (!Epoch.equals · g.graphEpoch))
    "observation crosses session/graph epoch"
  let (side, sensor) ← sensorOf s f
  refuseIf ((e.sensorSides sensor).any (· ≠ side)) "same sensor identity used for both sides"
  refuseIf ((e.sideSensors side).any (· ≠ sensor)) "sensor identity changed within one snapshot"
  let mount ← rigid f.pose "T_node_sensor"
  let pose := node.pose * mount
  let points ← pointsOf f
  refuseIf (s.maxPoints < e.cloud.length + points.length) "snapshot exceeds max_points resource bound"
  let transformed := points.map (moved pose)
  let origin := translation pose
  refuseIf ((origin :: transformed).any (remote s.resolution)) "point coordinates exceed supported voxel range"
  let e ← transformed.foldlM (trace s origin) { e with
    seenRaw := insert rawKey e.seenRaw
    mapped := Function.update e.mapped key (insert side (e.mapped key))
    sensorSides := Function.update e.sensorSides sensor (some side)
    sideSensors := Function.update e.sideSensors side (some sensor)
    counts := Function.update e.counts side (e.counts side + points.length) }
  return { e with
    cloud := e.cloud ++ transformed
    origins := e.origins ++ [(f.rawKey, side, origin)]
    rawIndex := e.rawIndex ++ [⟨f.rawKey, node.nodeId, node.odomEpoch, sensor, side, points.length, mount⟩] }

def Voxel.order (u v : Voxel) : Prop := toLex (u .x, toLex (u .y, u .z)) ≤ toLex (v .x, toLex (v .y, v .z))

instance : DecidableRel Voxel.order := fun u v =>
  inferInstanceAs (Decidable (toLex (u .x, toLex (u .y, u .z)) ≤ toLex (v .x, toLex (v .y, v .z))))

instance : IsTrans Voxel Voxel.order := ⟨fun _ _ _ => le_trans⟩

instance : Std.Total Voxel.order := ⟨fun _ _ => le_total _ _⟩

instance : Std.Antisymm Voxel.order where
  antisymm u v before after := by
    have same := le_antisymm before after
    simp only [EmbeddingLike.apply_eq_iff_eq, Prod.mk.injEq] at same
    obtain ⟨x, y, z⟩ := same
    funext a
    cases a with
    | x => exact x
    | y => exact y
    | z => exact z

/-- `range`. -/
def range (first last : ℤ) : List ℤ := (List.range (last - first).toNat).map fun n : ℕ => first + n

structure Grid where
  width : ℤ
  height : ℤ
  origin : ℚ × ℚ × ℚ
  data : List ℤ

/-- The map of a revision: `sensors` are the identities of both sides. -/
structure BuiltMap where
  sessionId : String
  graphEpoch : Epoch
  revision : ℕ
  cloud : List Vec
  voxels : List (Voxel × ℤ)
  grid : Grid
  origins : List (Value × Side × Vec)
  rawIndex : List RawRow
  counts : Side → ℕ
  sensors : Side → Option String

def index (x y z : ℤ) : Voxel
  | .x => x
  | .y => y
  | .z => z

def cellValue (s : Settings) (e : Evidence) (vertical : List ℤ) (x y : ℤ) : ℤ :=
  let column := vertical.map (index x y)
  if column.any (· ∈ e.occupied) then 100
  else if s.groundValid ∧ (x, y) ∈ e.groundSupport ∧ column.all (· ∈ e.allCells \ e.occupied) then 0
  else -1

def extent (e : Evidence) (a : Axis) : Option (ℤ × ℤ) :=
  let on := e.allCells.image (· a)
  if h : on.Nonempty then some (on.min' h, on.max' h) else none

def collisionRange (s : Settings) : ℤ × ℤ :=
  (⌊(s.ground + s.minimum) / s.resolution⌋, ⌈(s.ground + s.maximum) / s.resolution⌉)

def project (s : Settings) (e : Evidence) : Except Failure Grid :=
  match extent e .x, extent e .y with
  | some (lowerX, upperX), some (lowerY, upperY) => do
    let width := upperX - lowerX + 1
    let height := upperY - lowerY + 1
    refuseIf (s.maxGridCells < width * height) "projected map exceeds max_grid_cells resource bound"
    let (start, end_) := collisionRange s
    refuseIf (s.maxRayCells < end_ - start) "collision interval exceeds resource bound"
    let data := (range lowerY (upperY + 1)).flatMap fun y =>
      (range lowerX (upperX + 1)).map fun x => cellValue s e (range start end_) x y
    return ⟨width, height, (lowerX * s.resolution, lowerY * s.resolution, 0), data⟩
  | _, _ => .error (.other "min() arg is an empty sequence")

def sideNames (sides : Finset Side) : String :=
  "[" ++ ", ".intercalate (([Side.left, Side.right].filter (· ∈ sides)).map fun side => "'" ++ side.name ++ "'") ++ "]"

def complete (s : Settings) (e : Evidence) (node : Node) : Except Failure Unit :=
  refuseIf (e.mapped node.key ≠ s.expectedSides)
    ("graph node " ++ node.key ++ " lacks required raw observations: " ++ sideNames (s.expectedSides \ e.mapped node.key))

def sessionOf (graph : Graph) : Except Failure String :=
  match graph.sessionId with
  | .text s => if s = "" then .error (.map "graph session_id is required") else .ok s
  | _ => .error (.map "graph session_id is required")

def prepare (dumps : Dumps) (graph : Graph) (config : Config) : Except Failure (Checked × Settings) := do
  let sessionId ← sessionOf graph
  let graphEpoch ← epoch graph.graphEpoch "graph_epoch"
  let revision ← integer graph.revision "graph revision"
  let settings ← readSettings config
  let nodes ← graph.nodes.foldlM (readNode dumps) []
  refuseIf nodes.isEmpty "cannot build an empty graph"
  graph.edges.forM (readEdge dumps nodes)
  return (⟨sessionId, graphEpoch, revision, nodes⟩, settings)

/-- What `build_map` makes of the evidence. -/
def finish (g : Checked) (s : Settings) (e : Evidence) : Except Failure BuiltMap := do
  g.nodes.forM (complete s e)
  let grid ← project s e
  return {
    sessionId := g.sessionId
    graphEpoch := g.graphEpoch
    revision := g.revision
    cloud := e.cloud
    voxels := (e.allCells.sort Voxel.order).map fun cell => (cell, if cell ∈ e.occupied then 100 else 0)
    grid
    origins := e.origins
    rawIndex := e.rawIndex
    counts := e.counts
    sensors := e.sideSensors }

/-- `build_map`. -/
def buildMap (dumps : Dumps) (graph : Graph) (observations : List Frame) (config : Config) : Except Failure BuiltMap := do
  let (g, s) ← prepare dumps graph config
  let e ← observations.foldlM (observe dumps g s) .initial
  finish g s e

end Smartwheel.Maps
