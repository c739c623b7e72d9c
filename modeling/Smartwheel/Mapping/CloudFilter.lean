import Smartwheel.Arithmetic.Extended
import Smartwheel.Sensors.PointCloud
import Smartwheel.Sweep.Shifts

/-! `filter_cloud`: points that fail a geometric criterion of their side are made invalid, in the bytes of a derived cloud. -/
namespace Smartwheel.CloudFilter
open Effect Extended
open Smartwheel.Sensors.PointCloud

structure Format where
  fractionBits : ℕ
  exponentBits : ℕ
  bias : ℕ

def binary32 : Format := ⟨23, 8, 127⟩

def binary64 : Format := ⟨52, 11, 1023⟩

def formatOf (size : ℕ) : Format := if size = 4 then binary32 else binary64

/-- The bits of `np.nan`. -/
def Format.nan (f : Format) : ℕ := (2^f.exponentBits - 1) * 2^f.fractionBits + 2^(f.fractionBits - 1)

section number
variable {K : Type} [Exact K]

def Format.number (f : Format) (bits : ℕ) : Number K :=
  let fraction := bits % 2^f.fractionBits
  let exponent := bits / 2^f.fractionBits % 2^f.exponentBits
  let negative := bits / 2^(f.fractionBits + f.exponentBits) % 2 = 1
  let unit : K := 2^f.bias * 2^f.fractionBits
  if exponent = 2^f.exponentBits - 1 then (if fraction = 0 then .inf negative else .nan)
  else
    let magnitude : K := if exponent = 0 then 2 * fraction / unit else (2^f.fractionBits + fraction : ℕ) * 2^exponent / unit
    .finite (if negative then -magnitude else magnitude)

def numberOf (size bits : ℕ) : Number K := (formatOf size).number bits

abbrev Point (K : Type) : Type := Number K × Number K × Number K

/-- `np.isfinite(xyz).all(axis=1)`. -/
def Point.isFinite (p : Point K) : Bool := Number.isFinite p.1 && Number.isFinite p.2.1 && Number.isFinite p.2.2

def Point.square (p : Point K) : Number K := ((p.1.mul p.1).add (p.2.1.mul p.2.1)).add (p.2.2.mul p.2.2)

/-- `np.linalg.norm`. -/
def Point.norm (p : Point K) : Number K := (Point.square p).sqrt

def Point.minus (p q : Point K) : Point K := (p.1.sub q.1, p.2.1.sub q.2.1, p.2.2.sub q.2.2)

end number

/-! ### Settings -/

structure Band (K : Type) where
  enabled : Bool
  minM : K
  maxM : K

structure Support (K : Type) [Exact K] where
  enabled : Bool
  minNeighbors : ℕ
  distanceOffsetM : K
  distanceScale : K
  offset_nonneg : 0 ≤ distanceOffsetM
  scale_nonneg : 0 ≤ distanceScale

/-- What `resolve_cloud_filter` lets pass. -/
structure Settings (K : Type) [Exact K] where
  range : Band K
  organizedSupport : Support K
  groundHeight : Band K

def Band.holds {K : Type} [Exact K] (band : Band K) (n : Number K) : Bool :=
  decide ((Number.finite band.minM).Le n) && decide (n.Le (.finite band.maxM))

/-! ### Support in the image -/

structure Pixel (K : Type) where
  point : Point K
  valid : Bool
  range : Number K

def directions : List (ℤ × ℤ) := [(-1, -1), (-1, 0), (-1, 1), (0, -1), (0, 1), (1, -1), (1, 0), (1, 1)]

section support
variable {K : Type} [Exact K] (settings : Support K)

/-- `distance_offset_m + distance_scale * maximum(range, range)`. -/
def limit (a b : Pixel K) : Number K :=
  (Number.finite settings.distanceOffsetM).add ((Number.finite settings.distanceScale).mul (a.range.maximum b.range))

/-- `supported`. -/
def supported (a b : Pixel K) : Bool :=
  (a.valid && b.valid) && decide ((Point.square (Point.minus a.point b.point)).Le ((limit settings a b).mul (limit settings a b)))

/-- `support_mask`. The counts are of eight bits. -/
def supportMask (xyz : List (Point K)) (valid : List Bool) (shape : ℕ × ℕ) : Except String (List Bool) := do
  refuse (xyz.length ≠ shape.1 * shape.2 ∨ valid.length ≠ shape.1 * shape.2) "cannot reshape array"
  let pixels := (xyz.zip valid).map fun p => Pixel.mk p.1 p.2 (Point.norm p.1)
  let grid := Grid.ofList shape.2 pixels ⟨(.nan, .nan, .nan), false, .nan⟩ shape.1
  let zero : Grid ℕ := ⟨shape.1, shape.2, fun _ _ => 0⟩
  let support := directions.foldl (Grid.shift (supported settings) 256 grid) zero
  return (grid.zipWith (fun p n => p.valid && decide (settings.minNeighbors ≤ n)) support).flatten

end support

/-! ### The layout of an image -/

structure Source where
  side : String
  cloud : Message
  rawCount : ℕ
  diagnosticFlags : List String

/-- What follows `key=` in a flag. -/
def flagValues (key : String) (flags : List String) : List (List Char) :=
  flags.filterMap fun flag => flag.toList.dropPrefix? (key ++ "=").toList

/-- `isascii` and `isdecimal`. -/
def isDecimal (text : List Char) : Bool := text != [] && text.all fun c => '0' ≤ c && c ≤ '9'

def decimal (text : List Char) : ℕ := text.foldl (fun n c => 10 * n + (c.toNat - 48)) 0

def reportedShape (pointCount : ℕ) (width height order : List Char) : Option (ℕ × ℕ) × String :=
  if order ≠ "row_major".toList ∨ !isDecimal width ∨ !isDecimal height then (none, "LAYOUT_METADATA_INVALID")
  else if 6 < width.length ∨ 6 < height.length then (none, "LAYOUT_METADATA_INVALID")
  else if decimal width < 2 ∨ decimal height < 2 ∨ decimal width * decimal height ≠ pointCount then (none, "LAYOUT_METADATA_INVALID")
  else (some (decimal height, decimal width), "SDK_REPORTED_ROW_MAJOR")

def shapeOf (layout : Layout) (flags : List String) : Option (ℕ × ℕ) × String :=
  if 1 < layout.height then (some (layout.height, layout.width), "POINTCLOUD2_ORGANIZED")
  else match flagValues "sdk_width" flags, flagValues "sdk_height" flags, flagValues "sdk_point_order" flags with
    | [], [], [] => (none, "LAYOUT_UNAVAILABLE")
    | [width], [height], [order] => reportedShape layout.pointCount width height order
    | _, _, _ => (none, "LAYOUT_METADATA_INVALID")

/-- `_organized_shape`. -/
def organizedShape (source : Source) : Except String (Option (ℕ × ℕ) × String) := do
  let layout ← validate source.cloud
  return shapeOf layout source.diagnosticFlags

/-! ### The filter -/

structure Cloud where
  message : Message
  isDense : Bool

structure SourceRow where
  side : String
  outputRowStart : ℕ
  inputRows : ℕ
  finitePoints : ℕ
  nonzeroPoints : ℕ
  afterRange : ℕ
  supportStatus : String
  organizedShape : Option (ℕ × ℕ)
  layoutEvidence : String
  afterSupport : ℕ
  retainedPoints : ℕ
  rejectedPoints : ℕ

structure Report where
  enabled : Bool
  emptySides : List String
  sources : List SourceRow
  inputRows : ℕ
  retainedPoints : ℕ
  publishable : Bool
  skipReason : Option String

def trues (mask : List Bool) : ℕ := mask.countP id

/-- `a &= b`. A mask of one element is one for all. -/
def both (a b : List Bool) : Except String (List Bool) :=
  if b.length = a.length then .ok (List.zipWith (· && ·) a b)
  else if b.length = 1 then .ok (a.map (· && b.headD true))
  else .error "operands could not be broadcast together"

structure Side (K : Type) where
  source : Source
  xyz : List (Point K)
  keep : List Bool
  row : SourceRow

section filter
variable {K : Type} [Exact K] (settings : Settings K)

def measured (p : Point K) : Bool := Point.isFinite p && (Point.norm p).isPositive

def applySupport (xyz : List (Point K)) (ranged : List Bool) (layoutStatus : String) : Option (ℕ × ℕ) → Except String (List Bool × String)
  | some shape =>
    if settings.organizedSupport.enabled then do
      let mask ← supportMask settings.organizedSupport xyz ranged shape
      return (mask, "APPLIED")
    else return (ranged, "DISABLED")
  | none => return (ranged, if settings.organizedSupport.enabled then layoutStatus else "DISABLED")

/-- The mask of the rows from `offset` on with the heights above the ground, where they are asked for. -/
def applyHeights (heights : Option (List (Number K))) (offset : ℕ) (kept : List Bool) : Except String (List Bool) :=
  match heights with
  | some heights => both kept (((heights.drop offset).take kept.length).map settings.groundHeight.holds)
  | none => return kept

def filterSource (heights : Option (List (Number K))) (offset : ℕ) (source : Source) : Except String (Side K) := do
  let xyz ← decode numberOf source.cloud
  let finite := xyz.map Point.isFinite
  let nonzero := xyz.map measured
  let ranged := if settings.range.enabled then xyz.map fun p => measured p && settings.range.holds (Point.norm p) else nonzero
  let (shape, layoutStatus) ← organizedShape source
  let (kept, status) ← applySupport settings xyz ranged layoutStatus shape
  let keep ← applyHeights settings heights offset kept
  return ⟨source, xyz, keep, ⟨source.side, offset, xyz.length, trues finite, trues nonzero, trues ranged, status, shape, layoutStatus,
    trues kept, trues keep, xyz.length - trues keep⟩⟩

def filterSources (heights : Option (List (Number K))) : ℕ → List Source → Except String (List (Side K))
  | _, [] => pure []
  | offset, source :: rest => do
    let side ← filterSource settings heights offset source
    let others ← filterSources heights (offset + side.xyz.length) rest
    return side :: others

def view (layout : Layout) (storage : Bytes) (field : Field) : Except String Unit :=
  refuse (∃ cell ∈ layout.cells, storage.length < layout.address field cell.1 cell.2 + Sensors.PointCloud.sizeOf field.datatype)
    "buffer is too small for requested array"

/-- `values[reject] = np.nan`, for one field. -/
def overwrite (layout : Layout) (rejected : List (ℕ × ℕ)) (storage : Bytes) (name : String) : Except String Bytes :=
  match layout.fields.lookup name with
  | none => .error name
  | some field => do
    view layout storage field
    let size := Sensors.PointCloud.sizeOf field.datatype
    return (rejected.map fun cell => (layout.address field cell.1 cell.2, bytesOf layout.isBigendian size (formatOf size).nan)).foldl
      Disk.patch storage

def rejectedCells (layout : Layout) (keep : List Bool) : List (ℕ × ℕ) :=
  ((layout.cells.zip keep).filter fun p => !p.2).map Prod.fst

/-- `_invalidate_rows`. -/
def invalidateRows (cloud : Cloud) (keep : List Bool) : Except String Cloud := do
  let layout ← validate cloud.message
  refuse (keep.length ≠ layout.height * layout.width) "cannot reshape array"
  let data ← ["x", "y", "z"].foldlM (overwrite layout (rejectedCells layout keep)) cloud.message.data
  return ⟨{ cloud.message with data := data }, keep.all id⟩

structure Ground (K : Type) where
  baseAxle : Fin 4 → Fin 4 → K
  wheelRadiusM : K

/-- The heights above the ground, of all rows. `inverse` is that of matrices. -/
def groundZ (inverse : (Fin 4 → Fin 4 → K) → Except String (Fin 4 → Fin 4 → K)) (ground : Ground K) (xyz : List (Point K)) :
    Except String (List (Number K)) := do
  let axleBase ← inverse ground.baseAxle
  return xyz.map fun p =>
    let turned := ((p.1.mul (.finite (axleBase 2 0))).add (p.2.1.mul (.finite (axleBase 2 1)))).add (p.2.2.mul (.finite (axleBase 2 2)))
    (turned.add (.finite (axleBase 2 3))).add (.finite ground.wheelRadiusM)

def heightsOf (inverse : (Fin 4 → Fin 4 → K) → Except String (Fin 4 → Fin 4 → K)) (ground : Ground K) (xyz : List (Point K)) :
    Except String (Option (List (Number K))) :=
  if settings.groundHeight.enabled then (groundZ inverse ground xyz).map some else .ok none

/-- `filter_cloud`. -/
def filterCloud (inverse : (Fin 4 → Fin 4 → K) → Except String (Fin 4 → Fin 4 → K)) (ground : Ground K) (active : Bool)
    (cloud : Cloud) (members : List Source) : Except String (Cloud × Report) := do
  if !active then return (cloud, ⟨false, [], [], 0, 0, true, none⟩)
  let outputXyz ← decode numberOf cloud.message
  refuse (outputXyz.length ≠ (members.map Source.rawCount).foldl (· + ·) 0) "CLOUD_FILTER_OUTPUT_ROW_COUNT_MISMATCH"
  let heights ← heightsOf settings inverse ground outputXyz
  let sides ← filterSources settings heights 0 members
  let emptySides := (sides.filter fun side => !side.keep.any id).map fun side => side.source.side
  refuse (sides = []) "need at least one array to concatenate"
  let result ← invalidateRows cloud (sides.flatMap Side.keep)
  return (result, ⟨true, emptySides, sides.map Side.row, (sides.map fun side => side.xyz.length).foldl (· + ·) 0,
    (sides.map fun side => side.row.retainedPoints).foldl (· + ·) 0, emptySides.isEmpty,
    if emptySides.isEmpty then none else some "FILTERED_SOURCE_EMPTY"⟩)

end filter

end Smartwheel.CloudFilter
