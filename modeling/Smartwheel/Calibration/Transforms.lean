import Mathlib.LinearAlgebra.Matrix.SchurComplement
import Mathlib.Tactic.NormNum
import Smartwheel.Calibration.Value

/-! The frames of a calibration document, and the checks of its single values. -/
namespace Smartwheel.Calibration

/-- The frames of `FRAMES`. -/
inductive Frame where
  | axle
  | mountingM
  | lidarLeft
  | lidarRight
  | cameraLeftFrontOptical
  | cameraRightFrontOptical
  | cameraLeftSideOptical
  | cameraRightSideOptical
  | imuNative
  | doubleHoleLeftFrontUnbound
  | doubleHoleRightFrontUnbound
  | doubleHoleLeftSideUnbound
  | doubleHoleRightSideUnbound
deriving DecidableEq

def Frame.name : Frame → String
  | .axle => "axle"
  | .mountingM => "mounting_M"
  | .lidarLeft => "lidar_left"
  | .lidarRight => "lidar_right"
  | .cameraLeftFrontOptical => "camera_left_front_optical"
  | .cameraRightFrontOptical => "camera_right_front_optical"
  | .cameraLeftSideOptical => "camera_left_side_optical"
  | .cameraRightSideOptical => "camera_right_side_optical"
  | .imuNative => "imu_native"
  | .doubleHoleLeftFrontUnbound => "double_hole_left_front_unbound"
  | .doubleHoleRightFrontUnbound => "double_hole_right_front_unbound"
  | .doubleHoleLeftSideUnbound => "double_hole_left_side_unbound"
  | .doubleHoleRightSideUnbound => "double_hole_right_side_unbound"

def FRAMES : List Frame :=
  [.axle, .mountingM, .lidarLeft, .lidarRight, .cameraLeftFrontOptical, .cameraRightFrontOptical,
    .cameraLeftSideOptical, .cameraRightSideOptical, .imuNative, .doubleHoleLeftFrontUnbound,
    .doubleHoleRightFrontUnbound, .doubleHoleLeftSideUnbound, .doubleHoleRightSideUnbound]

theorem mem_FRAMES (frame : Frame) : frame ∈ FRAMES := by cases frame <;> decide

instance : Fintype Frame := ⟨⟨FRAMES, by decide⟩, mem_FRAMES⟩

/-- What is raised: a `ValueError` with its text, that of `_object` with the names it lists, that of
`_connected_values` with the frames it names, a `TypeError` for a list or an object where a set is asked, or a
`KeyError`. -/
inductive Failure where
  | value (text : String)
  | fields (label : String) (missing unknown : List String)
  | inconsistent (origin neighbor : Frame)
  | unhashable
  | missing (frame : Frame)
deriving DecidableEq

namespace Value

/-- `value in names`, of a set of texts, and which. -/
def among (value : Value) (names : List String) : Except Failure (Option String) :=
  match value with
  | .text s => .ok (if s ∈ names then some s else none)
  | value => if value.hashable then .ok none else .error .unhashable

mutual
/-- `numeric` of `finite_array`. -/
def numeric : Value → Bool
  | .list items => allNumeric items
  | .int _ | .float _ => true
  | _ => false
def allNumeric : List Value → Bool
  | [] => true
  | item :: rest => numeric item && allNumeric rest
end

def commonShape : List (Option (List ℕ)) → Option (List ℕ)
  | [] => some [0]
  | none :: _ => none
  | some first :: others =>
    if others.all (· = some first) then some ((others.length + 1) :: first) else none

mutual
def shape : Value → Option (List ℕ)
  | .list items => commonShape (shapes items)
  | .int _ | .float _ => some []
  | _ => none
def shapes : List Value → List (Option (List ℕ))
  | [] => []
  | item :: rest => shape item :: shapes rest
end

def entry : Value → List ℕ → ℚ
  | .int n, [] => n
  | .float q, [] => q
  | .list items, i :: index => (items.getD i .null).entry index
  | _, _ => 0

end Value

def require (condition : Bool) (failure : Failure) : Except Failure Unit :=
  if condition then .ok () else .error failure

/-- `_object`. -/
def object (value : Value) (required : List String) (label : String) (optional : List String) : Except Failure Fields :=
  match value with
  | .object fields =>
    let keys := fields.map Prod.fst
    let missing := required.filter (· ∉ keys)
    let unknown := keys.filter fun key => key ∉ required && key ∉ optional
    if missing = [] ∧ unknown = [] then .ok fields
    else .error (.fields label (missing.mergeSort (· ≤ ·)) (unknown.mergeSort (· ≤ ·)))
  | _ => .error (.value (label ++ " must be an object"))

/-- `_text`. -/
def text (value : Value) (label : String) : Except Failure String :=
  let refused : Failure := .value (label ++ " requires non-empty bounded text")
  match value with
  | .text s => if s.toList.all isSpace ∨ 4096 < s.length then .error refused else .ok s
  | _ => .error refused

def shapeText (shape : List ℕ) : String :=
  match shape with
  | [n] => s!"({n},)"
  | _ => "(" ++ ", ".intercalate (shape.map toString) ++ ")"

/-- `finite_array`; what it returns is indexed. -/
def finiteArray (value : Value) (shape : List ℕ) (label : String) : Except Failure (List ℕ → ℚ) :=
  match value with
  | .list items =>
    if Value.allNumeric items = false then
      .error (.value (label ++ " requires finite numeric values, not strings or booleans"))
    else
      match value.shape with
      | none => .error (.value (label ++ " has invalid shape"))
      | some found =>
        if found = shape then .ok value.entry
        else .error (.value (label ++ " requires shape " ++ shapeText shape))
  | _ => .error (.value (label ++ " requires finite numeric values, not strings or booleans"))

abbrev Vector := Fin 3 → ℚ

abbrev Rotation := Matrix (Fin 3) (Fin 3) ℚ

/-- Four rows and four columns: the axes, and the homogeneous one. -/
abbrev Transform := Matrix (Fin 3 ⊕ Unit) (Fin 3 ⊕ Unit) ℚ

def tolerance : ℚ := 1 / 1000000

/-- `proper_rotation`. -/
def properRotation (value : Value) (label : String) : Except Failure Rotation := do
  let array ← finiteArray value [3, 3] label
  let result : Rotation := Matrix.of fun i j => array [i, j]
  require (decide ((∀ i j, |(result.transpose * result) i j - (1 : Rotation) i j| ≤ tolerance) ∧
      |result.det - 1| ≤ tolerance))
    (.value (label ++ " must be a proper rotation; reflection, scaling and skew are forbidden"))
  return result

/-- `np.eye(4)` with its rotation and its translation put in. -/
def homogeneous (rotation : Rotation) (translation : Vector) : Transform :=
  Matrix.fromBlocks rotation (Matrix.of fun i _ => translation i) 0 1

/-- `np.linalg.inv`. -/
def inverse (matrix : Transform) : Transform := (matrix.det)⁻¹ • matrix.adjugate

theorem inverse_eq (matrix : Transform) : inverse matrix = matrix⁻¹ := by
  rw [Matrix.inv_def, Ring.inverse_eq_inv', inverse]

theorem require_eq_ok {condition : Bool} {failure : Failure} {u : Unit} (h : require condition failure = .ok u) :
    condition = true := by
  by_cases hc : condition
  · exact hc
  · simp [require, hc] at h

theorem bind_eq_ok {α β : Type} {x : Except Failure α} {f : α → Except Failure β} {b : β} :
    (x >>= f) = .ok b ↔ ∃ a, x = .ok a ∧ f a = .ok b := by
  cases x with
  | error e | ok a => simp [bind, Except.bind]

theorem inverse_homogeneous {R : Rotation} (t : Vector) (h : IsUnit R) :
    ∃ s : Vector, inverse (homogeneous R t) = homogeneous R⁻¹ s := by
  refine ⟨fun i => -(R⁻¹ * Matrix.of fun i (_ : Unit) => t i) i (), ?_⟩
  rw [inverse_eq, homogeneous, Matrix.inv_fromBlocks_zero₂₁_of_isUnit_iff _ _ _ ⟨fun _ => isUnit_one, fun _ => h⟩]
  simp only [homogeneous, inv_one, Matrix.mul_one]
  congr 1

theorem homogeneous_mul (R S : Rotation) (t s : Vector) :
    ∃ r : Vector, homogeneous R t * homogeneous S s = homogeneous (R * S) r := by
  refine ⟨fun i => (R * Matrix.of fun i (_ : Unit) => s i) i () + t i, ?_⟩
  rw [homogeneous, homogeneous, Matrix.fromBlocks_multiply, homogeneous]
  simp only [Matrix.mul_zero, add_zero, Matrix.zero_mul, zero_add, Matrix.mul_one]
  congr 1

/-! ### `resolve_data_graph`: the records of the measured transforms, the edges they make, and the values that
`_connected_values` finds along them. -/

/-- A source document as `validate_sources` leaves it, as far as it is read here. -/
structure SourceDocument where
  evidenceType : String
  assemblyRevision : String
deriving DecidableEq

abbrev Sources := List (String × SourceDocument)

def USABLE_STATUSES : List String := ["USER_MEASURED_EXPERIMENT", "CALIBRATED"]

def COMPONENT_STATUSES : List String := USABLE_STATUSES ++ ["UNKNOWN", "CAD_NOMINAL", "LEGACY_CANDIDATE"]

def MEASURED_SOURCE_TYPES : List String := ["GEOMETRY_MEASUREMENT", "EXTRINSIC_CALIBRATION"]

def given {α : Type} (found : Option α) (failure : Failure) : Except Failure α :=
  match found with
  | some a => .ok a
  | none => .error failure

def lineRange (first last : Value) : Bool :=
  match first, last with
  | .int a, .int b => decide (1 ≤ a ∧ a ≤ b)
  | _, _ => false

/-- One item of `_evidence`. -/
def evidenceId (sources : Sources) (label : String) (item : Value) : Except Failure String := do
  let row ← object item ["source_id"] label ["line_start", "line_end"]
  let known ← (row.get "source_id").among (sources.map Prod.fst)
  let id ← given known (.value (label ++ " refers to an unknown source_id"))
  match row.lookup "line_start", row.lookup "line_end" with
  | none, none => return id
  | some first, some last =>
    require (lineRange first last) (.value (label ++ " has invalid source lines"))
    return id
  | _, _ => throw (.value (label ++ " line range needs both ends"))

/-- `_evidence`. -/
def evidence (values : Value) (sources : Sources) (label : String) : Except Failure (List String) :=
  match values with
  | .list items =>
    if items.isEmpty || 32 < items.length then .error (.value (label ++ " requires explicit source evidence"))
    else items.mapM (evidenceId sources label)
  | _ => .error (.value (label ++ " requires explicit source evidence"))

inductive Part where
  | translation
  | rotation
deriving DecidableEq

namespace Part

def name : Part → String
  | .translation => "translation"
  | .rotation => "rotation"

def field : Part → String
  | .translation => "value_m"
  | .rotation => "value_matrix"

def expected : Part → String
  | .translation => "FRAME_ORIGIN"
  | .rotation => "DATA_AXES"

def Data : Part → Type
  | .translation => Vector
  | .rotation => Rotation

def read : (part : Part) → Value → Except Failure part.Data
  | .translation, value => do
    let array ← finiteArray value [3] "translation.value_m"
    let result : Vector := fun i => array [i]
    require (decide (result 0 ^ 2 + result 1 ^ 2 + result 2 ^ 2 ≤ 9))
      (.value "translation.value_m must be metres within 3 m")
    return result
  | .rotation, value => properRotation value "rotation.value_matrix"

end Part

/-- `_component`. -/
def component (value : Value) (part : Part) (sources : Sources) (assemblyRevision : String) :
    Except Failure (Option part.Data × Option String) := do
  let row ← object value [part.field, "status", "reference_kind", "evidence", "note"] part.name []
  let known ← (row.get "status").among COMPONENT_STATUSES
  let status ← given known (.value (part.name ++ ".status is unsupported"))
  require ((row.get "reference_kind").isText part.expected)
    (.value (part.name ++ " must reference " ++ part.expected ++
      "; CAD face/package centres are not data extrinsics"))
  let _ ← text (row.get "note") (part.name ++ ".note")
  let ids ← evidence (row.get "evidence") sources (part.name ++ ".evidence")
  if status = "UNKNOWN" then
    require (row.get part.field).isNull (.value (part.name ++ " UNKNOWN must remain null, not a filled zero/identity"))
    return (none, some (part.name ++ ":UNKNOWN"))
  else
    let result ← part.read (row.get part.field)
    if status ∉ USABLE_STATUSES then return (none, some (part.name ++ ":" ++ status))
    else
      let applicable := (ids.filterMap fun id => sources.lookup id).filter (·.assemblyRevision = assemblyRevision)
      let kinds := applicable.map SourceDocument.evidenceType
      require (kinds.any (· ∈ MEASURED_SOURCE_TYPES))
        (.value (part.name ++
          " measured data extrinsic requires an assembly-matching geometry measurement/calibration source"))
      require (status ≠ "CALIBRATED" || "EXTRINSIC_CALIBRATION" ∈ kinds)
        (.value (part.name ++ " CALIBRATED requires an EXTRINSIC_CALIBRATION source"))
      return (some result, none)

structure Unresolved where
  transformId : String
  parentFrame : Frame
  childFrame : Frame
  component : Part
  reason : String
  note : Value

structure Record where
  id : String
  parent : Frame
  child : Frame
  translation : Option Vector
  rotation : Option Rotation
  unresolved : List Unresolved

/-- `value in FRAMES`, and which. -/
def frameOf (value : Value) : Except Failure (Option Frame) :=
  match value with
  | .text s => .ok (FRAMES.find? (·.name == s))
  | value => if value.hashable then .ok none else .error .unhashable

def ends (parent child : Value) : Except Failure (Frame × Frame) := do
  let refused : Failure := .value "data transform requires two distinct declared frames"
  let parentFrame ← given (← frameOf parent) refused
  let childFrame ← given (← frameOf child) refused
  require (parentFrame ≠ childFrame) refused
  return (parentFrame, childFrame)

/-- What `row[component]['note']` is, if the component is not usable. -/
def unresolvedPart (id : String) (parent child : Frame) (row : Fields) (part : Part) (reason : Option String) :
    List Unresolved :=
  match reason, row.get part.name with
  | some reason, .object fields => [⟨id, parent, child, part, reason, Fields.get fields "note"⟩]
  | _, _ => []

def recordAfterId (sources : Sources) (assemblyRevision : String) (row : Fields) (key : String) :
    Except Failure Record := do
  let (parent, child) ← ends (row.get "parent_frame") (row.get "child_frame")
  require ((row.get "direction").isText "child_to_parent" && (row.get "unit").isText "m")
    (.value "data transform must declare child_to_parent and metres")
  let _ ← text (row.get "note") "data_transform.note"
  let (translation, tReason) ← component (row.get "translation") .translation sources assemblyRevision
  let (rotation, rReason) ← component (row.get "rotation") .rotation sources assemblyRevision
  return ⟨key, parent, child, translation, rotation,
    unresolvedPart key parent child row .translation tReason ++ unresolvedPart key parent child row .rotation rReason⟩

/-- The checks of one record, after records with the ids `seen`. -/
def record (sources : Sources) (assemblyRevision : String) (seen : List String) (value : Value) :
    Except Failure Record := do
  let row ← object value ["id", "parent_frame", "child_frame", "direction", "unit", "translation", "rotation", "note"]
    "data_transform" []
  let key ← text (row.get "id") "data_transform.id"
  require (key ∉ seen) (.value "duplicate data transform id")
  recordAfterId sources assemblyRevision row key

abbrev Graph (M : Type) := Frame → List (Frame × M)

/-- `graph.setdefault(a, []).append((b, m))`. -/
def Graph.append {M : Type} (graph : Graph M) (a b : Frame) (m : M) : Graph M :=
  fun frame => if frame = a then graph frame ++ [(b, m)] else graph frame

structure Declared where
  full : Graph Transform
  rotations : Graph Rotation
  unresolved : List Unresolved
  seen : List String
  framesSeen : List Frame

def Declared.empty : Declared := ⟨fun _ => [], fun _ => [], [], [], []⟩

def Declared.add (declared : Declared) (r : Record) : Declared where
  full :=
    match r.rotation, r.translation with
    | some R, some t =>
      (declared.full.append r.parent r.child (homogeneous R t)).append r.child r.parent (inverse (homogeneous R t))
    | _, _ => declared.full
  rotations :=
    match r.rotation with
    | some R => (declared.rotations.append r.parent r.child R).append r.child r.parent R.transpose
    | none => declared.rotations
  unresolved := declared.unresolved ++ r.unresolved
  seen := declared.seen ++ [r.id]
  framesSeen := declared.framesSeen ++ [r.parent, r.child]

def declare (sources : Sources) (assemblyRevision : String) (declared : Declared) (row : Value) :
    Except Failure Declared := do
  let r ← record sources assemblyRevision declared.seen row
  return declared.add r

/-- `resolve_data_graph` up to its first search. -/
def declaredTransforms (values : Value) (sources : Sources) (assemblyRevision : String) : Except Failure Declared :=
  let refused : Failure := .value "data_transforms requires 1 to 128 explicit transform records"
  match values with
  | .list rows =>
    if rows.isEmpty || 128 < rows.length then .error refused
    else do
      let declared ← rows.foldlM (declare sources assemblyRevision) Declared.empty
      require (FRAMES.all (· ∈ declared.framesSeen))
        (.value "data_transforms must explicitly declare unknown or known relations for every sensor, M and axle")
      return declared
  | _ => .error refused

section
variable {M : Type} [Monoid M] [DecidableEq M]

/-- The inner loop of `_connected_values`, at a place with this value. -/
def neighbors (origin : Frame) (value : M) :
    List (Frame × M) → List (Frame × M) → List Frame → Except Failure (List (Frame × M) × List Frame)
  | [], result, pending => .ok (result, pending)
  | (neighbor, step) :: rest, result, pending =>
    match result.lookup neighbor with
    | some known =>
      if known = value * step then neighbors origin value rest result pending
      else .error (.inconsistent origin neighbor)
    | none => neighbors origin value rest (result ++ [(neighbor, value * step)]) (pending ++ [neighbor])

def unfound (result : List (Frame × M)) : ℕ := (Finset.univ.filter fun frame => result.lookup frame = none).card

omit [Monoid M] [DecidableEq M] in
theorem unfound_append {result : List (Frame × M)} {frame : Frame} (value : M) (new : result.lookup frame = none) :
    unfound (result ++ [(frame, value)]) < unfound result := by
  refine Finset.card_lt_card (Finset.ssubset_iff_subset_ne.mpr ⟨fun other h => ?_, fun same => ?_⟩)
  · simp only [Finset.mem_filter, Finset.mem_univ, true_and, List.lookup_append, Option.or_eq_none_iff] at h ⊢
    exact h.1
  · have h : frame ∈ Finset.univ.filter fun frame => result.lookup frame = none := by simpa using new
    rw [← same] at h
    simp [List.lookup_append, new] at h

theorem neighbors_measure {origin : Frame} {value : M} {rest result result' : List (Frame × M)}
    {pending pending' : List Frame} (h : neighbors origin value rest result pending = .ok (result', pending')) :
    2 * unfound result' + pending'.length ≤ 2 * unfound result + pending.length := by
  induction rest generalizing result pending with
  | nil =>
    cases h
    exact Nat.le_refl _
  | cons edge rest ih =>
    obtain ⟨neighbor, step⟩ := edge
    simp only [neighbors] at h
    split at h
    · split at h
      · exact ih h
      · cases h
    · rename_i new
      have less := unfound_append (value * step) new
      have rest := ih h
      simp only [List.length_append, List.length_singleton] at rest
      omega

/-- The outer loop of `_connected_values`. -/
def explore (graph : Graph M) (origin : Frame) (result : List (Frame × M)) (pending : List Frame) :
    Except Failure (List (Frame × M)) :=
  match pending with
  | [] => .ok result
  | current :: pending =>
    match result.lookup current with
    | none => .error (.missing current)
    | some value =>
      match _h : neighbors origin value (graph current) result pending with
      | .error failure => .error failure
      | .ok (result', pending') => explore graph origin result' pending'
termination_by 2 * unfound result + pending.length
decreasing_by
  have := neighbors_measure _h
  simp only [List.length_cons]
  omega

/-- `_connected_values`. -/
def connectedValues (graph : Graph M) (origin : Frame) : Except Failure (List (Frame × M)) :=
  explore graph origin [(origin, 1)] [origin]

def checkComponents (graph : Graph M) (frames : List Frame) : Except Failure (List Frame) :=
  frames.foldlM
    (fun checked origin => do
      if origin ∈ checked then return checked
      else
        let found ← connectedValues graph origin
        return checked ++ found.map Prod.fst)
    []

def resolveAll (graph : Graph M) (frames : List Frame) : Except Failure (List (Frame × List (Frame × M))) :=
  frames.mapM fun frame => do
    let found ← connectedValues graph frame
    return (frame, found)

end

/-- What `resolve_data_graph` returns. -/
structure Resolved where
  full : List (Frame × List (Frame × Transform))
  rotations : List (Frame × List (Frame × Rotation))
  unresolved : List Unresolved

/-- An order in which the set `FRAMES` may be gone through. -/
structure Enumeration where
  frames : List Frame
  once : frames.Nodup
  complete : ∀ frame, frame ∈ frames

/-- `resolve_data_graph`. -/
def resolveDataGraph (order : Enumeration) (values : Value) (sources : Sources) (assemblyRevision : String) :
    Except Failure Resolved := do
  let declared ← declaredTransforms values sources assemblyRevision
  let _ ← checkComponents declared.full order.frames
  let _ ← checkComponents declared.rotations order.frames
  let full ← resolveAll declared.full order.frames
  let rotations ← resolveAll declared.rotations order.frames
  return ⟨full, rotations, declared.unresolved⟩

end Smartwheel.Calibration
