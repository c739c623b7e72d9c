import Mathlib.Data.List.ReduceOption
import Smartwheel.Plane.Solve

/-! `refine_planes_icp`: the transform of the planes, refined by the points of the train captures. -/
namespace Smartwheel.PlaneSolve
open Effect

structure Scipy extends Numpy where
  Points : Type
  Six : Type
  Square : Type
  ofNat : ℕ → Scalar
  times : Scalar → Scalar → Scalar
  sum : List Scalar → Scalar
  sin : Scalar → Scalar
  cos : Scalar → Scalar
  /-- The 0.95 quantile. -/
  quantile : List Scalar → Scalar
  addVector : Vector → Vector → Vector
  eye : Matrix
  skew : Vector → Matrix
  addMatrix : Matrix → Matrix → Matrix
  scale : Scalar → Matrix → Matrix
  trace : Matrix → Scalar
  /-- Orthogonal, and of determinant one. -/
  proper : Matrix → Bool
  count : Points → ℕ
  finitePoints : Points → Bool
  /-- So many of the points, at even distances. -/
  thin : ℕ → Points → Points
  move : Matrix → Vector → Points → Points
  /-- The points with a neighbour inside of the gate, these neighbours, and their share. -/
  neighbours : Points → Points → Scalar → Points × Points × Scalar
  /-- `points @ normal + d`. -/
  offsets : Points → Vector → Scalar → List Scalar
  /-- `(p - q) @ normal`. -/
  residual : Points → Points → Vector → List Scalar
  /-- The weighted normal equations of a jacobian with the rows `p × normal, normal`. -/
  hessian : List (Points × Vector × List Scalar) → Square
  gradient : List (Points × Vector × List Scalar) → Six
  eigenvalues : Square → List Scalar
  /-- `-solve(hessian, gradient)`. -/
  descent : Square → Six → Six
  part : Scalar → Six → Vector × Vector
  normSix : Scalar → Six → Scalar

variable (n : Scipy)

structure Clouds where
  left : Except String n.Points
  right : Except String n.Points

structure CloudPose where
  id : String
  pose : Pose n.toNumpy
  leftPoints : n.Points
  rightPoints : n.Points

/-- `_read_cloud`. -/
def readCloud (value : Except String n.Points) : Except String n.Points := do
  let xyz ← value
  require (n.finitePoints xyz) "CLOUD_MUST_BE_FINITE_N_BY_3"
  require (30 ≤ n.count xyz) "TOO_FEW_ROI_POINTS"
  return if 1500 < n.count xyz then n.thin 1500 xyz else xyz

/-- An observation that `solve_planes` has read; an id that is missing is `None` here. -/
def readPose (clouds : String → Clouds n) (o : Observation n.toNumpy) : Except String (CloudPose n) := do
  let id := o.id.getD "None"
  let left ← readCloud n (clouds id).left
  let right ← readCloud n (clouds id).right
  let planes ← readPlanes n.toNumpy o
  return ⟨id, ⟨o.captureId.getD "", (Role.ofText o.role).getD .holdout, planes.1, planes.2⟩, left, right⟩

def cloudReasons (clouds : String → Clouds n) (o : Observation n.toNumpy) : List String :=
  match readPose n clouds o with
  | .error error => [o.id.getD "None" ++ ":INVALID_ROI_CLOUD:" ++ error]
  | .ok p =>
    [("left", p.leftPoints, p.pose.left), ("right", p.rightPoints, p.pose.right)].flatMap fun side =>
      if n.less (n.lit (35 / 1000)) (n.quantile ((n.offsets side.2.1 side.2.2.normal side.2.2.d).map n.abs)) then
        [p.id ++ ":" ++ side.1 ++ ":ROI_CLOUD_NOT_PLANE_INLIERS"]
      else []

/-- `_correspondences`. -/
def correspondences (p : CloudPose n) (t : Transform n.toNumpy) (gate : n.Scalar) : n.Points × n.Points × n.Scalar :=
  n.neighbours p.leftPoints (n.move t.rotation t.translation p.rightPoints) gate

def enough (found : n.Points × n.Points × n.Scalar) : Bool := 30 ≤ n.count found.1 && n.leq (n.lit (1 / 5)) found.2.2

def cloudMetric (t : Transform n.toNumpy) (p : CloudPose n) : Metric n.toNumpy × Bool :=
  (metric n.toNumpy t p.id p.pose, enough n (correspondences n p t (n.lit (1 / 20))))

/-- `_rotation_exp`. -/
def rotationExp (v : n.Vector) : n.Matrix :=
  let theta := n.norm v
  let skew := n.skew v
  let linear := n.addMatrix n.eye
  if n.less theta (n.lit (1 / 10 ^ 10)) then n.addMatrix (linear skew) (n.scale (n.lit (1 / 2)) (n.mul skew skew))
  else n.addMatrix (linear (n.scale (n.div (n.sin theta) theta) skew))
    (n.scale (n.div (n.sub (n.lit 1) (n.cos theta)) (n.times theta theta)) (n.mul skew skew))

/-- `_change` is more than is allowed. -/
def changed (t initial : Transform n.toNumpy) : Bool :=
  let turn := n.div (n.sub (n.trace (n.mul t.rotation (n.transpose initial.rotation))) (n.lit 1)) (n.lit 2)
  n.less (n.lit (1 / 10)) (n.norm (n.addVector t.translation (n.negVector initial.translation))) ||
    n.less (n.lit 5) (n.degrees (n.acos (n.clip turn)))

structure Fixed where
  moved : n.Points
  matched : n.Points
  normal : n.Vector
  weight : List n.Scalar
  residual : List n.Scalar

def cost (found : List (List n.Scalar × List n.Scalar)) : n.Scalar :=
  n.sum (found.map fun f => n.sum (List.zipWith (fun w r => n.times w (n.times r r)) f.1 f.2))

/-- `stages_m`. -/
def stages : List (ℚ × String) := [(12 / 100, "0.12"), (8 / 100, "0.08"), (5 / 100, "0.05")]

def fixedOf (t : Transform n.toNumpy) (gate : ℚ × String) (p : CloudPose n) : Except String (Fixed n) := do
  let found := correspondences n p t (n.lit gate.1)
  require (enough n found) (p.id ++ ":INSUFFICIENT_ICP_OVERLAP_AT_" ++ gate.2 ++ "M")
  let residual := n.residual found.1 found.2.1 p.pose.left.normal
  let larger (a b : n.Scalar) := if n.less a b then b else a
  let huber (r : n.Scalar) := n.div (n.lit (2 / 100)) (larger (n.abs r) (n.lit (1 / 10 ^ 12)))
  let weight := residual.map fun r => n.div (if n.less (huber r) (n.lit 1) then huber r else n.lit 1) (n.ofNat (n.count found.1))
  return ⟨found.1, found.2.1, p.pose.left.normal, weight, residual⟩

def improve (initial : Transform n.toNumpy) (train : List (CloudPose n)) (gate : ℚ × String) (t : Transform n.toNumpy) :
    Except String (Option (Transform n.toNumpy × Bool)) := do
  let fixed ← train.mapM (fixedOf n t gate)
  let hessian := n.hessian (fixed.map fun f => (f.moved, f.normal, f.weight))
  let gradient := n.gradient (fixed.map fun f => (f.moved, f.normal, List.zipWith n.times f.weight f.residual))
  let eigenvalues := n.eigenvalues hessian
  let smallest := eigenvalues.headD (n.lit 0)
  refuse (¬n.less (n.lit (1 / 10 ^ 12)) smallest ∨ n.less (n.lit (10 ^ 8)) (n.div (eigenvalues.getLastD (n.lit 0)) smallest))
    "ICP_NORMAL_EQUATIONS_ILL_CONDITIONED"
  let step := n.descent hessian gradient
  let bound := n.add (cost n (fixed.map fun f => (f.weight, f.residual))) (n.lit (1 / 10 ^ 15))
  let better (scale : ℚ) : Option (Transform n.toNumpy × Bool) :=
    let parts := n.part (n.lit scale) step
    let rotation := rotationExp n parts.1
    let moved := fixed.map fun f => (f.weight, n.residual (n.move rotation parts.2 f.moved) f.matched f.normal)
    if n.leq (cost n moved) bound then
      some (⟨n.mul rotation t.rotation, n.addVector (n.apply rotation t.translation) parts.2⟩,
        n.less (n.normSix (n.lit scale) step) (n.lit (1 / 10 ^ 7)))
    else none
  match [1, 1 / 2, 1 / 4, 1 / 8].findSome? better with
  | none => return none
  | some accepted =>
    refuse (changed n accepted.1 initial) "ICP_TOTAL_CHANGE_LIMIT_EXCEEDED"
    return some accepted

def stage (initial : Transform n.toNumpy) (train : List (CloudPose n)) (gate : ℚ × String) :
    ℕ → Transform n.toNumpy → Transform n.toNumpy × List String
  | 0, t => (t, [])
  | k + 1, t =>
    match improve n initial train gate t with
    | .error reason => (t, [reason])
    | .ok none => (t, [])
    | .ok (some (t, last)) => if last then (t, []) else stage initial train gate k t

def refineStages (initial : Transform n.toNumpy) (train : List (CloudPose n)) : List (ℚ × String) → Transform n.toNumpy → Transform n.toNumpy × List String
  | [], t => (t, [])
  | gate :: rest, t =>
    match stage n initial train gate 10 t with
    | (t, []) => refineStages initial train rest t
    | stopped => stopped

structure Refined where
  candidate : Bool
  transform : Option (Transform n.toNumpy)
  metrics : List (Metric n.toNumpy × Bool)
  reasons : List String

def regressed (before after : Metric n.toNumpy) : Bool :=
  after.role = .holdout &&
    (n.less (n.add (n.abs before.offsetM) (n.lit (1 / 100))) (n.abs after.offsetM) ||
      n.less (n.add before.normalAngleDeg (n.lit (1 / 2))) after.normalAngleDeg)

/-- `refine_planes_icp`, with what numpy makes of the initial transform. -/
def refinePlanesIcp (observations : List (Supplied n.toNumpy)) (clouds : String → Clouds n) (initial : Except String (Transform n.toNumpy)) :
    Refined n :=
  let solved := solvePlanes n.toNumpy observations
  let rejected (reasons : List String) : Refined n := ⟨false, none, [], reasons⟩
  if ¬solved.candidate then rejected ("PLANE_INITIALIZATION_NOT_CANDIDATE" :: solved.reasons)
  else
    match initial with
    | .error error => rejected ["INVALID_INITIAL_TRANSFORM:" ++ error]
    | .ok initial =>
      if ¬n.proper initial.rotation then rejected ["INVALID_INITIAL_TRANSFORM:INVALID_PROPER_ROTATION"]
      else
        let supplied := observations.reduceOption
        let invalid := supplied.flatMap (cloudReasons n clouds)
        if invalid ≠ [] then rejected invalid
        else
          let poses := supplied.filterMap fun o => (readPose n clouds o).toOption
          let before := poses.map (cloudMetric n initial)
          if before.any fun m => !m.1.passed then rejected ["PROVIDED_INITIAL_TRANSFORM_FAILS_PLANE_GATES"]
          else
            let train := firsts (·.pose.captureId) [] (poses.filter (·.pose.role = .train))
            let refined := refineStages n initial train stages initial
            let metrics := poses.map (cloudMetric n refined.1)
            let reasons := refined.2 ++ metrics.flatMap fun m =>
              (if m.1.passed then [] else [m.1.id ++ ":REFINED_PLANE_RESIDUAL_LIMIT_EXCEEDED"]) ++
                (if m.2 then [] else [m.1.id ++ ":REFINED_CLOUD_OVERLAP_LIMIT_EXCEEDED"]) ++
                if (before.reverse.find? (·.1.id = m.1.id)).any fun b => regressed n b.1 m.1 then [m.1.id ++ ":HOLDOUT_REGRESSION"] else []
            ⟨decide (reasons = []), some refined.1, metrics, firsts id [] reasons⟩

/-! ### The train captures -/

variable {n} {observations : List (Supplied n.toNumpy)} {clouds : String → Clouds n} {initial : Except String (Transform n.toNumpy)}

def cloudPoseOf (clouds : String → Clouds n) (x : Supplied n.toNumpy) : Option (CloudPose n) := x.bind fun o => (readPose n clouds o).toOption

structure Read (clouds : String → Clouds n) (x : Supplied n.toNumpy) (p : CloudPose n) : Prop where
  pose : cloudPoseOf clouds x = some p
  key : keyOf x = (some p.pose.role, some p.pose.captureId)
  planes : (poseOf x).isSome

theorem readPoses_read (parsed : ∀ x ∈ observations, (poseOf x).isSome) (valid : observations.reduceOption.flatMap (cloudReasons n clouds) = []) :
    List.Forall₂ (Read clouds) observations (observations.reduceOption.filterMap fun o => (readPose n clouds o).toOption) := by
  induction observations with
  | nil => exact .nil
  | cons x rest ih =>
    obtain ⟨pose, known⟩ := Option.isSome_iff_exists.mp (parsed x List.mem_cons_self)
    have rest_parsed := fun y there => parsed y (List.mem_cons_of_mem x there)
    cases x with
    | none => cases known
    | some o =>
      rw [List.reduceOption_cons_of_some, List.flatMap_cons, List.append_eq_nil_iff] at valid
      rw [List.reduceOption_cons_of_some]
      cases read : readPose n clouds o with
      | error error => simp [cloudReasons, read] at valid
      | ok p =>
        rw [List.filterMap_cons_some (by rw [read]; rfl)]
        refine .cons ⟨by simp [cloudPoseOf, read, Except.toOption], ?_, by rw [known]; rfl⟩ (ih rest_parsed valid.2)
        have key := keyOf_pose known
        obtain ⟨_, -, read⟩ := bind_eq_ok read
        obtain ⟨_, -, read⟩ := bind_eq_ok read
        obtain ⟨_, -, read⟩ := bind_eq_ok read
        cases read
        simp only [keyOf, Option.bind_some, Prod.mk.injEq] at key ⊢
        rw [key.1, key.2]
        exact ⟨rfl, rfl⟩

theorem train_read {poses : List (CloudPose n)} (h : List.Forall₂ (Read clouds) observations poses) :
    (leaders observations).map (cloudPoseOf clouds) = (firsts (·.pose.captureId) [] (poses.filter (·.pose.role = .train))).map some := by
  have kept := List.rel_filter (R := Read clouds) (p := isTrain) (q := fun p : CloudPose n => decide (p.pose.role = .train))
    (fun x p one => by
      show isTrain x = true ↔ decide (p.pose.role = .train) = true
      rw [isTrain, one.key]
      simp) h
  have trained := (List.forall₂_and_left _ _).mpr ⟨fun x there => (List.mem_filter.mp there).2, kept⟩
  have inj : Function.Injective fun captureId : String => (some Role.train, some captureId) := fun a b same => by
    simpa using same
  have first : List.Forall₂ _ (leaders observations) (firsts (fun p : CloudPose n => p.pose.captureId) [] _) :=
    firsts_forall₂ inj (fun x p one => by
      have role := of_decide_eq_true one.1
      rw [one.2.key] at role ⊢
      exact Prod.ext role rfl) trained []
  refine List.forall₂_eq_eq_eq ▸ List.forall₂_map_left_iff.mpr (List.forall₂_map_right_iff.mpr ?_)
  exact first.imp fun _ _ one => one.2.pose

theorem refinePlanesIcp_cases :
    ((refinePlanesIcp n observations clouds initial).candidate = false ∧ (refinePlanesIcp n observations clouds initial).transform = none) ∨
    ∃ poses start t, List.Forall₂ (Read clouds) observations poses ∧ initial = .ok start ∧
      t = (refineStages n start (firsts (·.pose.captureId) [] (poses.filter (·.pose.role = .train))) stages start).1 ∧
      (refinePlanesIcp n observations clouds initial).transform = some t ∧
      (refinePlanesIcp n observations clouds initial).metrics = poses.map (cloudMetric n t) ∧
      ((refinePlanesIcp n observations clouds initial).candidate = true →
        ∀ p ∈ poses, (cloudMetric n t p).1.passed = true ∧ (cloudMetric n t p).2 = true) := by
  unfold refinePlanesIcp
  dsimp only
  split
  · exact .inl ⟨rfl, rfl⟩
  next candidate =>
  split
  · exact .inl ⟨rfl, rfl⟩
  next start =>
  split
  · exact .inl ⟨rfl, rfl⟩
  split
  · exact .inl ⟨rfl, rfl⟩
  next valid =>
  split
  · exact .inl ⟨rfl, rfl⟩
  have parsed : ∀ x ∈ observations, (poseOf x).isSome := left_of_forall₂ (fun _ _ one => one.1) (solvePlanes_candidate (not_not.mp candidate))
  refine .inr ⟨_, start, _, readPoses_read parsed (not_not.mp valid), rfl, rfl, rfl, rfl, fun fine p there => ?_⟩
  have clean := (List.append_eq_nil_iff.mp (of_decide_eq_true fine)).2
  have one := List.flatMap_eq_nil_iff.mp clean _ (List.mem_map_of_mem there)
  simp only [List.append_eq_nil_iff, ite_eq_left_iff] at one
  simpa using one.1

theorem refinePlanesIcp_leaders {a b : List (Supplied n.toNumpy)} {cloudsA cloudsB : String → Clouds n} (same : leaders a = leaders b)
    (clouds : ∀ o, some o ∈ leaders a → cloudsA (o.id.getD "None") = cloudsB (o.id.getD "None")) {t u : Transform n.toNumpy}
    (first : (refinePlanesIcp n a cloudsA initial).transform = some t) (second : (refinePlanesIcp n b cloudsB initial).transform = some u) :
    t = u := by
  obtain ⟨-, none⟩ | ⟨poses, start, _, read, began, rfl, made, -⟩ := @refinePlanesIcp_cases n a cloudsA initial
  · rw [first] at none
    cases none
  obtain ⟨-, none⟩ | ⟨poses', start', _, read', began', rfl, made', -⟩ := @refinePlanesIcp_cases n b cloudsB initial
  · rw [second] at none
    cases none
  rw [began] at began'
  cases began'
  rw [← Option.some.inj (made.symm.trans first), ← Option.some.inj (made'.symm.trans second)]
  have equal : (leaders a).map (cloudPoseOf cloudsA) = (leaders a).map (cloudPoseOf cloudsB) := List.map_congr_left fun x there => by
    cases x with
    | none => rfl
    | some o => simp only [cloudPoseOf, Option.bind_some, readPose, clouds o there]
  rw [train_read read, same, train_read read'] at equal
  rw [List.map_injective_iff.mpr (Option.some_injective _) equal]

/-- What is held out has no part in the transform, and nothing that is supplied is left out of what is checked. -/
theorem holdouts_never_fit (n : Scipy) :
    (∀ (a b : List (Supplied n.toNumpy)) (t u : Transform n.toNumpy), Alike a b → (solvePlanes n.toNumpy a).transform = some t →
      (solvePlanes n.toNumpy b).transform = some u → t = u) ∧
    (∀ (a b : List (Supplied n.toNumpy)) (cloudsA cloudsB : String → Clouds n) (initial : Except String (Transform n.toNumpy))
      (t u : Transform n.toNumpy), Alike a b →
      (∀ o, some o ∈ trains a → some o ∈ trains b → cloudsA (o.id.getD "None") = cloudsB (o.id.getD "None")) →
      (refinePlanesIcp n a cloudsA initial).transform = some t → (refinePlanesIcp n b cloudsB initial).transform = some u → t = u) ∧
    (∀ a : List (Supplied n.toNumpy), (solvePlanes n.toNumpy a).candidate = true →
      List.Forall₂ (fun x m => (poseOf x).isSome ∧ m.passed = true) a (solvePlanes n.toNumpy a).metrics) ∧
    (∀ (a : List (Supplied n.toNumpy)) (clouds : String → Clouds n) (initial : Except String (Transform n.toNumpy)),
      (refinePlanesIcp n a clouds initial).candidate = true →
      List.Forall₂ (fun x m => (poseOf x).isSome ∧ m.1.passed = true ∧ m.2 = true) a (refinePlanesIcp n a clouds initial).metrics) := by
  refine ⟨fun a b t u alike => solvePlanes_leaders alike.leaders, fun a b cloudsA cloudsB initial t u alike clouds => ?_,
    fun a => solvePlanes_candidate, fun a clouds initial candidate => ?_⟩
  · refine refinePlanesIcp_leaders alike.leaders fun o there => clouds o (mem_of_mem_firsts there) ?_
    rw [alike.leaders] at there
    exact mem_of_mem_firsts there
  · obtain ⟨not, -⟩ | ⟨poses, start, t, read, -, -, -, metrics, passed⟩ := @refinePlanesIcp_cases n a clouds initial
    · rw [candidate] at not
      cases not
    · rw [metrics]
      refine List.forall₂_map_right_iff.mpr (List.forall₂_iff_zip.mpr ⟨read.length_eq, fun {x p} here => ?_⟩)
      exact ⟨((List.forall₂_iff_zip.mp read).2 here).planes, passed candidate p (List.of_mem_zip here).2⟩

end Smartwheel.PlaneSolve
