import Mathlib.Data.List.Forall2
import Smartwheel.Calibration.Value
import Smartwheel.Effect.Check

/-! `solve_planes`: a transform between two lidars from the planes that both see, with some of the observations held out. -/
namespace Smartwheel.PlaneSolve
open Effect

/-- What numpy and `math` compute with numbers, vectors of three and matrices of three rows. -/
structure Numpy where
  Scalar : Type
  Vector : Type
  Matrix : Type
  lit : ℚ → Scalar
  less : Scalar → Scalar → Bool
  leq : Scalar → Scalar → Bool
  finite : Scalar → Bool
  finiteVector : Vector → Bool
  add : Scalar → Scalar → Scalar
  sub : Scalar → Scalar → Scalar
  div : Scalar → Scalar → Scalar
  neg : Scalar → Scalar
  abs : Scalar → Scalar
  /-- Between -1 and 1. -/
  clip : Scalar → Scalar
  acos : Scalar → Scalar
  degrees : Scalar → Scalar
  norm : Vector → Scalar
  dot : Vector → Vector → Scalar
  /-- A vector by a number. -/
  quotient : Vector → Scalar → Vector
  negVector : Vector → Vector
  apply : Matrix → Vector → Vector
  mul : Matrix → Matrix → Matrix
  transpose : Matrix → Matrix
  det : Matrix → Scalar
  /-- The identity with another last number. -/
  corrected : Scalar → Matrix
  /-- `a.T @ b` of two lists of rows. -/
  gram : List Vector → List Vector → Matrix
  /-- `u` and `vt`. -/
  svd : Matrix → Matrix × Matrix
  /-- The singular values, the largest first. -/
  singular : List Vector → List Scalar
  lstsq : List Vector → List Scalar → Vector

def firsts {α κ : Type} [DecidableEq κ] (key : α → κ) : List κ → List α → List α
  | _, [] => []
  | seen, a :: rest => if key a ∈ seen then firsts key seen rest else a :: firsts key (key a :: seen) rest

inductive Role where
  | train | holdout
deriving DecidableEq, Repr

def Role.upper : Role → String
  | .train => "TRAIN"
  | .holdout => "HOLDOUT"

def Role.ofText : String → Option Role
  | "train" => some .train
  | "holdout" => some .holdout
  | _ => none

variable (n : Numpy)

inductive Plane where
  | unreadable (error : String)
  | plane (status : String) (normal : n.Vector) (d : n.Scalar) (centroid : n.Vector)

structure Observation where
  id : Option String
  captureId : Option String
  role : String
  sameFaceConfirmed : Bool
  left : Plane n
  right : Plane n

/-- What is supplied: an observation, or something else. -/
abbrev Supplied := Option (Observation n)

structure Fit where
  normal : n.Vector
  d : n.Scalar
  centroid : n.Vector

/-- `_read_fit`. -/
def readFit : Plane n → Except String (Fit n)
  | .unreadable error => .error error
  | .plane status normal d centroid => do
    require (status = "PASS") "PLANE_FIT_NOT_PASS"
    require (n.finiteVector normal ∧ n.finiteVector centroid ∧ n.finite d) "NONFINITE_PLANE"
    let length := n.norm normal
    refuse (n.leq length (n.lit (1 / 10 ^ 12))) "ZERO_PLANE_NORMAL"
    let normal := n.quotient normal length
    let d := n.div d length
    refuse (n.less (n.lit (1 / 10 ^ 5)) (n.abs (n.add (n.dot normal centroid) d))) "PLANE_CENTROID_EQUATION_INCONSISTENT"
    let direction := n.dot normal centroid
    refuse (n.less (n.abs direction) (n.lit (1 / 10 ^ 9))) "PLANE_ORIENTATION_UNDEFINED_AT_SENSOR"
    return if n.less (n.lit 0) direction then ⟨n.negVector normal, n.neg d, centroid⟩ else ⟨normal, d, centroid⟩

structure Pose where
  captureId : String
  role : Role
  left : Fit n
  right : Fit n

structure Parsed extends Pose n where
  id : String

structure Parsing where
  parsed : List (Parsed n)
  roles : List (String × Role)
  seen : List String
  reasons : List String

/-- `str.strip` leaves nothing. -/
def blank (s : String) : Bool := s.toList.all Calibration.isSpace

def readPlanes (o : Observation n) : Except String (Fit n × Fit n) := do
  let left ← readFit n o.left
  let right ← readFit n o.right
  return (left, right)

def parse (s : Parsing n) (index : ℕ) : Supplied n → Parsing n
  | none => { s with reasons := s.reasons ++ ["OBSERVATION_" ++ toString index ++ ":INVALID_OBSERVATION"] }
  | some o =>
    let oid := o.id.getD (toString index)
    match o.captureId.filter (!blank ·), Role.ofText o.role with
    | none, _ => { s with reasons := s.reasons ++ [oid ++ ":MISSING_CAPTURE_ID"] }
    | some _, none => { s with reasons := s.reasons ++ [oid ++ ":INVALID_ROLE"] }
    | some captureId, some role =>
      let s := { s with
        roles := s.roles ++ [(captureId, role)]
        reasons := s.reasons ++ if oid ∈ s.seen then [oid ++ ":DUPLICATE_OBSERVATION_ID"] else []
        seen := oid :: s.seen }
      if ¬o.sameFaceConfirmed then { s with reasons := s.reasons ++ [oid ++ ":SAME_FACE_CONFIRMATION_REQUIRED"] }
      else
        match readPlanes n o with
        | .error error => { s with reasons := s.reasons ++ [oid ++ ":INVALID_PLANE:" ++ error] }
        | .ok (left, right) => { s with parsed := s.parsed ++ [⟨⟨captureId, role, left, right⟩, oid⟩] }

def parseAll (observations : List (Supplied n)) : Parsing n :=
  observations.zipIdx.foldl (fun s item => parse n s item.2 item.1) ⟨[], [], [], []⟩

def leaked (roles : List (String × Role)) : List String :=
  (firsts id [] (roles.map Prod.fst)).filter fun captureId => (captureId, Role.train) ∈ roles ∧ (captureId, Role.holdout) ∈ roles

/-- `_angle`. -/
def angle (a b : n.Vector) : n.Scalar := n.degrees (n.acos (n.clip (n.dot a b)))

structure Observability where
  rank : ℕ
  condition : Option n.Scalar

/-- `_observability`. -/
def observability (normals : List n.Vector) : Observability n :=
  let singular := if normals = [] then [] else n.singular normals
  let rank := singular.countP (n.less (n.lit (1 / 10 ^ 8)))
  match singular, decide (rank = 3) with
  | [first, _, last], true => ⟨rank, some (n.div first last)⟩
  | _, _ => ⟨rank, none⟩

def Pose.key {n : Numpy} (p : Pose n) : Role × String := (p.role, p.captureId)

def apart (a b : Fit n) : Bool :=
  n.less (n.lit 3) (angle n a.normal b.normal) || n.less (n.lit (1 / 20)) (n.abs (n.sub a.d b.d))

def inconsistent (parsed : List (Parsed n)) : List String :=
  (firsts (·.key) [] parsed).flatMap fun reference =>
    (parsed.filter fun o => o.key = reference.key).tail.flatMap fun other =>
      [apart n reference.left other.left, apart n reference.right other.right].flatMap fun differ =>
        if differ then [reference.captureId ++ ":INCONSISTENT_REPEATED_POSE"] else []

def gates (train : List (Pose n)) : List String :=
  let left := observability n (train.map (·.left.normal))
  let right := observability n (train.map (·.right.normal))
  (if train.length < 3 then ["TOO_FEW_INDEPENDENT_TRAIN_CAPTURES"] else []) ++
    (if min left.rank right.rank < 3 then ["TRAIN_NORMALS_RANK_DEFICIENT"] else []) ++
    match left.condition, right.condition with
    | some l, some r => if n.less (n.lit 20) (if n.less l r then r else l) then ["TRAIN_NORMALS_ILL_CONDITIONED"] else []
    | _, _ => []

structure Transform where
  rotation : n.Matrix
  translation : n.Vector

def fit (train : List (Pose n)) : Transform n :=
  let left := train.map (·.left.normal)
  let factors := n.svd (n.gram (train.map (·.right.normal)) left)
  let u := factors.1
  let vt := factors.2
  let correction := n.corrected (if n.less (n.lit 0) (n.det (n.mul (n.transpose vt) (n.transpose u))) then n.lit 1 else n.lit (-1))
  ⟨n.mul (n.mul (n.transpose vt) correction) (n.transpose u), n.lstsq left (train.map fun o => n.sub o.right.d o.left.d)⟩

structure Metric where
  id : String
  captureId : String
  role : Role
  normalAngleDeg : n.Scalar
  offsetM : n.Scalar
  passed : Bool

def metric (t : Transform n) (id : String) (pose : Pose n) : Metric n :=
  let angle := angle n pose.left.normal (n.apply t.rotation pose.right.normal)
  let offset := n.sub (n.add (n.dot pose.left.normal t.translation) pose.left.d) pose.right.d
  ⟨id, pose.captureId, pose.role, angle, offset, n.leq angle (n.lit 3) && n.leq (n.abs offset) (n.lit (1 / 20))⟩

structure Outcome where
  candidate : Bool
  transform : Option (Transform n)
  metrics : List (Metric n)
  reasons : List String

def rejected (reasons : List String) : Outcome n := ⟨false, none, [], reasons⟩

def representatives (parsed : List (Parsed n)) : List (Pose n) := (firsts Pose.key [] (parsed.map Parsed.toPose)).filter (·.role = .train)

def solvePlanes (observations : List (Supplied n)) : Outcome n :=
  if observations = [] then rejected n ["NO_OBSERVATIONS"]
  else
    let s := parseAll n observations
    let invalid := s.reasons ++ (leaked s.roles).map (· ++ ":CAPTURE_ROLE_LEAKAGE")
    if invalid ≠ [] then rejected n invalid
    else
      let train := representatives n s.parsed
      let ungood := inconsistent n s.parsed ++ gates n train
      if ungood ≠ [] then rejected n ungood
      else
        let t := fit n train
        let metrics := s.parsed.map fun o => metric n t o.id o.toPose
        let reasons := (if n.less (n.lit (1 / 10 ^ 8)) (n.abs (n.sub (n.det t.rotation) (n.lit 1))) then ["IMPROPER_ROTATION"] else []) ++
          (metrics.filter fun m => !m.passed).map fun m => m.id ++ ":" ++ m.role.upper ++ "_PLANE_RESIDUAL_LIMIT_EXCEEDED"
        ⟨decide (reasons = []), some t, metrics, firsts id [] reasons⟩

/-! ### First elements -/

section firsts
variable {α β κ μ : Type} [DecidableEq κ] [DecidableEq μ] {key : α → κ}

theorem firsts_filter {p : α → Bool} {q : κ → Bool} (keys : ∀ a, p a = q (key a)) {seen seen' : List κ}
    (same : ∀ k, q k = true → (k ∈ seen ↔ k ∈ seen')) (l : List α) : (firsts key seen l).filter p = firsts key seen' (l.filter p) := by
  induction l generalizing seen seen' with
  | nil => rfl
  | cons a rest ih =>
    by_cases kept : p a = true
    · have known := same (key a) (keys a ▸ kept)
      rw [List.filter_cons_of_pos kept, firsts, firsts]
      by_cases there : key a ∈ seen
      · rw [if_pos there, if_pos (known.mp there), ih same]
      · rw [if_neg there, if_neg fun before => there (known.mpr before), List.filter_cons_of_pos kept]
        exact congrArg (a :: ·) (ih fun k wanted => by rw [List.mem_cons, List.mem_cons, same k wanted])
    · rw [List.filter_cons_of_neg kept, firsts]
      by_cases there : key a ∈ seen
      · rw [if_pos there, ih same]
      · rw [if_neg there, List.filter_cons_of_neg kept]
        refine ih fun k wanted => ?_
        have differs : k ≠ key a := fun equal => kept (by rw [keys, ← equal, wanted])
        rw [List.mem_cons, same k wanted]
        exact ⟨fun either => either.resolve_left differs, .inr⟩

theorem firsts_forall₂ {R : α → β → Prop} {key' : β → μ} {e : μ → κ} (inj : Function.Injective e) (keys : ∀ a b, R a b → key a = e (key' b))
    {xs : List α} {ys : List β} (h : List.Forall₂ R xs ys) (seen : List μ) :
    List.Forall₂ R (firsts key (seen.map e) xs) (firsts key' seen ys) := by
  induction h generalizing seen with
  | nil => exact .nil
  | @cons a b _ _ one _ ih =>
    have known : key a ∈ seen.map e ↔ key' b ∈ seen := by rw [keys a b one, List.mem_map_of_injective inj]
    by_cases there : key' b ∈ seen
    · rw [firsts, firsts, if_pos there, if_pos (known.mpr there)]
      exact ih seen
    · rw [firsts, firsts, if_neg there, if_neg fun before => there (known.mp before), keys a b one]
      exact .cons one (ih (key' b :: seen))

theorem mem_of_mem_firsts {seen : List κ} {l : List α} {a : α} (h : a ∈ firsts key seen l) :
    a ∈ l := by
  induction l generalizing seen with
  | nil => exact h
  | cons b l ih =>
    rw [firsts] at h
    split at h
    · exact List.mem_cons_of_mem _ (ih h)
    · exact List.mem_cons.mpr ((List.mem_cons.mp h).imp_right ih)

theorem left_of_forall₂ {R : α → β → Prop} {p : α → Prop} (imp : ∀ a b, R a b → p a) {xs : List α} {ys : List β}
    (h : List.Forall₂ R xs ys) : ∀ a ∈ xs, p a := by
  induction h with
  | nil => exact fun a there => by cases there
  | cons one _ ih => exact List.forall_mem_cons.mpr ⟨imp _ _ one, ih⟩

end firsts

/-! ### What is fitted -/

variable {n} {s : Parsing n} {observations : List (Supplied n)}

def poseOf (x : Supplied n) : Option (Pose n) := do
  let o ← x
  let captureId ← o.captureId.filter (!blank ·)
  let role ← Role.ofText o.role
  let planes ← (readPlanes n o).toOption
  return ⟨captureId, role, planes.1, planes.2⟩

def keyOf (x : Supplied n) : Option Role × Option String := (x.bind fun o => Role.ofText o.role, x.bind (·.captureId))

def isTrain (x : Supplied n) : Bool := (keyOf x).1 = some .train

def trains (observations : List (Supplied n)) : List (Supplied n) := observations.filter isTrain

def leaders (observations : List (Supplied n)) : List (Supplied n) := firsts keyOf [] (trains observations)

theorem keyOf_pose {x : Supplied n} {pose : Pose n} (h : poseOf x = some pose) : keyOf x = (some pose.role, some pose.captureId) := by
  simp only [poseOf, Option.bind_eq_bind, Option.bind_eq_some_iff, Option.filter_eq_some_iff] at h
  obtain ⟨o, rfl, captureId, ⟨known, -⟩, role, named, planes, -, rest⟩ := h
  cases rest
  simp [keyOf, known, named]

theorem parse_ok {index : ℕ} {x : Supplied n} (h : (parse n s index x).reasons = []) :
    s.reasons = [] ∧ ∃ p : Parsed n, poseOf x = some p.toPose ∧ (parse n s index x).parsed = s.parsed ++ [p] := by
  cases x with
  | none => simp [parse] at h
  | some o =>
    unfold parse at h ⊢
    dsimp only at h ⊢
    split
    · next missing => simp [missing] at h
    · next known unnamed => simp [known, unnamed] at h
    · next captureId role known named =>
      rw [known, named] at h
      dsimp only at h
      split at h
      · simp at h
      · next confirmed =>
        rw [if_neg confirmed]
        split at h
        · simp at h
        · next left right read =>
          refine ⟨(List.append_eq_nil_iff.mp h).1, ⟨⟨captureId, role, left, right⟩, _⟩, ?_, rfl⟩
          simp [poseOf, known, named, read, Except.toOption]

theorem parse_run (items : List (Supplied n × ℕ)) (h : (items.foldl (fun s item => parse n s item.2 item.1) s).reasons = []) :
    s.reasons = [] ∧ ∃ new : List (Parsed n), (items.foldl (fun s item => parse n s item.2 item.1) s).parsed = s.parsed ++ new ∧
      List.Forall₂ (fun item p => poseOf item.1 = some p.toPose) items new := by
  induction items generalizing s with
  | nil => exact ⟨h, [], (List.append_nil _).symm, .nil⟩
  | cons item items ih =>
    obtain ⟨clean, new, made, read⟩ := ih h
    obtain ⟨clean, p, pose, added⟩ := parse_ok clean
    refine ⟨clean, p :: new, ?_, .cons pose read⟩
    rw [List.foldl_cons, made, added, List.append_assoc]
    rfl

theorem parseAll_ok (h : (parseAll n observations).reasons = []) :
    List.Forall₂ (fun x p => poseOf x = some p.toPose) observations (parseAll n observations).parsed := by
  obtain ⟨-, new, made, read⟩ := parse_run _ h
  rw [parseAll, made, List.nil_append]
  have first := List.forall₂_map_left_iff (f := Prod.fst) (R := fun (x : Supplied n) (p : Parsed n) => poseOf x = some p.toPose)
    (l := observations.zipIdx) (u := new)
  rw [List.zipIdx_map_fst] at first
  exact first.mpr read

theorem leaders_poses (h : (parseAll n observations).reasons = []) :
    List.Forall₂ (fun x pose => poseOf x = some pose) (leaders observations) (representatives n (parseAll n observations).parsed) := by
  have poses : List.Forall₂ (fun x pose => poseOf x = some pose) observations ((parseAll n observations).parsed.map Parsed.toPose) :=
    List.forall₂_map_right_iff.mpr (parseAll_ok h)
  have inj : Function.Injective fun k : Role × String => (some k.1, some k.2) := fun a b same => by
    simp only [Prod.mk.injEq, Option.some.injEq] at same
    exact Prod.ext same.1 same.2
  have kept := List.rel_filter (R := fun x pose => poseOf x = some pose) (p := isTrain) (q := fun pose : Pose n => decide (pose.role = .train))
    (fun x pose one => by
      show isTrain x = true ↔ decide (pose.role = .train) = true
      rw [isTrain, keyOf_pose one]
      simp) poses
  rw [representatives, firsts_filter (p := fun pose : Pose n => decide (pose.role = .train)) (q := fun k => decide (k.1 = Role.train))
    (fun _ => rfl) (fun _ _ => Iff.rfl)]
  exact firsts_forall₂ inj (fun _ _ one => keyOf_pose one) kept []

theorem solvePlanes_transform {t : Transform n} (h : (solvePlanes n observations).transform = some t) :
    (parseAll n observations).reasons = [] ∧ t = fit n (representatives n (parseAll n observations).parsed) := by
  unfold solvePlanes rejected at h
  split at h
  · cases h
  dsimp only at h
  split at h
  · cases h
  next clean =>
  split at h
  · cases h
  exact ⟨(List.append_eq_nil_iff.mp (not_not.mp clean)).1, (Option.some.inj h).symm⟩

theorem solvePlanes_leaders {a b : List (Supplied n)} (same : leaders a = leaders b) {t u : Transform n}
    (first : (solvePlanes n a).transform = some t) (second : (solvePlanes n b).transform = some u) : t = u := by
  obtain ⟨clean, rfl⟩ := solvePlanes_transform first
  obtain ⟨clean', rfl⟩ := solvePlanes_transform second
  have poses := leaders_poses clean
  rw [same] at poses
  have unique : Relator.RightUnique fun (x : Supplied n) (pose : Pose n) => poseOf x = some pose := fun x p q one two =>
    Option.some.inj (one.symm.trans two)
  rw [List.right_unique_forall₂' unique poses (leaders_poses clean')]

inductive Again : List (Option Role × Option String) → List (Supplied n) → List (Supplied n) → Prop
  | nil {seen : List (Option Role × Option String)} : Again seen [] []
  | keep {seen : List (Option Role × Option String)} {x : Supplied n} {a b : List (Supplied n)} (rest : Again (keyOf x :: seen) a b) :
    Again seen (x :: a) (x :: b)
  | more {seen : List (Option Role × Option String)} {x : Supplied n} {a b : List (Supplied n)} (known : keyOf x ∈ seen)
      (rest : Again seen a b) : Again seen a (x :: b)

theorem trains_cons (x : Supplied n) (a : List (Supplied n)) :
    trains (x :: a) = if (keyOf x).1 = some .train then x :: trains a else trains a := by
  simp [trains, isTrain, List.filter_cons]

theorem Again.firsts {seen known : List (Option Role × Option String)} {a b : List (Supplied n)} (h : Again seen a b)
    (all : ∀ k ∈ seen, k.1 = some .train → k ∈ known) : firsts keyOf known (trains a) = firsts keyOf known (trains b) := by
  induction h generalizing known with
  | nil => rfl
  | @keep seen x a b _ ih =>
    by_cases train : (keyOf x).1 = some .train
    · rw [trains_cons, trains_cons, if_pos train, if_pos train, PlaneSolve.firsts, PlaneSolve.firsts]
      by_cases there : keyOf x ∈ known
      · rw [if_pos there, if_pos there]
        refine ih fun k inside wanted => ?_
        rcases List.mem_cons.mp inside with rfl | before
        · exact there
        · exact all k before wanted
      · rw [if_neg there, if_neg there]
        refine congrArg (x :: ·) (ih fun k inside wanted => ?_)
        rcases List.mem_cons.mp inside with rfl | before
        · exact List.mem_cons_self
        · exact List.mem_cons_of_mem _ (all k before wanted)
    · rw [trains_cons, trains_cons, if_neg train, if_neg train]
      refine ih fun k inside wanted => ?_
      rcases List.mem_cons.mp inside with rfl | before
      · exact absurd wanted train
      · exact all k before wanted
  | @more seen x a b here _ ih =>
    by_cases train : (keyOf x).1 = some .train
    · rw [ih all, trains_cons, if_pos train, PlaneSolve.firsts, if_pos (all _ here train)]
    · rw [ih all, trains_cons, if_neg train]

def Alike (a b : List (Supplied n)) : Prop := trains a = trains b ∨ Again [] a b

theorem Alike.leaders {a b : List (Supplied n)} (h : Alike a b) : leaders a = leaders b := by
  rcases h with same | more
  · exact congrArg (firsts keyOf []) same
  · exact more.firsts fun k inside => by cases inside

theorem solvePlanes_candidate (h : (solvePlanes n observations).candidate = true) :
    List.Forall₂ (fun x m => (poseOf x).isSome ∧ m.passed = true) observations (solvePlanes n observations).metrics := by
  unfold solvePlanes rejected at h ⊢
  split at h
  · cases h
  next some_ =>
  rw [if_neg some_]
  dsimp only at h ⊢
  split at h
  · cases h
  next clean =>
  rw [if_neg clean]
  split at h
  · cases h
  next good =>
  rw [if_neg good]
  have passed := (List.append_eq_nil_iff.mp (of_decide_eq_true h)).2
  rw [List.map_eq_nil_iff, List.filter_eq_nil_iff] at passed
  refine List.forall₂_map_right_iff.mpr ?_
  have read := parseAll_ok (List.append_eq_nil_iff.mp (not_not.mp clean)).1
  refine List.forall₂_iff_zip.mpr ⟨read.length_eq, fun {x p} here => ?_⟩
  have one := (List.forall₂_iff_zip.mp read).2 here
  refine ⟨by rw [one]; rfl, ?_⟩
  have fine := passed _ (List.mem_map_of_mem (List.of_mem_zip here).2)
  simpa using fine

end Smartwheel.PlaneSolve
