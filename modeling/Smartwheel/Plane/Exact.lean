import Mathlib.Analysis.SpecialFunctions.Trigonometric.Inverse
import Smartwheel.Arithmetic.Polar
import Smartwheel.Plane.Solve

/-! `solve_planes` in exact arithmetic: the planes that a rigid transform relates give it back. -/
namespace Smartwheel.PlaneSolve
open Effect Matrix Polar

structure Lapack where
  svd : Matrix (Fin 3) (Fin 3) ℝ → Matrix (Fin 3) (Fin 3) ℝ × Matrix (Fin 3) (Fin 3) ℝ
  singular : List (Fin 3 → ℝ) → List ℝ
  lstsq : List (Fin 3 → ℝ) → List ℝ → Fin 3 → ℝ

/-- Real numbers, without rounding. -/
noncomputable abbrev reals (l : Lapack) : Numpy where
  Scalar := ℝ
  Vector := Fin 3 → ℝ
  Matrix := Matrix (Fin 3) (Fin 3) ℝ
  lit q := q
  less a b := decide (a < b)
  leq a b := decide (a ≤ b)
  finite _ := true
  finiteVector _ := true
  add a b := a + b
  sub a b := a - b
  div a b := a / b
  neg a := -a
  abs a := |a|
  clip a := max (-1) (min a 1)
  acos := Real.arccos
  degrees a := a * (180 / Real.pi)
  norm v := √(v ⬝ᵥ v)
  dot v w := v ⬝ᵥ w
  quotient v a := a⁻¹ • v
  negVector v := -v
  apply m v := m *ᵥ v
  mul m k := m * k
  transpose m := mᵀ
  det m := m.det
  corrected a := diagonal ![1, 1, a]
  gram := Polar.gram
  svd := l.svd
  singular := l.singular
  lstsq := l.lstsq

variable {l : Lapack} {r : Matrix (Fin 3) (Fin 3) ℝ} {t : Fin 3 → ℝ}

structure Faces (fit : Fit (reals l)) : Prop where
  unit : fit.normal ⬝ᵥ fit.normal = 1
  on : fit.normal ⬝ᵥ fit.centroid + fit.d = 0
  toward : fit.normal ⬝ᵥ fit.centroid ≤ -(1 / 10 ^ 9)

def Fit.supplied (fit : Fit (reals l)) : Plane (reals l) := .plane "PASS" fit.normal fit.d fit.centroid

structure Seen (r : Matrix (Fin 3) (Fin 3) ℝ) (t : Fin 3 → ℝ) (x : Supplied (reals l)) (p : Pose (reals l)) : Prop where
  supplied : ∃ id role, Role.ofText role = some p.role ∧ x = some ⟨id, some p.captureId, role, true, p.left.supplied, p.right.supplied⟩
  named : blank p.captureId = false
  left : Faces p.left
  right : Faces p.right
  normal : p.left.normal = r *ᵥ p.right.normal
  d : p.right.d = p.left.d + p.left.normal ⬝ᵥ t

def idOf (item : Supplied (reals l) × ℕ) : String := (item.1.bind (·.id)).getD (toString item.2)

noncomputable def trainOf (poses : List (Pose (reals l))) : List (Pose (reals l)) := (firsts Pose.key [] poses).filter (·.role = .train)

structure Accurate (l : Lapack) (train : List (Pose (reals l))) : Prop where
  svd : Factors (gram (train.map (·.right.normal)) (train.map (·.left.normal)))
    (l.svd (gram (train.map (·.right.normal)) (train.map (·.left.normal)))).1
    (l.svd (gram (train.map (·.right.normal)) (train.map (·.left.normal)))).2
  left : Singular (train.map (·.left.normal)) (l.singular (train.map (·.left.normal)))
  right : Singular (train.map (·.right.normal)) (l.singular (train.map (·.right.normal)))
  lstsq : Least (train.map (·.left.normal)) (train.map fun p => p.right.d - p.left.d)
    (l.lstsq (train.map (·.left.normal)) (train.map fun p => p.right.d - p.left.d))

structure Related (r : Matrix (Fin 3) (Fin 3) ℝ) (t : Fin 3 → ℝ) (observations : List (Supplied (reals l)))
    (poses : List (Pose (reals l))) : Prop where
  orthogonal : r * rᵀ = 1
  proper : r.det = 1
  seen : List.Forall₂ (Seen r t) observations poses
  ids : (observations.zipIdx.map idOf).Nodup
  roles : ∀ p ∈ poses, ∀ q ∈ poses, p.captureId = q.captureId → p.role = q.role
  captures : 3 ≤ (trainOf poses).length
  conditioned : Conditioned 20 ((trainOf poses).map (·.left.normal))
  accurate : Accurate l (trainOf poses)

def Steady (poses : List (Pose (reals l))) : Prop :=
  ∀ p ∈ firsts Pose.key [] poses, ∀ q ∈ (poses.filter (·.key = p.key)).tail, apart _ p.left q.left = false ∧ apart _ p.right q.right = false

inductive Rescaled : Plane (reals l) → Plane (reals l) → Prop
  | unreadable (error : String) : Rescaled (.unreadable error) (.unreadable error)
  | plane (status : String) (normal centroid : Fin 3 → ℝ) (d k : ℝ) (nonzero : k ≠ 0)
      (long : √(normal ⬝ᵥ normal) ≤ 1 / 10 ^ 12 ↔ √((k • normal) ⬝ᵥ (k • normal)) ≤ 1 / 10 ^ 12) :
      Rescaled (.plane status normal d centroid) (.plane status (k • normal) (k * d) centroid)

inductive SameBut : Supplied (reals l) → Supplied (reals l) → Prop
  | none : SameBut none none
  | some (id captureId : Option String) (role : String) (confirmed : Bool) {left left' right right' : Plane (reals l)}
      (first : Rescaled left left') (second : Rescaled right right') :
      SameBut (some ⟨id, captureId, role, confirmed, left, right⟩) (some ⟨id, captureId, role, confirmed, left', right'⟩)

/-! ### Reading -/

/-- The end of `_read_fit`, for a normal of length one. -/
noncomputable def oriented (normal : Fin 3 → ℝ) (d : ℝ) (centroid : Fin 3 → ℝ) : Except String (Fit (reals l)) :=
  if 1 / 10 ^ 5 < |normal ⬝ᵥ centroid + d| then .error "PLANE_CENTROID_EQUATION_INCONSISTENT"
  else if |normal ⬝ᵥ centroid| < 1 / 10 ^ 9 then .error "PLANE_ORIENTATION_UNDEFINED_AT_SENSOR"
  else .ok (if 0 < normal ⬝ᵥ centroid then ⟨-normal, -d, centroid⟩ else ⟨normal, d, centroid⟩)

theorem readFit_reals (status : String) (normal : Fin 3 → ℝ) (d : ℝ) (centroid : Fin 3 → ℝ) :
    readFit (reals l) (.plane status normal d centroid) =
      if status = "PASS" then
        if √(normal ⬝ᵥ normal) ≤ 1 / 10 ^ 12 then .error "ZERO_PLANE_NORMAL"
        else oriented ((√(normal ⬝ᵥ normal))⁻¹ • normal) (d / √(normal ⬝ᵥ normal)) centroid
      else .error "PLANE_FIT_NOT_PASS" := by
  have tiny : ((1 / 10 ^ 12 : ℚ) : ℝ) = 1 / 10 ^ 12 := by norm_num
  have near : ((1 / 10 ^ 5 : ℚ) : ℝ) = 1 / 10 ^ 5 := by norm_num
  have far : ((1 / 10 ^ 9 : ℚ) : ℝ) = 1 / 10 ^ 9 := by norm_num
  have zero : ((0 : ℚ) : ℝ) = 0 := by norm_num
  unfold readFit oriented
  by_cases pass : status = "PASS"
  · rw [if_pos pass]
    dsimp only
    simp only [require, refuse, tiny, near, far, zero, pass, decide_eq_true_eq, if_true, and_self]
    split_ifs <;> rfl
  · rw [if_neg pass]
    exact congrArg (· >>= _) (if_neg pass)

theorem oriented_neg (normal : Fin 3 → ℝ) (d : ℝ) (centroid : Fin 3 → ℝ) :
    oriented (l := l) (-normal) (-d) centroid = oriented normal d centroid := by
  have sign : -normal ⬝ᵥ centroid + -d = -(normal ⬝ᵥ centroid + d) := by
    rw [neg_dotProduct]
    ring
  unfold oriented
  rw [sign, abs_neg, neg_dotProduct, abs_neg]
  split_ifs with off close below above above
  · rfl
  · rfl
  · linarith
  · rw [neg_neg, neg_neg]
  · rfl
  · have zero : normal ⬝ᵥ centroid = 0 := by linarith
    rw [zero, abs_zero] at close
    norm_num at close

theorem oriented_faces {fit : Fit (reals l)} (h : Faces fit) : oriented fit.normal fit.d fit.centroid = .ok fit := by
  have away : ¬0 < fit.normal ⬝ᵥ fit.centroid := not_lt.mpr (h.toward.trans (by norm_num))
  have far : ¬|fit.normal ⬝ᵥ fit.centroid| < 1 / 10 ^ 9 := by
    rw [not_lt, abs_of_nonpos (not_lt.mp away)]
    linarith [h.toward]
  have near : ¬(1 / 10 ^ 5 : ℝ) < |fit.normal ⬝ᵥ fit.centroid + fit.d| := by
    rw [h.on]
    norm_num
  rw [oriented, if_neg near, if_neg far, if_neg away]

theorem readFit_faces {fit : Fit (reals l)} (h : Faces fit) : readFit (reals l) fit.supplied = .ok fit := by
  have length : ¬(1 : ℝ) ≤ 1 / 10 ^ 12 := by norm_num
  rw [Fit.supplied, readFit_reals, if_pos rfl, h.unit, Real.sqrt_one, if_neg length, inv_one, one_smul, div_one, oriented_faces h]

theorem Rescaled.read {p q : Plane (reals l)} (h : Rescaled p q) : readFit (reals l) p = readFit (reals l) q := by
  cases h with
  | unreadable error => rfl
  | plane status normal centroid d k nonzero long =>
    have length : √((k • normal) ⬝ᵥ (k • normal)) = |k| * √(normal ⬝ᵥ normal) := by
      rw [smul_dotProduct, dotProduct_smul, smul_smul, ← sq, smul_eq_mul, Real.sqrt_mul (sq_nonneg k), Real.sqrt_sq_eq_abs]
    rw [readFit_reals, readFit_reals]
    by_cases short : √(normal ⬝ᵥ normal) ≤ 1 / 10 ^ 12
    · rw [if_pos short, if_pos (long.mp short)]
    · rw [if_neg short, if_neg fun also => short (long.mpr also), length]
      have apart : 0 < √(normal ⬝ᵥ normal) := (by positivity : (0 : ℝ) < 1 / 10 ^ 12).trans (not_le.mp short)
      rcases lt_or_gt_of_ne nonzero with below | above
      · have turned : (|k| * √(normal ⬝ᵥ normal))⁻¹ • k • normal = -((√(normal ⬝ᵥ normal))⁻¹ • normal) := by
          rw [smul_smul, ← neg_smul, abs_of_neg below]
          congr 1
          field_simp
        have moved : k * d / (|k| * √(normal ⬝ᵥ normal)) = -(d / √(normal ⬝ᵥ normal)) := by
          rw [abs_of_neg below]
          field_simp
        rw [turned, moved, oriented_neg]
      · have kept : (|k| * √(normal ⬝ᵥ normal))⁻¹ • k • normal = (√(normal ⬝ᵥ normal))⁻¹ • normal := by
          rw [smul_smul, abs_of_pos above]
          congr 1
          field_simp
        rw [kept, abs_of_pos above, mul_div_mul_left _ _ nonzero]

theorem SameBut.solve {a b : List (Supplied (reals l))} (h : List.Forall₂ SameBut a b) : solvePlanes (reals l) a = solvePlanes (reals l) b := by
  have one (s : Parsing (reals l)) (index : ℕ) {x y : Supplied (reals l)} (same : SameBut x y) :
      parse (reals l) s index x = parse (reals l) s index y := by
    cases same with
    | none => rfl
    | some id captureId role confirmed first second => simp only [parse, readPlanes, first.read, second.read]
  have all (s : Parsing (reals l)) (first : ℕ) : (a.zipIdx first).foldl (fun s item => parse (reals l) s item.2 item.1) s =
      (b.zipIdx first).foldl (fun s item => parse (reals l) s item.2 item.1) s := by
    induction h generalizing s first with
    | nil => rfl
    | cons same _ ih => rw [List.zipIdx_cons, List.zipIdx_cons, List.foldl_cons, List.foldl_cons, one s first same, ih]
  have parsed : parseAll (reals l) a = parseAll (reals l) b := all _ 0
  cases h with
  | nil => rfl
  | cons _ _ =>
    unfold solvePlanes
    rw [if_neg (List.cons_ne_nil _ _), if_neg (List.cons_ne_nil _ _), parsed]

/-! ### Parsing -/

theorem firsts_map {α β κ : Type} [DecidableEq κ] (key : β → κ) (f : α → β) (seen : List κ) (l : List α) :
    firsts key seen (l.map f) = (firsts (fun a => key (f a)) seen l).map f := by
  induction l generalizing seen with
  | nil => rfl
  | cons a rest ih =>
    rw [List.map_cons, firsts, firsts]
    by_cases there : key (f a) ∈ seen
    · rw [if_pos there, if_pos there, ih]
    · rw [if_neg there, if_neg there, List.map_cons, ih]

theorem parse_seen {s : Parsing (reals l)} {index : ℕ} {x : Supplied (reals l)} {p : Pose (reals l)} (h : Seen r t x p)
    (fresh : idOf (x, index) ∉ s.seen) : parse (reals l) s index x =
      ⟨s.parsed ++ [⟨p, idOf (x, index)⟩], s.roles ++ [(p.captureId, p.role)], idOf (x, index) :: s.seen, s.reasons⟩ := by
  obtain ⟨id, role, named, rfl⟩ := h.supplied
  have captured : (some p.captureId).filter (!blank ·) = some p.captureId := by simp [h.named]
  have read : readPlanes (reals l) ⟨id, some p.captureId, role, true, p.left.supplied, p.right.supplied⟩ = .ok (p.left, p.right) := by
    simp only [readPlanes, readFit_faces h.left, readFit_faces h.right]
    rfl
  have new : id.getD (toString index) ∉ s.seen := fresh
  unfold parse
  simp only [captured, named, read, if_neg new, idOf, Option.bind_some, not_true_eq_false, if_false, List.append_nil]

theorem parse_all_seen {observations : List (Supplied (reals l))} {poses : List (Pose (reals l))}
    (h : List.Forall₂ (Seen r t) observations poses) (s : Parsing (reals l)) (index : ℕ)
    (fresh : ((observations.zipIdx index).map idOf ++ s.seen).Nodup) :
    let after := (observations.zipIdx index).foldl (fun s item => parse (reals l) s item.2 item.1) s
    after.reasons = s.reasons ∧ after.roles = s.roles ++ poses.map (fun p => (p.captureId, p.role)) ∧
      after.parsed.map Parsed.toPose = s.parsed.map Parsed.toPose ++ poses := by
  induction h generalizing s index with
  | nil => simp
  | @cons x p observations poses one _ ih =>
    rw [List.zipIdx_cons, List.map_cons, List.cons_append, List.nodup_cons] at fresh
    have new : idOf (x, index) ∉ s.seen := fun there => fresh.1 (List.mem_append_right _ there)
    rw [List.zipIdx_cons, List.foldl_cons, parse_seen one new]
    have rest := ih ⟨s.parsed ++ [⟨p, idOf (x, index)⟩], s.roles ++ [(p.captureId, p.role)], idOf (x, index) :: s.seen, s.reasons⟩ (index + 1)
      (List.nodup_middle.mpr (List.nodup_cons.mpr fresh))
    simpa using rest

theorem inconsistent_nil {parsed : List (Parsed (reals l))} :
    inconsistent (reals l) parsed = [] ↔ Steady (parsed.map Parsed.toPose) := by
  simp only [inconsistent, Steady, List.flatMap_eq_nil_iff, firsts_map, List.filter_map, ← List.map_tail, List.forall_mem_map]
  refine forall₂_congr fun reference _ => forall₂_congr fun other _ => ?_
  simp

theorem leaked_nil {poses : List (Pose (reals l))} (h : ∀ p ∈ poses, ∀ q ∈ poses, p.captureId = q.captureId → p.role = q.role) :
    leaked (poses.map fun p => (p.captureId, p.role)) = [] := by
  refine List.filter_eq_nil_iff.mpr fun captureId _ both => ?_
  have roles := of_decide_eq_true both
  obtain ⟨p, there, first⟩ := List.mem_map.mp roles.1
  obtain ⟨q, also, second⟩ := List.mem_map.mp roles.2
  simp only [Prod.mk.injEq] at first second
  have same := h p there q also (first.1.trans second.1.symm)
  rw [first.2, second.2] at same
  cases same

/-! ### The fit -/

theorem observability_conditioned {rows : List (Fin 3 → ℝ)} (values : Singular rows (l.singular rows)) (conditioned : Conditioned 20 rows)
    {row : Fin 3 → ℝ} (member : row ∈ rows) (unit : row ⬝ᵥ row = 1) :
    ∃ condition : ℝ, observability (reals l) rows = ⟨3, some condition⟩ ∧ condition ≤ 20 := by
  obtain ⟨first, second, last, factors, low, high, long, bound⟩ := values.within conditioned (by norm_num) member unit
  have positive : (1 / 20 : ℝ) ≤ last := by linarith
  have tiny : ((1 / 10 ^ 8 : ℚ) : ℝ) < last := lt_of_lt_of_le (by norm_num) positive
  have count : [first, second, last].countP ((reals l).less ((reals l).lit (1 / 10 ^ 8))) = 3 :=
    List.countP_eq_length.mpr fun x there => decide_eq_true (by
      simp only [List.mem_cons, List.not_mem_nil, or_false] at there
      rcases there with rfl | rfl | rfl
      · exact tiny.trans_le (low.trans high)
      · exact tiny.trans_le low
      · exact tiny)
  have some_ : rows ≠ [] := List.ne_nil_of_mem member
  refine ⟨first / last, ?_, (div_le_iff₀ (by linarith)).mpr bound⟩
  simp only [observability, if_neg some_, factors, count]
  rfl

variable {observations : List (Supplied (reals l))} {poses : List (Pose (reals l))}

theorem Related.each (h : Related r t observations poses) {p : Pose (reals l)} (there : p ∈ poses) : ∃ x, Seen r t x p :=
  left_of_forall₂ (R := flip (Seen r t)) (p := fun p => ∃ x, Seen r t x p) (fun _ x one => ⟨x, one⟩) h.seen.flip p there

theorem Related.train (h : Related r t observations poses) {p : Pose (reals l)} (there : p ∈ trainOf poses) : ∃ x, Seen r t x p :=
  h.each (mem_of_mem_firsts (List.mem_filter.mp there).1)

theorem Related.right (h : Related r t observations poses) :
    (trainOf poses).map (·.left.normal) = ((trainOf poses).map (·.right.normal)).map (r *ᵥ ·) := by
  rw [List.map_map]
  refine List.map_congr_left fun p there => ?_
  obtain ⟨_, seen⟩ := h.train there
  exact seen.normal

theorem Related.rightConditioned (h : Related r t observations poses) : Conditioned 20 ((trainOf poses).map (·.right.normal)) :=
  (h.right ▸ h.conditioned).turned h.orthogonal

theorem Related.fit (h : Related r t observations poses) : fit (reals l) (trainOf poses) = ⟨r, t⟩ := by
  have product : gram ((trainOf poses).map (·.right.normal)) ((trainOf poses).map (·.left.normal)) =
      gram ((trainOf poses).map (·.right.normal)) ((trainOf poses).map (·.right.normal)) * rᵀ := by
    rw [h.right, gram_turned]
  have back := h.accurate.svd.turn product h.rightConditioned.definite h.orthogonal
  have offsets : (trainOf poses).map (fun p => p.right.d - p.left.d) = ((trainOf poses).map (·.left.normal)).map (· ⬝ᵥ t) := by
    rw [List.map_map]
    refine List.map_congr_left fun p there => ?_
    obtain ⟨_, seen⟩ := h.train there
    simp [seen.d]
  have least := h.accurate.lstsq
  rw [offsets] at least
  have moved := least.exact h.conditioned
  have sign := lt_of_lt_of_eq (by norm_num : ((0 : ℚ) : ℝ) < 1) ((congrArg det back).trans h.proper).symm
  have whole : diagonal ![(1 : ℝ), 1, ((1 : ℚ) : ℝ)] = 1 := by
    rw [Rat.cast_one, ← diagonal_one]
    congr 1
    ext i
    fin_cases i <;> rfl
  unfold PlaneSolve.fit
  dsimp only
  rw [offsets, moved, if_pos (decide_eq_true sign), whole, Matrix.mul_one, back]

theorem Related.gates (h : Related r t observations poses) : gates (reals l) (trainOf poses) = [] := by
  obtain ⟨p, there⟩ := List.exists_mem_of_length_pos (Nat.lt_of_lt_of_le (by decide : 0 < 3) h.captures)
  obtain ⟨_, seen⟩ := h.train there
  obtain ⟨left, ranked, small⟩ := observability_conditioned h.accurate.left h.conditioned (List.mem_map_of_mem there) seen.left.unit
  obtain ⟨right, ranked', small'⟩ := observability_conditioned h.accurate.right h.rightConditioned (List.mem_map_of_mem there) seen.right.unit
  have worst : (if left < right then right else left) ≤ 20 := by split_ifs <;> assumption
  unfold PlaneSolve.gates
  dsimp only
  rw [ranked, ranked', if_neg (Nat.not_lt.mpr h.captures)]
  simp [worst]

theorem Seen.metric {x : Supplied (reals l)} {p : Pose (reals l)} (h : Seen r t x p) (id : String) :
    metric (reals l) ⟨r, t⟩ id p = ⟨id, p.captureId, p.role, (0 : ℝ), (0 : ℝ), true⟩ := by
  have straight : angle (reals l) p.left.normal (r *ᵥ p.right.normal) = (0 : ℝ) := by
    rw [← h.normal]
    simp [angle, h.left.unit]
  have level : p.left.normal ⬝ᵥ t + p.left.d - p.right.d = 0 := by
    rw [h.d]
    ring
  unfold PlaneSolve.metric
  dsimp only
  rw [straight, level]
  simp

theorem Related.solve (h : Related r t observations poses) (steady : Steady poses) :
    (solvePlanes (reals l) observations).candidate = true ∧ (solvePlanes (reals l) observations).transform = some ⟨r, t⟩ ∧
    List.Forall₂ (fun p m => m.captureId = p.captureId ∧ m.role = p.role ∧ m.normalAngleDeg = (0 : ℝ) ∧ m.offsetM = (0 : ℝ) ∧ m.passed = true)
      poses (solvePlanes (reals l) observations).metrics := by
  obtain ⟨clean, roles, parsed⟩ := parse_all_seen h.seen ⟨[], [], [], []⟩ 0 (by simpa using h.ids)
  rw [List.nil_append] at roles
  rw [List.map_nil, List.nil_append] at parsed
  have some_ : observations ≠ [] := fun none => by
    have empty := List.forall₂_nil_left_iff.mp (none ▸ h.seen)
    simpa [empty, trainOf, firsts] using h.captures
  have read : (parseAll (reals l) observations).reasons ++ (leaked (parseAll (reals l) observations).roles).map (· ++ ":CAPTURE_ROLE_LEAKAGE") = [] := by
    rw [parseAll, clean, roles, leaked_nil h.roles]
    rfl
  have train : representatives (reals l) (parseAll (reals l) observations).parsed = trainOf poses := by
    rw [representatives, parseAll, parsed, trainOf]
  have good : inconsistent (reals l) (parseAll (reals l) observations).parsed ++ PlaneSolve.gates (reals l) (trainOf poses) = [] := by
    rw [h.gates, List.append_nil, inconsistent_nil, parseAll, parsed]
    exact steady
  have measured (o : Parsed (reals l)) (there : o ∈ (parseAll (reals l) observations).parsed) :
      PlaneSolve.metric (reals l) ⟨r, t⟩ o.id o.toPose = ⟨o.id, o.captureId, o.role, (0 : ℝ), (0 : ℝ), true⟩ := by
    have pose : o.toPose ∈ poses := parsed ▸ List.mem_map_of_mem there
    obtain ⟨_, seen⟩ := h.each pose
    exact seen.metric o.id
  unfold solvePlanes
  rw [if_neg some_]
  dsimp only
  rw [if_neg (not_not.mpr read), train, if_neg (not_not.mpr good), h.fit, List.map_congr_left measured]
  have fine : ((parseAll (reals l) observations).parsed.map fun o => (⟨o.id, o.captureId, o.role, (0 : ℝ), (0 : ℝ), true⟩ : Metric (reals l))).filter
      (fun m => !m.passed) = [] := by
    rw [List.filter_map]
    simp
  rw [fine]
  refine ⟨by simp [h.proper], rfl, ?_⟩
  rw [← parsed]
  exact List.forall₂_map_left_iff.mpr (List.forall₂_map_right_iff.mpr (List.forall₂_same.mpr fun o _ => ⟨rfl, rfl, rfl, rfl, rfl⟩))

theorem solvePlanes_consistent {n : Numpy} {observations : List (Supplied n)} (h : (solvePlanes n observations).candidate = true) :
    inconsistent n (parseAll n observations).parsed = [] := by
  unfold solvePlanes rejected at h
  split at h
  · cases h
  dsimp only at h
  split at h
  · cases h
  split at h
  · cases h
  next good => exact (List.append_eq_nil_iff.mp (not_not.mp good)).1

/-- In exact arithmetic the planes of a rigid transform give it back, without a residual, and their scales do not matter. -/
theorem exact_recovery :
    (∀ (l : Lapack) (r : Matrix (Fin 3) (Fin 3) ℝ) (t : Fin 3 → ℝ) (observations : List (Supplied (reals l))) (poses : List (Pose (reals l))),
      Related r t observations poses → Steady poses →
      (solvePlanes (reals l) observations).candidate = true ∧ (solvePlanes (reals l) observations).transform = some ⟨r, t⟩ ∧
      List.Forall₂ (fun p m => m.captureId = p.captureId ∧ m.role = p.role ∧ m.normalAngleDeg = (0 : ℝ) ∧ m.offsetM = (0 : ℝ) ∧ m.passed = true)
        poses (solvePlanes (reals l) observations).metrics) ∧
    ∀ (l : Lapack) (a b : List (Supplied (reals l))), List.Forall₂ SameBut a b → solvePlanes (reals l) a = solvePlanes (reals l) b :=
  ⟨fun _ _ _ _ _ related steady => related.solve steady, fun _ _ _ same => SameBut.solve same⟩

/-! ### A plane that is seen again elsewhere, and a plane that is too short -/

namespace Bench

noncomputable abbrev lapack : Lapack := ⟨fun _ => (1, 1), fun _ => [1, 1, 1], fun _ _ => 0⟩

noncomputable def plane (i : Fin 3) (d : ℝ) : Fit (reals lapack) := ⟨Pi.single i 1, d, Pi.single i (-d)⟩

noncomputable def pose (captureId : String) (i : Fin 3) (d : ℝ) : Pose (reals lapack) := ⟨captureId, .train, plane i d, plane i d⟩

noncomputable def shown (id : String) (p : Pose (reals lapack)) : Supplied (reals lapack) :=
  some ⟨some id, some p.captureId, "train", true, p.left.supplied, p.right.supplied⟩

noncomputable def three : List (Pose (reals lapack)) := [pose "a" 0 1, pose "b" 1 1, pose "c" 2 1]

noncomputable def supplied : List (Supplied (reals lapack)) := [shown "0" (pose "a" 0 1), shown "1" (pose "b" 1 1), shown "2" (pose "c" 2 1)]

noncomputable def shortPlane : Plane (reals lapack) :=
  .plane "PASS" ((1 / 10 ^ 12 : ℝ) • (plane 0 1).normal) (1 / 10 ^ 12 * (plane 0 1).d) (plane 0 1).centroid

noncomputable def short : List (Supplied (reals lapack)) :=
  some ⟨some "0", some "a", "train", true, shortPlane, (plane 0 1).supplied⟩ :: supplied.tail

theorem faces (i : Fin 3) {d : ℝ} (far : 1 ≤ d) : Faces (plane i d) where
  unit := by simp [plane]
  on := by simp [plane]
  toward := by
    simp only [plane, single_dotProduct, Pi.single_eq_same]
    linarith [(by norm_num : (1 / 10 ^ 9 : ℝ) ≤ 1)]

theorem seen (id captureId : String) (i : Fin 3) {d : ℝ} (far : 1 ≤ d) (named : blank captureId = false) :
    Seen 1 0 (shown id (pose captureId i d)) (pose captureId i d) where
  supplied := ⟨some id, "train", rfl, rfl⟩
  named := named
  left := faces i far
  right := faces i far
  normal := (one_mulVec _).symm
  d := by simp [pose]

theorem gram_axes : gram (three.map (·.left.normal)) (three.map (·.left.normal)) = 1 := by
  ext i j
  fin_cases i <;> fin_cases j <;> simp [Polar.gram, three, pose, plane, vecMulVec]

theorem related {observations : List (Supplied (reals lapack))} {poses : List (Pose (reals lapack))} (train : trainOf poses = three)
    (seen : List.Forall₂ (Seen 1 0) observations poses) (ids : (observations.zipIdx.map idOf).Nodup) (roles : ∀ p ∈ poses, p.role = .train) :
    Related 1 0 observations poses where
  orthogonal := by simp
  proper := det_one
  seen := seen
  ids := ids
  roles p there q also _ := (roles p there).trans (roles q also).symm
  captures := by
    rw [train]
    exact le_refl 3
  conditioned := by
    rw [train]
    refine ⟨1, one_pos, fun x => ?_⟩
    have size : spread (three.map (·.left.normal)) x = x ⬝ᵥ x := by rw [← gram_spread, gram_axes, one_mulVec]
    have positive : 0 ≤ x ⬝ᵥ x := by simpa using dotProduct_star_self_nonneg x
    rw [size]
    constructor <;> linarith
  accurate := by
    rw [train]
    have singular : Singular (three.map (·.left.normal)) [1, 1, 1] :=
      ⟨1, 1, by simp, zero_le_one, antitone_const, by simp [gram_axes], rfl⟩
    refine ⟨⟨by simp, by simp, 1, zero_le_one, gram_axes.trans (by simp)⟩, singular, singular, fun y => ?_⟩
    simp [three, pose, plane]
    positivity

theorem three_related : Related 1 0 supplied three :=
  related (by simp [trainOf, firsts, three, pose, Pose.key])
    (.cons (seen _ _ _ le_rfl (by decide)) (.cons (seen _ _ _ le_rfl (by decide)) (.cons (seen _ _ _ le_rfl (by decide)) .nil)))
    (by simp [supplied, shown, idOf]) (by simp [three, pose])

theorem three_steady : Steady three := by
  simp [Steady, firsts, three, pose, Pose.key]

theorem again_related : Related 1 0 (supplied ++ [shown "3" (pose "a" 0 2)]) (three ++ [pose "a" 0 2]) :=
  related (by simp [trainOf, firsts, three, pose, Pose.key])
    (List.rel_append three_related.seen (.cons (seen _ _ _ one_le_two (by decide)) .nil))
    (by simp [supplied, shown, idOf]) (by simp [three, pose])

theorem again_unsteady : ¬Steady (three ++ [pose "a" 0 2]) := fun steady => by
  have near := (steady (pose "a" 0 1) (by simp [firsts, three, pose, Pose.key]) (pose "a" 0 2) (by simp [three, pose, Pose.key])).1
  simp [apart, pose, plane] at near
  norm_num at near

theorem short_refused : readFit (reals lapack) shortPlane = .error "ZERO_PLANE_NORMAL" := by
  have length : √(((1 / 10 ^ 12 : ℝ) • (plane 0 1).normal) ⬝ᵥ ((1 / 10 ^ 12 : ℝ) • (plane 0 1).normal)) = 1 / 10 ^ 12 := by
    rw [smul_dotProduct, dotProduct_smul, (faces 0 le_rfl).unit, smul_eq_mul, smul_eq_mul, mul_one, Real.sqrt_mul_self (by norm_num)]
  rw [shortPlane, readFit_reals, if_pos rfl, length, if_pos le_rfl]

theorem recovery_refused :
    (Related 1 0 (supplied ++ [shown "3" (pose "a" 0 2)]) (three ++ [pose "a" 0 2]) ∧
      (solvePlanes (reals lapack) (supplied ++ [shown "3" (pose "a" 0 2)])).candidate = false) ∧
    Related 1 0 supplied three ∧ (solvePlanes (reals lapack) supplied).candidate = true ∧ (solvePlanes (reals lapack) short).candidate = false := by
  refine ⟨⟨again_related, Bool.eq_false_iff.mpr fun candidate => ?_⟩, three_related, (three_related.solve three_steady).1,
    Bool.eq_false_iff.mpr fun candidate => ?_⟩
  · obtain ⟨-, -, parsed⟩ := parse_all_seen again_related.seen ⟨[], [], [], []⟩ 0 (by simpa using again_related.ids)
    have steady := inconsistent_nil.mp (solvePlanes_consistent candidate)
    rw [parseAll, parsed] at steady
    exact again_unsteady steady
  · obtain ⟨_, _, ⟨read, -⟩, -⟩ := List.forall₂_cons_left_iff.mp (solvePlanes_candidate candidate)
    have refused : readPlanes (reals lapack) ⟨some "0", some "a", "train", true, shortPlane, (plane 0 1).supplied⟩ = .error "ZERO_PLANE_NORMAL" := by
      simp only [readPlanes, short_refused]
      rfl
    simp [poseOf, refused, Except.toOption] at read

end Bench
end Smartwheel.PlaneSolve
