import Smartwheel.Maps.Builder

/-! No refusal of `build_map` has the text of the bound on the voxels, apart from those of the bound itself. -/
namespace Smartwheel.Maps
open Effect
open Calibration (Value)

theorem refuseIf_ok {c : Prop} [Decidable c] {text : String} {u : Unit} : refuseIf c text = .ok u ↔ ¬c := by
  unfold refuseIf
  split <;> simp_all

theorem passes {c : Prop} [Decidable c] {text : String} (h : ¬c) : refuseIf c text = .ok () := refuseIf_ok.mpr h

theorem refuseIf_error {c : Prop} [Decidable c] {text : String} {e : Failure} :
    refuseIf c text = .error e ↔ c ∧ e = .map text := by
  unfold refuseIf
  split <;> simp_all [eq_comm]

def Spares {α : Type} (x : Except Failure α) : Prop := x ≠ .error (.map voxelLimit)

section spares
variable {dumps : Dumps} {g : Checked} {s : Settings} {f : Frame} {label : String}

theorem Spares.bind {α β : Type} {x : Except Failure α} {h : α → Except Failure β} (first : Spares x)
    (next : ∀ a, x = .ok a → Spares (h a)) : Spares (x >>= h) := fun refused => by
  rcases bind_eq_error refused with refused | ⟨a, ok, refused⟩
  · exact first refused
  · exact next a ok refused

theorem spares_ok {α : Type} {a : α} : Spares (.ok a : Except Failure α) := nofun

theorem spares_other {α : Type} {text : String} : Spares (.error (.other text) : Except Failure α) := nofun

theorem spares_map {α : Type} {text : String} (other : text ≠ voxelLimit) : Spares (.error (.map text) : Except Failure α) :=
  fun refused => other (Failure.map.inj (Except.error.inj refused))

theorem spares_refuseIf {c : Prop} [Decidable c] {text : String} (other : text ≠ voxelLimit) : Spares (refuseIf c text) := by
  unfold refuseIf
  split
  · exact spares_map other
  · exact spares_ok

theorem spares_dumped (value : Value) : Spares (dumped dumps value) := by
  unfold dumped
  cases dumps value with
  | error text => exact spares_other
  | ok text => exact spares_ok

theorem spares_rawIdentity (value : Value) : Spares (rawIdentity dumps value) := by
  unfold rawIdentity
  split
  · split
    · exact spares_map (by decide)
    · exact spares_ok
  · split
    · exact spares_map (by decide)
    · exact spares_dumped _
  · exact spares_map (by decide)

theorem spares_identity (value : Value) (other : label ++ ": expected a nonempty string or integer" ≠ voxelLimit) :
    Spares (identity dumps value label) := by
  unfold identity
  split
  · split
    · exact spares_map other
    · exact spares_dumped _
  · exact spares_dumped _
  · exact spares_map other

theorem spares_nodeOf (key : String) : Spares (nodeOf g key) := by
  unfold nodeOf
  split
  · exact spares_ok
  · exact spares_map (by decide)

theorem spares_epoch (value : Value) (other : label ++ ": expected a nonnegative integer" ≠ voxelLimit) :
    Spares (epoch value label) := by
  unfold epoch
  split
  · split
    · exact spares_map other
    · exact spares_ok
  · unfold integer
    split
    · exact spares_ok
    · exact spares_map other

theorem spares_sensorOf : Spares (sensorOf s f) := by
  unfold sensorOf
  dsimp only
  split
  · exact spares_other
  · split
    · split
      · exact spares_map (by decide)
      · exact spares_ok
    · exact spares_map (by decide)

theorem spares_rigid (value : Option Fusion.Transform) : Spares (rigid value "T_node_sensor") := by
  unfold rigid
  split
  · exact spares_map (by decide)
  · exact (spares_refuseIf (by decide)).bind fun _ _ => (spares_refuseIf (by decide)).bind fun _ _ =>
      (spares_refuseIf (by decide)).bind fun _ _ => spares_ok

theorem spares_pointsOf : Spares (pointsOf f) := by
  unfold pointsOf
  split
  · exact spares_ok
  · exact spares_map (by decide)

theorem traverse_error {finish : Voxel} {step : Axis → ℤ} {delta : Axis → WithTop ℚ} {rounds : ℕ} {cell : Voxel}
    {t : Axis → WithTop ℚ} {cells : List Voxel} {text : String}
    (refused : traverse finish step delta rounds cell t cells = .error text) :
    text = "ray traversal did not reach its endpoint" := by
  induction rounds generalizing cell t cells with
  | zero => exact (Except.error.inj refused).symm
  | succ rounds ih =>
    unfold traverse at refused
    split at refused
    · cases refused
    · exact ih refused

theorem spares_rayCells (origin endpoint : Vec) :
    Spares ((rayCells origin endpoint s.resolution s.maxRayCells).mapError .map) := by
  cases traced : rayCells origin endpoint s.resolution s.maxRayCells with
  | ok ray => exact spares_ok
  | error text =>
    unfold rayCells at traced
    dsimp only at traced
    split at traced
    · obtain rfl := Except.error.inj traced
      exact spares_map (by decide)
    · obtain rfl := traverse_error traced
      exact spares_map (by decide)

theorem node_text (key rest : String) : "graph node " ++ key ++ rest ≠ voxelLimit := fun same => by
  have chars := congrArg (fun text => text.toList.head?) same
  simp [voxelLimit] at chars

theorem spares_complete (e : Evidence) (node : Node) : Spares (complete s e node) := by
  unfold complete
  refine spares_refuseIf ?_
  rw [String.append_assoc]
  exact node_text _ _

theorem spares_forM {α : Type} {h : α → Except Failure Unit} (each : ∀ a, Spares (h a)) (items : List α) :
    Spares (items.forM h) := by
  induction items with
  | nil => exact spares_ok
  | cons a rest ih => exact (each a).bind fun _ _ => ih

theorem spares_project (e : Evidence) : Spares (project s e) := by
  unfold project
  split
  · exact (spares_refuseIf (by decide)).bind fun _ _ => (spares_refuseIf (by decide)).bind fun _ _ => spares_ok
  · exact spares_other

theorem spares_finish (e : Evidence) : Spares (finish g s e) :=
  (spares_forM (fun node => spares_complete e node) g.nodes).bind fun _ _ => (spares_project e).bind fun _ _ => spares_ok

end spares

/-! ### What the frames show does not depend on their order, and the bound on the voxels is met by their union. -/

structure Row where
  rawKey : String
  key : String
  side : Side
  sensor : String
  origin : Vec
  transformed : List Vec

def inspect (dumps : Dumps) (g : Checked) (s : Settings) (f : Frame) : Except Failure Row := do
  let rawKey ← rawIdentity dumps f.rawKey
  let key ← identity dumps f.nodeId "observation node_id"
  let node ← nodeOf g key
  let odomEpoch ← epoch f.odomEpoch "observation odom_epoch"
  refuseIf (odomEpoch ≠ node.odomEpoch) "observation crosses an odometry epoch"
  refuseIf (f.sessionId.any (!·.isText g.sessionId) ∨ f.graphEpoch.any (!Epoch.equals · g.graphEpoch))
    "observation crosses session/graph epoch"
  let (side, sensor) ← sensorOf s f
  let mount ← rigid f.pose "T_node_sensor"
  let points ← pointsOf f
  let transformed := points.map (moved (node.pose * mount))
  let origin := translation (node.pose * mount)
  refuseIf ((origin :: transformed).any (remote s.resolution)) "point coordinates exceed supported voxel range"
  return ⟨rawKey, key, side, sensor, origin, transformed⟩

def rayOf (s : Settings) (origin endpoint : Vec) : Except Failure (List Voxel) := do
  refuseIf (squared (fun a => endpoint a - origin a) ≤ (1 / 10 ^ 10) ^ 2) "zero-range return cannot be treated as an obstacle"
  (rayCells origin endpoint s.resolution s.maxRayCells).mapError .map

def shown (s : Settings) (origin endpoint : Vec) : List Voxel :=
  voxel s.resolution endpoint :: (rayOf s origin endpoint).toOption.getD []

def grounded (s : Settings) (endpoint : Vec) : List (ℤ × ℤ) :=
  if |endpoint .z - s.ground| ≤ s.tolerance then [(voxel s.resolution endpoint .x, voxel s.resolution endpoint .y)] else []

section rows
variable (s : Settings) (rows : List Row)

def covered : Finset Voxel := (rows.flatMap fun r => r.transformed.flatMap (shown s r.origin)).toFinset

def endpoints : Finset Voxel := (rows.flatMap fun r => r.transformed.map (voxel s.resolution)).toFinset

def support : Finset (ℤ × ℤ) := (rows.flatMap fun r => r.transformed.flatMap (grounded s)).toFinset

def sidesAt (key : String) : Finset Side := ((rows.filter (·.key = key)).map (·.side)).toFinset

def pointCount : ℕ := (rows.map (·.transformed.length)).sum

structure Agree : Prop where
  raw : (rows.map (·.rawKey)).Nodup
  sensors : ∀ q ∈ rows, ∀ r ∈ rows, q.sensor = r.sensor ↔ q.side = r.side
  points : pointCount rows ≤ s.maxPoints

structure Holds (e : Evidence) : Prop where
  allCells : e.allCells = covered s rows
  occupied : e.occupied = endpoints s rows
  support : e.groundSupport = support s rows
  raw : ∀ key, key ∈ e.seenRaw ↔ key ∈ rows.map (·.rawKey)
  mapped : ∀ key, e.mapped key = sidesAt rows key
  sensors : ∀ sensor side, e.sensorSides sensor = some side ↔ ∃ r ∈ rows, r.sensor = sensor ∧ r.side = side
  sides : ∀ sensor side, e.sideSensors side = some sensor ↔ ∃ r ∈ rows, r.sensor = sensor ∧ r.side = side
  cloud : e.cloud.length = pointCount rows

end rows

section reserve
variable {maxVoxels : ℕ} {ray : List Voxel} {all all' : Finset Voxel}

theorem reserve_eq (within : all.card ≤ maxVoxels) : reserve maxVoxels ray all =
    if (all ∪ ray.toFinset).card ≤ maxVoxels then .ok (all ∪ ray.toFinset) else .error (.map voxelLimit) := by
  induction ray generalizing all with
  | nil =>
    rw [List.toFinset_nil, Finset.union_empty, if_pos within]
    rfl
  | cons cell rest ih =>
    have union : all ∪ (cell :: rest).toFinset = insert cell all ∪ rest.toFinset := by
      rw [List.toFinset_cons, Finset.union_insert, Finset.insert_union]
    unfold reserve
    rw [union]
    by_cases known : cell ∈ all
    · rw [if_pos known, ih within, Finset.insert_eq_of_mem known]
    · rw [if_neg known]
      have more := Finset.card_insert_of_notMem known
      by_cases full : maxVoxels ≤ all.card
      · have above : ¬(insert cell all ∪ rest.toFinset).card ≤ maxVoxels := by
          have grows : (insert cell all).card ≤ (insert cell all ∪ rest.toFinset).card :=
            Finset.card_le_card Finset.subset_union_left
          omega
        rw [if_pos full, if_neg above]
      · rw [if_neg full]
        exact ih (by omega)

theorem join_eq (within : all.card ≤ maxVoxels) : join maxVoxels ray all =
    if (all ∪ ray.toFinset).card ≤ maxVoxels then .ok (all ∪ ray.toFinset) else .error (.map voxelLimit) := by
  unfold join
  split
  · rename_i fast
    have bound := (Finset.card_union_le all ray.toFinset).trans (Nat.add_le_add_left ray.toFinset_card_le _)
    rw [if_pos (bound.trans fast)]
  · exact reserve_eq within

end reserve

def Evidence.record (s : Settings) (origin : Vec) (e : Evidence) (endpoint : Vec) : Evidence :=
  { e with
    allCells := e.allCells ∪ (shown s origin endpoint).toFinset
    occupied := insert (voxel s.resolution endpoint) e.occupied
    groundSupport := e.groundSupport ∪ (grounded s endpoint).toFinset }

section trace
variable {s : Settings} {origin endpoint : Vec} {e e' : Evidence} {err : Failure}

theorem rayOf_eq : rayOf s origin endpoint =
    if squared (fun a => endpoint a - origin a) ≤ (1 / 10 ^ 10) ^ 2 then
      .error (.map "zero-range return cannot be treated as an obstacle")
    else (rayCells origin endpoint s.resolution s.maxRayCells).mapError .map := by
  unfold rayOf refuseIf
  split <;> rfl

theorem union_shown {ray : List Voxel} (found : rayOf s origin endpoint = .ok ray) :
    insert (voxel s.resolution endpoint) e.allCells ∪ ray.toFinset = e.allCells ∪ (shown s origin endpoint).toFinset := by
  unfold shown
  rw [found, List.toFinset_cons, Finset.union_insert, Finset.insert_union]
  rfl

theorem insert_subset_shown :
    insert (voxel s.resolution endpoint) e.allCells ⊆ e.allCells ∪ (shown s origin endpoint).toFinset := by
  unfold shown
  rw [List.toFinset_cons, Finset.union_insert]
  exact Finset.insert_subset_insert _ Finset.subset_union_left

theorem insert_within {v : Voxel} (within : e.allCells.card ≤ s.maxVoxels)
    (room : ¬(s.maxVoxels ≤ e.allCells.card ∧ v ∉ e.allCells)) : (insert v e.allCells).card ≤ s.maxVoxels := by
  by_cases mem : v ∈ e.allCells
  · rwa [Finset.insert_eq_of_mem mem]
  · rw [Finset.card_insert_of_notMem mem]
    have free : ¬s.maxVoxels ≤ e.allCells.card := fun full => room ⟨full, mem⟩
    omega

theorem record_eq : e.record s origin endpoint =
    { e with
      allCells := e.allCells ∪ (shown s origin endpoint).toFinset
      occupied := insert (voxel s.resolution endpoint) e.occupied
      groundSupport := if |endpoint .z - s.ground| ≤ s.tolerance then
        insert (voxel s.resolution endpoint .x, voxel s.resolution endpoint .y) e.groundSupport else e.groundSupport } := by
  unfold Evidence.record grounded
  split
  · rw [List.toFinset_cons, List.toFinset_nil, Finset.union_insert, Finset.union_empty]
  · rw [List.toFinset_nil, Finset.union_empty]

theorem trace_ok (within : e.allCells.card ≤ s.maxVoxels) : trace s origin e endpoint = .ok e' ↔
    (∃ ray, rayOf s origin endpoint = .ok ray) ∧ (e.allCells ∪ (shown s origin endpoint).toFinset).card ≤ s.maxVoxels ∧
      e' = e.record s origin endpoint := by
  rw [record_eq]
  constructor
  · intro ok
    obtain ⟨_, apart, ok⟩ := bind_eq_ok ok
    obtain ⟨_, room, ok⟩ := bind_eq_ok ok
    obtain ⟨ray, traced, ok⟩ := bind_eq_ok ok
    obtain ⟨all, joined, ok⟩ := bind_eq_ok ok
    have found : rayOf s origin endpoint = .ok ray := by
      rw [rayOf_eq, if_neg (refuseIf_ok.mp apart)]
      exact traced
    rw [join_eq (insert_within within (refuseIf_ok.mp room)), union_shown found] at joined
    split at joined
    · rename_i fits
      obtain rfl := Except.ok.inj joined
      exact ⟨⟨ray, found⟩, fits, (Except.ok.inj ok).symm⟩
    · cases joined
  · rintro ⟨⟨ray, found⟩, fits, rfl⟩
    have inserted := (Finset.card_le_card insert_subset_shown).trans fits
    have room : ¬(s.maxVoxels ≤ e.allCells.card ∧ voxel s.resolution endpoint ∉ e.allCells) := by
      rintro ⟨full, new⟩
      rw [Finset.card_insert_of_notMem new] at inserted
      omega
    have joined : join s.maxVoxels ray (insert (voxel s.resolution endpoint) e.allCells) =
        .ok (e.allCells ∪ (shown s origin endpoint).toFinset) := by
      rw [join_eq inserted, union_shown found, if_pos fits]
    rw [rayOf_eq] at found
    split at found
    · cases found
    · rename_i apart
      exact bind_of_ok (passes apart) (bind_of_ok (passes room) (bind_of_ok found (bind_of_ok joined rfl)))

theorem trace_error (within : e.allCells.card ≤ s.maxVoxels) (refused : trace s origin e endpoint = .error err) :
    rayOf s origin endpoint = .error err ∨
      err = .map voxelLimit ∧ s.maxVoxels < (e.allCells ∪ (shown s origin endpoint).toFinset).card := by
  rcases bind_eq_error refused with refused | ⟨_, apart, refused⟩
  · obtain ⟨zero, rfl⟩ := refuseIf_error.mp refused
    rw [rayOf_eq, if_pos zero]
    exact .inl rfl
  have traced : rayOf s origin endpoint = (rayCells origin endpoint s.resolution s.maxRayCells).mapError .map := by
    rw [rayOf_eq, if_neg (refuseIf_ok.mp apart)]
  rcases bind_eq_error refused with full | ⟨_, room, refused⟩
  · obtain ⟨⟨full, new⟩, rfl⟩ := refuseIf_error.mp full
    refine .inr ⟨rfl, ?_⟩
    have more : (insert (voxel s.resolution endpoint) e.allCells).card ≤ (e.allCells ∪ (shown s origin endpoint).toFinset).card :=
      Finset.card_le_card insert_subset_shown
    rw [Finset.card_insert_of_notMem new] at more
    omega
  rcases bind_eq_error refused with missed | ⟨ray, found, refused⟩
  · exact .inl (traced.trans missed)
  rcases bind_eq_error refused with above | ⟨_, -, done⟩
  · rw [join_eq (insert_within within (refuseIf_ok.mp room)), union_shown (traced.trans found)] at above
    split at above
    · cases above
    · rename_i exceeds
      exact .inr ⟨(Except.error.inj above).symm, Nat.not_le.mp exceeds⟩
  · cases done

end trace

section frames
variable {dumps : Dumps} {g : Checked} {s : Settings} {e e' : Evidence} {f : Frame} {r : Row} {rows : List Row} {err : Failure}

def Evidence.recordAll (s : Settings) (origin : Vec) (e : Evidence) (points : List Vec) : Evidence :=
  { e with
    allCells := e.allCells ∪ (points.flatMap (shown s origin)).toFinset
    occupied := e.occupied ∪ (points.map (voxel s.resolution)).toFinset
    groundSupport := e.groundSupport ∪ (points.flatMap (grounded s)).toFinset }

variable {origin : Vec}

theorem recordAll_nil : e.recordAll s origin [] = e := by
  simp [Evidence.recordAll]

theorem recordAll_cons {p : Vec} {ps : List Vec} :
    e.recordAll s origin (p :: ps) = (e.record s origin p).recordAll s origin ps := by
  simp [Evidence.recordAll, Evidence.record, Finset.union_assoc, Finset.insert_union]

theorem recordAll_subset {p : Vec} {ps : List Vec} :
    (e.record s origin p).allCells ⊆ (e.recordAll s origin (p :: ps)).allCells := by
  rw [recordAll_cons]
  exact Finset.subset_union_left

theorem traces_ok {points : List Vec} (within : e.allCells.card ≤ s.maxVoxels) :
    points.foldlM (trace s origin) e = .ok e' ↔ (∀ p ∈ points, ∃ ray, rayOf s origin p = .ok ray) ∧
      (e.recordAll s origin points).allCells.card ≤ s.maxVoxels ∧ e' = e.recordAll s origin points := by
  induction points generalizing e with
  | nil =>
    rw [recordAll_nil]
    constructor
    · intro ok
      exact ⟨nofun, within, (Except.ok.inj ok).symm⟩
    · rintro ⟨-, -, rfl⟩
      rfl
  | cons p ps ih =>
    rw [List.foldlM_cons, List.forall_mem_cons]
    constructor
    · intro ok
      obtain ⟨e₁, traced, ok⟩ := bind_eq_ok ok
      obtain ⟨ray, fits, rfl⟩ := (trace_ok within).mp traced
      obtain ⟨rays, fits', rfl⟩ := (ih fits).mp ok
      rw [recordAll_cons]
      exact ⟨⟨ray, rays⟩, fits', rfl⟩
    · rintro ⟨⟨ray, rays⟩, fits, rfl⟩
      have first : (e.record s origin p).allCells.card ≤ s.maxVoxels := (Finset.card_le_card recordAll_subset).trans fits
      rw [recordAll_cons] at fits
      exact bind_of_ok ((trace_ok within).mpr ⟨ray, first, rfl⟩) ((ih first).mpr ⟨rays, fits, recordAll_cons⟩)

theorem traces_error {points : List Vec} (within : e.allCells.card ≤ s.maxVoxels)
    (refused : points.foldlM (trace s origin) e = .error err) : (∃ p ∈ points, rayOf s origin p = .error err) ∨
      err = .map voxelLimit ∧ s.maxVoxels < (e.recordAll s origin points).allCells.card := by
  induction points generalizing e with
  | nil => cases refused
  | cons p ps ih =>
    rw [List.foldlM_cons] at refused
    rcases bind_eq_error refused with refused | ⟨e₁, traced, refused⟩
    · rcases trace_error within refused with missed | ⟨limit, above⟩
      · exact .inl ⟨p, List.mem_cons_self, missed⟩
      · exact .inr ⟨limit, lt_of_lt_of_le above (Finset.card_le_card recordAll_subset)⟩
    · obtain ⟨-, fits, rfl⟩ := (trace_ok within).mp traced
      rw [recordAll_cons]
      rcases ih fits refused with ⟨q, mem, missed⟩ | above
      · exact .inl ⟨q, List.mem_cons_of_mem _ mem, missed⟩
      · exact .inr above

def Evidence.enter (e : Evidence) (r : Row) : Evidence :=
  { e with
    seenRaw := insert r.rawKey e.seenRaw
    mapped := Function.update e.mapped r.key (insert r.side (e.mapped r.key))
    sensorSides := Function.update e.sensorSides r.sensor (some r.side)
    sideSensors := Function.update e.sideSensors r.side (some r.sensor)
    counts := Function.update e.counts r.side (e.counts r.side + r.transformed.length) }

structure Fits (s : Settings) (e : Evidence) (r : Row) : Prop where
  raw : r.rawKey ∉ e.seenRaw
  sensor : ∀ side ∈ e.sensorSides r.sensor, side = r.side
  side : ∀ sensor ∈ e.sideSensors r.side, sensor = r.sensor
  points : e.cloud.length + r.transformed.length ≤ s.maxPoints

def Evidence.leave (r : Row) (origin : Value × Side × Vec) (row : RawRow) (e : Evidence) : Evidence :=
  { e with cloud := e.cloud ++ r.transformed, origins := e.origins ++ [origin], rawIndex := e.rawIndex ++ [row] }

variable {α : Type}

theorem ok_bind {β : Type} {x : Except Failure α} {a : α} {h : α → Except Failure β} (ok : x = .ok a) : (x >>= h) = h a := by
  rw [ok]
  rfl

theorem bind_return {β : Type} {x : Except Failure α} {h : α → β} : (x >>= fun a => return h a) = x.map h := by
  cases x <;> rfl

theorem any_ne_iff [DecidableEq α] {known : Option α} {a : α} : ¬known.any (· ≠ a) ↔ ∀ b ∈ known, b = a := by
  cases known <;> simp

theorem observe_eq (seen : inspect dumps g s f = .ok r) (fits : Fits s e r) : ∃ origin row,
    observe dumps g s e f = (r.transformed.foldlM (trace s r.origin) (e.enter r)).map (Evidence.leave r origin row) := by
  unfold inspect at seen
  simp only [bind_eq_ok_iff] at seen
  obtain ⟨rawKey, raw, key, node_, node, found, odomEpoch, epoch_, _, same, _, session, ⟨side, sensor⟩, sensed,
    mount, mounted, points, pointed, _, bounded, seen⟩ := seen
  obtain rfl := Except.ok.inj seen
  have length : (points.map (moved (node.pose * mount))).length = points.length := List.length_map _
  have room := fits.points
  rw [length] at room
  refine ⟨(f.rawKey, side, translation (node.pose * mount)),
    ⟨f.rawKey, node.nodeId, node.odomEpoch, sensor, side, points.length, mount⟩, ?_⟩
  unfold observe Evidence.enter
  rw [ok_bind raw, ok_bind (passes fits.raw), ok_bind node_, ok_bind found, ok_bind epoch_, ok_bind same, ok_bind session,
    ok_bind sensed]
  dsimp only
  rw [ok_bind (passes (any_ne_iff.mpr fits.sensor)), ok_bind (passes (any_ne_iff.mpr fits.side)), ok_bind mounted,
    ok_bind pointed, ok_bind (passes (Nat.not_lt.mpr room)), ok_bind bounded, length]
  exact bind_return

def Past {α : Type} (x : Except Failure α) (P : Prop) : Prop := P ∨ ∃ err, x = .error err ∧ err ≠ .map voxelLimit

theorem past_bind {β : Type} {x : Except Failure α} {h : α → Except Failure β} {P : Prop} (spares : Spares x)
    (next : ∀ a, x = .ok a → Past (h a) P) : Past (x >>= h) P := by
  cases ok : x with
  | ok a =>
    rw [ok] at next
    exact next a rfl
  | error err =>
    refine .inr ⟨err, rfl, ?_⟩
    rintro rfl
    exact spares ok

theorem observe_past : Past (observe dumps g s e f) (∃ r, inspect dumps g s f = .ok r ∧ Fits s e r) := by
  refine past_bind (spares_rawIdentity _) fun rawKey raw => ?_
  refine past_bind (spares_refuseIf (by decide)) fun _ fresh => ?_
  refine past_bind (spares_identity _ (by decide)) fun key node_ => ?_
  refine past_bind (spares_nodeOf _) fun node found => ?_
  refine past_bind (spares_epoch _ (by decide)) fun odomEpoch epoch_ => ?_
  refine past_bind (spares_refuseIf (by decide)) fun _ same => ?_
  refine past_bind (spares_refuseIf (by decide)) fun _ session => ?_
  refine past_bind spares_sensorOf ?_
  rintro ⟨side, sensor⟩ sensed
  refine past_bind (spares_refuseIf (by decide)) fun _ sensors => ?_
  refine past_bind (spares_refuseIf (by decide)) fun _ sides => ?_
  refine past_bind (spares_rigid _) fun mount mounted => ?_
  refine past_bind spares_pointsOf fun points pointed => ?_
  refine past_bind (spares_refuseIf (by decide)) fun _ room => ?_
  refine past_bind (spares_refuseIf (by decide)) fun _ bounded => .inl ?_
  refine ⟨⟨rawKey, key, side, sensor, translation (node.pose * mount), points.map (moved (node.pose * mount))⟩, ?_,
    refuseIf_ok.mp fresh, any_ne_iff.mp (refuseIf_ok.mp sensors), any_ne_iff.mp (refuseIf_ok.mp sides), ?_⟩
  · exact bind_of_ok raw (bind_of_ok node_ (bind_of_ok found (bind_of_ok epoch_ (bind_of_ok same (bind_of_ok session
      (bind_of_ok sensed (bind_of_ok mounted (bind_of_ok pointed (bind_of_ok bounded rfl)))))))))
  · rw [List.length_map]
    exact Nat.not_lt.mp (refuseIf_ok.mp room)

theorem observe_ok (ok : observe dumps g s e f = .ok e') : ∃ r, inspect dumps g s f = .ok r ∧ Fits s e r := by
  rcases observe_past with fits | ⟨err, refused, -⟩
  · exact fits
  · cases ok.symm.trans refused

theorem covered_snoc : covered s (rows ++ [r]) = covered s rows ∪ (r.transformed.flatMap (shown s r.origin)).toFinset := by
  unfold covered
  rw [List.flatMap_append, List.toFinset_append, List.flatMap_singleton]

theorem holds_step (h : Holds s rows e) (fits : Fits s e r) (origin : Value × Side × Vec) (row : RawRow) :
    Holds s (rows ++ [r]) (((e.enter r).recordAll s r.origin r.transformed).leave r origin row) where
  allCells := by
    rw [covered_snoc, ← h.allCells]
    rfl
  occupied := by
    unfold endpoints
    rw [List.flatMap_append, List.toFinset_append, List.flatMap_singleton]
    exact congrArg (· ∪ _) h.occupied
  support := by
    unfold Maps.support
    rw [List.flatMap_append, List.toFinset_append, List.flatMap_singleton]
    exact congrArg (· ∪ _) h.support
  raw key := by
    rw [List.map_append, List.mem_append, ← h.raw key]
    change key ∈ insert r.rawKey e.seenRaw ↔ _
    rw [Finset.mem_insert, or_comm]
    simp
  mapped key := by
    change Function.update e.mapped r.key (insert r.side (e.mapped r.key)) key = _
    have before := h.mapped key
    unfold sidesAt at before ⊢
    rw [List.filter_append, List.map_append, List.toFinset_append, ← before]
    by_cases same : r.key = key
    · subst same
      rw [Function.update_self]
      simp [Finset.union_comm]
    · rw [Function.update_of_ne (Ne.symm same)]
      simp [same]
  sensors sensor side := by
    change Function.update e.sensorSides r.sensor (some r.side) sensor = some side ↔ _
    by_cases same : sensor = r.sensor
    · subst same
      rw [Function.update_self]
      constructor
      · intro known
        exact ⟨r, by simp, rfl, Option.some.inj known⟩
      · rintro ⟨q, mem, sensor_, rfl⟩
        rcases List.mem_append.mp mem with old | new
        · exact congrArg some (fits.sensor q.side ((h.sensors _ _).mpr ⟨q, old, sensor_, rfl⟩)).symm
        · rw [List.mem_singleton.mp new]
    · rw [Function.update_of_ne same, h.sensors]
      constructor
      · rintro ⟨q, mem, rest⟩
        exact ⟨q, List.mem_append_left _ mem, rest⟩
      · rintro ⟨q, mem, rfl, rest⟩
        rcases List.mem_append.mp mem with old | new
        · exact ⟨q, old, rfl, rest⟩
        · exact absurd (congrArg Row.sensor (List.mem_singleton.mp new)) same
  sides sensor side := by
    change Function.update e.sideSensors r.side (some r.sensor) side = some sensor ↔ _
    by_cases same : side = r.side
    · subst same
      rw [Function.update_self]
      constructor
      · intro known
        exact ⟨r, by simp, Option.some.inj known, rfl⟩
      · rintro ⟨q, mem, rfl, side_⟩
        rcases List.mem_append.mp mem with old | new
        · exact congrArg some (fits.side q.sensor ((h.sides _ _).mpr ⟨q, old, rfl, side_⟩)).symm
        · rw [List.mem_singleton.mp new]
    · rw [Function.update_of_ne same, h.sides]
      constructor
      · rintro ⟨q, mem, rest⟩
        exact ⟨q, List.mem_append_left _ mem, rest⟩
      · rintro ⟨q, mem, rest, rfl⟩
        rcases List.mem_append.mp mem with old | new
        · exact ⟨q, old, rest, rfl⟩
        · exact absurd (congrArg Row.side (List.mem_singleton.mp new)) same
  cloud := by
    change (e.cloud ++ r.transformed).length = _
    unfold pointCount
    rw [List.length_append, h.cloud, List.map_append, List.sum_append]
    rfl

theorem agree_step (h : Holds s rows e) (agree : Agree s rows) : Fits s e r ↔ Agree s (rows ++ [r]) := by
  have count : pointCount (rows ++ [r]) = e.cloud.length + r.transformed.length := by
    unfold pointCount
    rw [h.cloud, List.map_append, List.sum_append]
    rfl
  constructor
  · intro fits
    refine ⟨?_, ?_, count ▸ fits.points⟩
    · rw [List.map_append]
      refine List.nodup_append.mpr ⟨agree.raw, List.nodup_singleton _, fun key old key' new => ?_⟩
      rw [List.map_singleton, List.mem_singleton] at new
      rintro rfl
      exact fits.raw ((h.raw _).mpr (new ▸ old))
    · have old {q : Row} (mem : q ∈ rows) : q.sensor = r.sensor ↔ q.side = r.side :=
        ⟨fun same => fits.sensor q.side ((h.sensors _ _).mpr ⟨q, mem, same, rfl⟩),
          fun same => fits.side q.sensor ((h.sides _ _).mpr ⟨q, mem, rfl, same⟩)⟩
      intro q memQ p memP
      rcases List.mem_append.mp memQ with oldQ | newQ <;> rcases List.mem_append.mp memP with oldP | newP
      · exact agree.sensors q oldQ p oldP
      · rw [List.mem_singleton.mp newP]
        exact old oldQ
      · rw [List.mem_singleton.mp newQ, eq_comm, old oldP, eq_comm]
      · rw [List.mem_singleton.mp newQ, List.mem_singleton.mp newP]
        exact iff_of_true rfl rfl
  · intro agree'
    have last : r ∈ rows ++ [r] := by simp
    refine ⟨fun seen => ?_, fun side known => ?_, fun sensor known => ?_, count ▸ agree'.points⟩
    · have nodup := agree'.raw
      rw [List.map_append, List.nodup_append] at nodup
      exact nodup.2.2 _ ((h.raw _).mp seen) _ (by simp) rfl
    · obtain ⟨q, mem, sensor_, rfl⟩ := (h.sensors _ _).mp known
      exact (agree'.sensors q (List.mem_append_left _ mem) r last).mp sensor_
    · obtain ⟨q, mem, rfl, side_⟩ := (h.sides _ _).mp known
      exact (agree'.sensors q (List.mem_append_left _ mem) r last).mpr side_

def Traced (s : Settings) (r : Row) : Prop := ∀ p ∈ r.transformed, ∃ ray, rayOf s r.origin p = .ok ray

variable {rest : List Row}

theorem agree_left (agree : Agree s (rows ++ rest)) : Agree s rows where
  raw := by
    have nodup := agree.raw
    rw [List.map_append, List.nodup_append] at nodup
    exact nodup.1
  sensors q memQ r memR := agree.sensors q (List.mem_append_left _ memQ) r (List.mem_append_left _ memR)
  points := by
    have bound := agree.points
    unfold pointCount at bound ⊢
    rw [List.map_append, List.sum_append] at bound
    omega

theorem covered_left : (covered s rows).card ≤ (covered s (rows ++ rest)).card := by
  refine Finset.card_le_card ?_
  unfold covered
  rw [List.flatMap_append, List.toFinset_append]
  exact Finset.subset_union_left

theorem recorded_cells (h : Holds s rows e) :
    ((e.enter r).recordAll s r.origin r.transformed).allCells = covered s (rows ++ [r]) := by
  rw [covered_snoc, ← h.allCells]
  rfl

def Shows (dumps : Dumps) (g : Checked) (s : Settings) (f : Frame) (r : Row) : Prop :=
  inspect dumps g s f = .ok r ∧ Traced s r

theorem frame_ok (h : Holds s rows e) (agree : Agree s rows) (within : (covered s rows).card ≤ s.maxVoxels)
    (ok : observe dumps g s e f = .ok e') : ∃ r, Shows dumps g s f r ∧ Agree s (rows ++ [r]) ∧
      (covered s (rows ++ [r])).card ≤ s.maxVoxels ∧ Holds s (rows ++ [r]) e' := by
  obtain ⟨r, seen, fits⟩ := observe_ok ok
  obtain ⟨origin, row, eq⟩ := observe_eq seen fits
  have entered : (e.enter r).allCells.card ≤ s.maxVoxels := by
    rw [← h.allCells] at within
    exact within
  rw [eq] at ok
  cases traced : r.transformed.foldlM (trace s r.origin) (e.enter r) with
  | error err =>
    rw [traced] at ok
    cases ok
  | ok e₁ =>
    obtain ⟨rays, bound, rfl⟩ := (traces_ok entered).mp traced
    rw [traced] at ok
    obtain rfl := Except.ok.inj ok
    rw [recorded_cells h] at bound
    exact ⟨r, ⟨seen, rays⟩, (agree_step h agree).mp fits, bound, holds_step h fits origin row⟩

theorem frame_run (h : Holds s rows e) (agree : Agree s rows) (within : (covered s rows).card ≤ s.maxVoxels)
    (shows_ : Shows dumps g s f r) (agree' : Agree s (rows ++ [r])) :
    if (covered s (rows ++ [r])).card ≤ s.maxVoxels then ∃ e', observe dumps g s e f = .ok e'
    else observe dumps g s e f = .error (.map voxelLimit) := by
  obtain ⟨seen, rays⟩ := shows_
  obtain ⟨origin, row, eq⟩ := observe_eq seen ((agree_step h agree).mpr agree')
  have entered : (e.enter r).allCells.card ≤ s.maxVoxels := by
    rw [← h.allCells] at within
    exact within
  rw [eq]
  split
  · rename_i bound
    rw [← recorded_cells h] at bound
    rw [(traces_ok entered).mpr ⟨rays, bound, rfl⟩]
    exact ⟨_, rfl⟩
  · rename_i above
    rw [← recorded_cells h] at above
    cases traced : r.transformed.foldlM (trace s r.origin) (e.enter r) with
    | ok e₁ => exact absurd ((traces_ok entered).mp traced).2.1 above
    | error err =>
      rcases traces_error entered traced with ⟨p, mem, missed⟩ | ⟨rfl, -⟩
      · obtain ⟨ray, found⟩ := rays p mem
        cases missed.symm.trans found
      · rfl

theorem frames_ok {frames : List Frame} (h : Holds s rows e) (agree : Agree s rows)
    (within : (covered s rows).card ≤ s.maxVoxels) (ok : frames.foldlM (observe dumps g s) e = .ok e') :
    ∃ rest, List.Forall₂ (Shows dumps g s) frames rest ∧ Agree s (rows ++ rest) ∧
      (covered s (rows ++ rest)).card ≤ s.maxVoxels ∧ Holds s (rows ++ rest) e' := by
  induction frames generalizing e rows with
  | nil =>
    obtain rfl := Except.ok.inj ok
    refine ⟨[], .nil, ?_⟩
    rw [List.append_nil]
    exact ⟨agree, within, h⟩
  | cons f frames ih =>
    rw [List.foldlM_cons] at ok
    obtain ⟨e₁, observed, ok⟩ := bind_eq_ok ok
    obtain ⟨r, shows_, agree₁, within₁, h₁⟩ := frame_ok h agree within observed
    obtain ⟨rest, all, after⟩ := ih h₁ agree₁ within₁ ok
    rw [List.append_assoc] at after
    exact ⟨r :: rest, .cons shows_ all, after⟩

theorem frames_run {frames : List Frame} (h : Holds s rows e) (within : (covered s rows).card ≤ s.maxVoxels)
    (all : List.Forall₂ (Shows dumps g s) frames rest) (agree : Agree s (rows ++ rest)) :
    if (covered s (rows ++ rest)).card ≤ s.maxVoxels then ∃ e', frames.foldlM (observe dumps g s) e = .ok e'
    else frames.foldlM (observe dumps g s) e = .error (.map voxelLimit) := by
  induction all generalizing e rows with
  | nil =>
    rw [List.append_nil, if_pos within]
    exact ⟨e, rfl⟩
  | @cons f r frames rest shows_ all ih =>
    have split_ : rows ++ r :: rest = rows ++ [r] ++ rest := by simp
    rw [split_] at agree ⊢
    have agree₁ := agree_left agree
    have run := frame_run h (agree_left agree₁) within shows_ agree₁
    rw [List.foldlM_cons]
    split at run
    · rename_i within₁
      obtain ⟨e₁, observed⟩ := run
      obtain ⟨r', shows', -, -, h₁⟩ := frame_ok h (agree_left agree₁) within observed
      obtain rfl := Except.ok.inj (shows'.1.symm.trans shows_.1)
      rw [ok_bind observed]
      exact ih h₁ within₁ agree
    · rename_i above
      have past : ¬(covered s (rows ++ [r] ++ rest)).card ≤ s.maxVoxels := fun bound => above (covered_left.trans bound)
      rw [if_neg past, run]
      rfl

end frames

section limit
variable {dumps : Dumps} {g : Checked} {s : Settings} {e : Evidence} {f : Frame} {rows : List Row}

theorem spares_rayOf (origin endpoint : Vec) : Spares (rayOf s origin endpoint) :=
  (spares_refuseIf (by decide)).bind fun _ _ => spares_rayCells origin endpoint

def rowsOf (dumps : Dumps) (g : Checked) (s : Settings) (frames : List Frame) : List Row :=
  frames.filterMap fun f => (inspect dumps g s f).toOption

theorem observe_limit (h : Holds s rows e) (within : (covered s rows).card ≤ s.maxVoxels)
    (refused : observe dumps g s e f = .error (.map voxelLimit)) :
    ∃ r, inspect dumps g s f = .ok r ∧ s.maxVoxels < (covered s (rows ++ [r])).card := by
  rcases observe_past with ⟨r, seen, fits⟩ | ⟨err, refused', other⟩
  case inr => exact absurd (Except.error.inj (refused'.symm.trans refused)) other
  have entered : (e.enter r).allCells.card ≤ s.maxVoxels := by
    rw [← h.allCells] at within
    exact within
  refine ⟨r, seen, ?_⟩
  obtain ⟨origin, row, eq⟩ := observe_eq seen fits
  rw [eq] at refused
  cases traced : r.transformed.foldlM (trace s r.origin) (e.enter r) with
  | ok e₁ =>
    rw [traced] at refused
    cases refused
  | error err =>
    rw [traced] at refused
    obtain rfl := Except.error.inj refused
    rcases traces_error entered traced with ⟨p, mem, missed⟩ | ⟨-, above⟩
    · exact absurd missed (spares_rayOf _ _)
    · rwa [recorded_cells h] at above

theorem frames_limit {frames : List Frame} (h : Holds s rows e) (agree : Agree s rows)
    (within : (covered s rows).card ≤ s.maxVoxels)
    (refused : frames.foldlM (observe dumps g s) e = .error (.map voxelLimit)) :
    s.maxVoxels < (covered s (rows ++ rowsOf dumps g s frames)).card := by
  induction frames generalizing e rows with
  | nil => cases refused
  | cons f frames ih =>
    have next {r : Row} (seen : inspect dumps g s f = .ok r) :
        rows ++ rowsOf dumps g s (f :: frames) = rows ++ [r] ++ rowsOf dumps g s frames := by
      unfold rowsOf
      rw [List.filterMap_cons, seen, List.append_assoc]
      rfl
    rw [List.foldlM_cons] at refused
    rcases bind_eq_error refused with refused | ⟨e₁, observed, refused⟩
    · obtain ⟨r, seen, above⟩ := observe_limit h within refused
      rw [next seen]
      exact lt_of_lt_of_le above covered_left
    · obtain ⟨r, ⟨seen, -⟩, agree₁, within₁, h₁⟩ := frame_ok h agree within observed
      rw [next seen]
      exact ih h₁ agree₁ within₁ refused

theorem rowsOf_eq {frames : List Frame} (all : List.Forall₂ (Shows dumps g s) frames rows) : rowsOf dumps g s frames = rows := by
  induction all with
  | nil => rfl
  | cons shows_ _ ih =>
    unfold rowsOf at ih ⊢
    rw [List.filterMap_cons, shows_.1, ih]
    rfl

theorem initial_holds : Holds s [] .initial where
  allCells := rfl
  occupied := rfl
  support := rfl
  raw _ := by simp [Evidence.initial]
  mapped _ := rfl
  sensors _ _ := by simp [Evidence.initial]
  sides _ _ := by simp [Evidence.initial]
  cloud := rfl

theorem agree_nil : Agree s [] := ⟨List.nodup_nil, nofun, Nat.zero_le _⟩

end limit

end Smartwheel.Maps
