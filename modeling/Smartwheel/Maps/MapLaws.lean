import Mathlib.Data.List.Perm.Basic
import Smartwheel.Maps.Evidence

/-! A map does not depend on the order of its frames, or of their points. -/
namespace Smartwheel.Maps
open Effect

def Reordered (f f' : Frame) : Prop := ∃ points, Option.Rel List.Perm f.points points ∧ f' = { f with points }

def Shuffled (frames frames' : List Frame) : Prop := ∃ mid, frames.Perm mid ∧ List.Forall₂ Reordered mid frames'

structure Same (r r' : Row) : Prop where
  rawKey : r.rawKey = r'.rawKey
  key : r.key = r'.key
  side : r.side = r'.side
  sensor : r.sensor = r'.sensor
  origin : r.origin = r'.origin
  transformed : r.transformed.Perm r'.transformed

def Alike (rows rows' : List Row) : Prop := ∃ mid, rows.Perm mid ∧ List.Forall₂ Same mid rows'

section alike
variable {dumps : Dumps} {g : Checked} {s : Settings} {f f' : Frame} {r : Row} {rows rows' : List Row}

theorem alike_flatMap {β : Type} {F : Row → List β} (alike : Alike rows rows') (each : ∀ r r', Same r r' → (F r).Perm (F r')) :
    (rows.flatMap F).Perm (rows'.flatMap F) := by
  obtain ⟨mid, perm, all⟩ := alike
  refine (perm.flatMap_right F).trans ?_
  clear perm
  induction all with
  | nil => exact .nil
  | cons same _ ih =>
    rw [List.flatMap_cons, List.flatMap_cons]
    exact (each _ _ same).append ih

theorem alike_map {β : Type} {F : Row → β} (alike : Alike rows rows') (each : ∀ r r', Same r r' → F r = F r') :
    (rows.map F).Perm (rows'.map F) := by
  rw [List.map_eq_flatMap, List.map_eq_flatMap]
  exact alike_flatMap alike fun r r' same => by rw [each r r' same]

theorem alike_covered (alike : Alike rows rows') : covered s rows = covered s rows' :=
  List.toFinset_eq_of_perm _ _ (alike_flatMap alike fun r r' same => by
    rw [same.origin]
    exact same.transformed.flatMap_right _)

theorem alike_endpoints (alike : Alike rows rows') : endpoints s rows = endpoints s rows' :=
  List.toFinset_eq_of_perm _ _ (alike_flatMap alike fun _ _ same => same.transformed.map _)

theorem alike_support (alike : Alike rows rows') : support s rows = support s rows' :=
  List.toFinset_eq_of_perm _ _ (alike_flatMap alike fun _ _ same => same.transformed.flatMap_right _)

theorem mem_sidesAt {key : String} {side : Side} : side ∈ sidesAt rows key ↔ (key, side) ∈ rows.map fun r => (r.key, r.side) := by
  unfold sidesAt
  simp [and_assoc]

theorem alike_sidesAt (alike : Alike rows rows') (key : String) : sidesAt rows key = sidesAt rows' key := by
  ext side
  rw [mem_sidesAt, mem_sidesAt]
  exact (alike_map alike fun _ _ same => by rw [same.key, same.side]).mem_iff

theorem sensors_iff : (∀ q ∈ rows, ∀ r ∈ rows, q.sensor = r.sensor ↔ q.side = r.side) ↔
    ∀ a ∈ rows.map (fun r => (r.sensor, r.side)), ∀ b ∈ rows.map (fun r => (r.sensor, r.side)), a.1 = b.1 ↔ a.2 = b.2 := by
  simp only [List.forall_mem_map]

theorem alike_agree (alike : Alike rows rows') (agree : Agree s rows) : Agree s rows' where
  raw := (alike_map alike fun _ _ same => same.rawKey).nodup_iff.mp agree.raw
  sensors := by
    have pairs := alike_map alike (F := fun r => (r.sensor, r.side)) fun _ _ same => by rw [same.sensor, same.side]
    refine sensors_iff.mpr fun a memA b memB => ?_
    exact sensors_iff.mp agree.sensors a (pairs.mem_iff.mpr memA) b (pairs.mem_iff.mpr memB)
  points := by
    have lengths := alike_map alike (F := fun r => r.transformed.length) fun _ _ same => same.transformed.length_eq
    have bound := agree.points
    unfold pointCount at bound ⊢
    rwa [← lengths.sum_eq]

theorem pointsOf_ok {points : List Vec} : pointsOf f = .ok points ↔ f.points = some points ∧ points ≠ [] := by
  unfold pointsOf
  split
  · rename_i p ps given
    rw [given]
    constructor
    · intro ok
      obtain rfl := Except.ok.inj ok
      exact ⟨rfl, List.cons_ne_nil _ _⟩
    · rintro ⟨same, -⟩
      exact congrArg _ (Option.some.inj same)
  · rename_i other
    refine iff_of_false nofun ?_
    rintro ⟨given, some_⟩
    obtain ⟨p, ps, rfl⟩ := List.exists_cons_of_ne_nil some_
    exact other p ps given

theorem shows_reordered (shows_ : Shows dumps g s f r) (reordered : Reordered f f') : ∃ r', Shows dumps g s f' r' ∧ Same r r' := by
  obtain ⟨seen, rays⟩ := shows_
  obtain ⟨points', perm, rfl⟩ := reordered
  unfold inspect at seen
  simp only [bind_eq_ok_iff] at seen
  obtain ⟨rawKey, raw, key, node_, node, found, odomEpoch, epoch_, _, same, _, session, ⟨side, sensor⟩, sensed,
    mount, mounted, points, pointed, _, bounded, seen⟩ := seen
  obtain rfl := Except.ok.inj seen
  obtain ⟨given, some_⟩ := pointsOf_ok.mp pointed
  rw [given] at perm
  cases perm with
  | @some _ points' perm =>
  have pointed' : pointsOf { f with points := some points' } = .ok points' :=
    pointsOf_ok.mpr ⟨rfl, fun none_ => some_ (by simpa [none_] using perm)⟩
  have transformed := perm.map (moved (node.pose * mount))
  have bounded' : ¬(translation (node.pose * mount) :: points'.map (moved (node.pose * mount))).any (remote s.resolution) := by
    rw [← (transformed.cons _).any_eq]
    exact refuseIf_ok.mp bounded
  refine ⟨⟨rawKey, key, side, sensor, translation (node.pose * mount), points'.map (moved (node.pose * mount))⟩, ⟨?_, ?_⟩,
    rfl, rfl, rfl, rfl, rfl, transformed⟩
  · exact bind_of_ok raw (bind_of_ok node_ (bind_of_ok found (bind_of_ok epoch_ (bind_of_ok same (bind_of_ok session
      (bind_of_ok sensed (bind_of_ok mounted (bind_of_ok pointed' (bind_of_ok (passes bounded') rfl)))))))))
  · exact fun p mem => rays p (transformed.mem_iff.mpr mem)

theorem shows_shuffled {frames frames' : List Frame} (all : List.Forall₂ (Shows dumps g s) frames rows)
    (shuffled : Shuffled frames frames') : ∃ rows', List.Forall₂ (Shows dumps g s) frames' rows' ∧ Alike rows rows' := by
  obtain ⟨mid, perm, reordered⟩ := shuffled
  obtain ⟨rowsMid, allMid, permRows⟩ := List.perm_comp_forall₂ perm.symm all
  suffices ∃ rows', List.Forall₂ (Shows dumps g s) frames' rows' ∧ List.Forall₂ Same rowsMid rows' by
    obtain ⟨rows', all', same⟩ := this
    exact ⟨rows', all', rowsMid, permRows.symm, same⟩
  clear perm permRows all
  induction reordered generalizing rowsMid with
  | nil =>
    cases allMid
    exact ⟨[], .nil, .nil⟩
  | cons one _ ih =>
    cases allMid with
    | cons shows_ allMid =>
      obtain ⟨r', shows', same⟩ := shows_reordered shows_ one
      obtain ⟨rows', all', sames⟩ := ih _ allMid
      exact ⟨r' :: rows', .cons shows' all', .cons same sames⟩

end alike

section build
variable {dumps : Dumps} {graph : Graph} {config : Config} {g : Checked} {s : Settings} {frames : List Frame} {rows : List Row}
  {e e' : Evidence} {m : BuiltMap}

theorem settings_ok (read : readSettings config = .ok s) : 0 < s.resolution ∧ s.minimum < s.maximum := by
  unfold readSettings at read
  simp only [bind_eq_ok_iff] at read
  obtain ⟨_, -, _, -, _, -, _, -, _, -, resolution, -, ground, -, tolerance, -, minimum, -, maximum, -,
    _, physical, read⟩ := read
  have ordered := refuseIf_ok.mp physical
  push Not at ordered
  split at read
  · simp only [bind_eq_ok_iff] at read
    obtain ⟨_, -, _, -, _, -, _, -, _, -, read⟩ := read
    obtain rfl := Except.ok.inj read
    exact ⟨ordered.1, ordered.2.2.2⟩
  · cases read

theorem prepare_ok (prepared : prepare dumps graph config = .ok (g, s)) : readSettings config = .ok s := by
  unfold prepare at prepared
  simp only [bind_eq_ok_iff] at prepared
  obtain ⟨_, -, _, -, _, -, _, read, _, -, _, -, _, -, prepared⟩ := prepared
  obtain rfl := (Prod.mk.inj (Except.ok.inj prepared)).2
  exact read

theorem buildMap_eq (prepared : prepare dumps graph config = .ok (g, s)) :
    buildMap dumps graph frames config = (do
      let e ← frames.foldlM (observe dumps g s) .initial
      finish g s e) :=
  ok_bind prepared

theorem build_ok (prepared : prepare dumps graph config = .ok (g, s)) (built : buildMap dumps graph frames config = .ok m) :
    ∃ rows e, List.Forall₂ (Shows dumps g s) frames rows ∧ Agree s rows ∧ (covered s rows).card ≤ s.maxVoxels ∧
      Holds s rows e ∧ finish g s e = .ok m := by
  rw [buildMap_eq prepared] at built
  obtain ⟨e, observed, finished⟩ := bind_eq_ok built
  obtain ⟨rows, all, agree, within, holds⟩ := frames_ok initial_holds agree_nil (Nat.zero_le _) observed
  exact ⟨rows, e, all, agree, within, holds, finished⟩

theorem finish_ok (finished : finish g s e = .ok m) : project s e = .ok m.grid ∧
    m.voxels = (e.allCells.sort Voxel.order).map fun cell => (cell, if cell ∈ e.occupied then 100 else 0) := by
  obtain ⟨_, -, finished⟩ := bind_eq_ok finished
  obtain ⟨grid, projected, finished⟩ := bind_eq_ok finished
  obtain rfl := Except.ok.inj finished
  exact ⟨projected, rfl⟩

theorem mem_voxels (finished : finish g s e = .ok m) {v : Voxel} {state : ℤ} :
    (v, state) ∈ m.voxels ↔ v ∈ e.allCells ∧ state = if v ∈ e.occupied then 100 else 0 := by
  rw [(finish_ok finished).2, List.mem_map]
  constructor
  · rintro ⟨cell, mem, same⟩
    obtain ⟨rfl, rfl⟩ := Prod.mk.inj same
    exact ⟨(Finset.mem_sort _).mp mem, rfl⟩
  · rintro ⟨mem, rfl⟩
    exact ⟨v, (Finset.mem_sort _).mpr mem, rfl⟩

theorem finish_same (allCells : e.allCells = e'.allCells) (occupied : e.occupied = e'.occupied)
    (support : e.groundSupport = e'.groundSupport) (mapped : e.mapped = e'.mapped) (finished : finish g s e = .ok m) :
    ∃ m', finish g s e' = .ok m' ∧ m'.voxels = m.voxels ∧ m'.grid = m.grid := by
  have projects : project s e = project s e' := by
    unfold project extent cellValue
    rw [allCells, occupied, support]
  have completes : complete s e = complete s e' := by
    funext node
    unfold complete
    rw [mapped]
  have shown_ := (finish_ok finished).2
  obtain ⟨_, completed, finished⟩ := bind_eq_ok finished
  obtain ⟨grid, projected, finished⟩ := bind_eq_ok finished
  obtain rfl := Except.ok.inj finished
  rw [completes] at completed
  rw [projects] at projected
  refine ⟨_, bind_of_ok completed (bind_of_ok projected rfl), ?_, rfl⟩
  rw [shown_, allCells, occupied]

theorem endpoints_subset : endpoints s rows ⊆ covered s rows := fun v mem => by
  unfold endpoints covered at *
  rw [List.mem_toFinset, List.mem_flatMap] at *
  obtain ⟨r, memR, mem⟩ := mem
  obtain ⟨p, memP, rfl⟩ := List.mem_map.mp mem
  exact ⟨r, memR, List.mem_flatMap.mpr ⟨p, memP, List.mem_cons_self⟩⟩

/-! The cells of the grid. -/

theorem getElem?_rows {α : Type} (h : ℕ → ℕ → α) {width height i j : ℕ} (column : i < width) (row : j < height) :
    ((List.range height).flatMap fun j => (List.range width).map (h j))[j * width + i]? = some (h j i) := by
  induction height with
  | zero => exact absurd row (Nat.not_lt_zero j)
  | succ height ih =>
    have length : ((List.range height).flatMap fun j => (List.range width).map (h j)).length = height * width := by
      simp [List.length_flatMap]
    rw [List.range_succ, List.flatMap_append, List.flatMap_singleton]
    rcases Nat.lt_succ_iff_lt_or_eq.mp row with before | rfl
    · rw [List.getElem?_append_left, ih before]
      rw [length]
      have rest := Nat.mul_le_mul_right width before
      rw [Nat.succ_mul] at rest
      omega
    · rw [List.getElem?_append_right (by omega), length, Nat.add_sub_cancel_left]
      simp [column]

theorem mem_range {first last z : ℤ} : z ∈ range first last ↔ first ≤ z ∧ z < last := by
  unfold range
  rw [List.mem_map]
  constructor
  · rintro ⟨n, mem, rfl⟩
    have bound := List.mem_range.mp mem
    omega
  · rintro ⟨lower, upper⟩
    refine ⟨(z - first).toNat, List.mem_range.mpr ?_, ?_⟩ <;> omega

theorem cell_hundred {vertical : List ℤ} {x y : ℤ} :
    cellValue s e vertical x y = 100 ↔ ∃ z ∈ vertical, index x y z ∈ e.occupied := by
  unfold cellValue
  dsimp only
  split
  · rename_i hit
    exact iff_of_true rfl (by simpa using hit)
  · rename_i clear_
    have none_ : ¬∃ z ∈ vertical, index x y z ∈ e.occupied := by simpa using clear_
    split <;> exact iff_of_false (by decide) none_

theorem cell_zero {vertical : List ℤ} {x y : ℤ} (zero : cellValue s e vertical x y = 0) :
    s.groundValid ∧ (x, y) ∈ e.groundSupport ∧ ∀ z ∈ vertical, index x y z ∈ e.allCells ∧ index x y z ∉ e.occupied := by
  unfold cellValue at zero
  dsimp only at zero
  split at zero
  · cases zero
  · split at zero
    · rename_i free
      obtain ⟨ground, supported, all⟩ := free
      refine ⟨ground, supported, fun z mem => ?_⟩
      simpa using List.all_eq_true.mp all _ (List.mem_map_of_mem mem)
    · cases zero

structure CellLaw (s : Settings) (rows : List Row) (voxels : List (Voxel × ℤ)) (x y value : ℤ) : Prop where
  free : value = 0 → s.groundValid ∧ (x, y) ∈ support s rows ∧ (collisionRange s).1 < (collisionRange s).2 ∧
    ∀ z, (collisionRange s).1 ≤ z → z < (collisionRange s).2 → (index x y z, 0) ∈ voxels
  occupied : value = 100 ↔ ∃ z, (collisionRange s).1 ≤ z ∧ z < (collisionRange s).2 ∧ (index x y z, 100) ∈ voxels

theorem collisionRange_lt (read : readSettings config = .ok s) : (collisionRange s).1 < (collisionRange s).2 := by
  obtain ⟨positive, ordered⟩ := settings_ok read
  have below : (s.ground + s.minimum) / s.resolution < (s.ground + s.maximum) / s.resolution :=
    div_lt_div_of_pos_right (by linarith) positive
  exact_mod_cast (Int.floor_le _).trans_lt (below.trans_le (Int.le_ceil _))

theorem cell_law (read : readSettings config = .ok s) (h : Holds s rows e) (finished : finish g s e = .ok m) (x y : ℤ) :
    CellLaw s rows m.voxels x y (cellValue s e (range (collisionRange s).1 (collisionRange s).2) x y) where
  free zero := by
    obtain ⟨ground, supported, all⟩ := cell_zero zero
    rw [h.support] at supported
    refine ⟨ground, supported, collisionRange_lt read, fun z lower upper => ?_⟩
    obtain ⟨known, free⟩ := all z (mem_range.mpr ⟨lower, upper⟩)
    exact (mem_voxels finished).mpr ⟨known, (if_neg free).symm⟩
  occupied := by
    rw [cell_hundred]
    constructor
    · rintro ⟨z, mem, hit⟩
      obtain ⟨lower, upper⟩ := mem_range.mp mem
      refine ⟨z, lower, upper, (mem_voxels finished).mpr ⟨?_, (if_pos hit).symm⟩⟩
      rw [h.occupied] at hit
      rw [h.allCells]
      exact endpoints_subset hit
    · rintro ⟨z, lower, upper, mem⟩
      refine ⟨z, mem_range.mpr ⟨lower, upper⟩, ?_⟩
      have state := ((mem_voxels finished).mp mem).2
      by_contra free
      rw [if_neg free] at state
      cases state

theorem project_cells {grid : Grid} (projected : project s e = .ok grid) : ∃ lowerX lowerY : ℤ,
    grid.origin = (lowerX * s.resolution, lowerY * s.resolution, 0) ∧
      ∀ x y, lowerX ≤ x → x < lowerX + grid.width → lowerY ≤ y → y < lowerY + grid.height →
        grid.data[(y - lowerY).toNat * grid.width.toNat + (x - lowerX).toNat]? =
          some (cellValue s e (range (collisionRange s).1 (collisionRange s).2) x y) := by
  unfold project at projected
  split at projected
  · rename_i lowerX upperX lowerY upperY _ _
    obtain ⟨_, -, projected⟩ := bind_eq_ok projected
    obtain ⟨_, -, projected⟩ := bind_eq_ok projected
    obtain rfl := Except.ok.inj projected
    refine ⟨lowerX, lowerY, rfl, fun x y left right low high => ?_⟩
    dsimp only at right high ⊢
    have column : (x - lowerX).toNat < (upperX + 1 - lowerX).toNat := by omega
    have row : (y - lowerY).toNat < (upperY + 1 - lowerY).toNat := by omega
    have cell := getElem?_rows (fun j i : ℕ =>
      cellValue s e (range (collisionRange s).1 (collisionRange s).2) (lowerX + i) (lowerY + j)) column row
    rw [show lowerX + ((x - lowerX).toNat : ℤ) = x by omega, show lowerY + ((y - lowerY).toNat : ℤ) = y by omega] at cell
    have width : upperX - lowerX + 1 = upperX + 1 - lowerX := by omega
    rw [← cell, width]
    unfold range
    simp only [List.flatMap_map, List.map_map]
    rfl
  · cases projected

end build

/-- A map is the one of the union of its frames: their order does not matter, an endpoint is occupied, the bound on the voxels
is a bound on the union, and a cell of the grid speaks for its column. -/
theorem map_laws {dumps : Dumps} {graph : Graph} {config : Config} {g : Checked} {s : Settings}
    (prepared : prepare dumps graph config = .ok (g, s)) (frames : List Frame) :
    (∀ frames' m, Shuffled frames frames' → buildMap dumps graph frames config = .ok m →
      ∃ m', buildMap dumps graph frames' config = .ok m' ∧ m'.voxels = m.voxels ∧ m'.grid = m.grid) ∧
    (buildMap dumps graph frames config = .error (.map voxelLimit) →
      s.maxVoxels < (covered s (rowsOf dumps g s frames)).card) ∧
    (∀ rows, List.Forall₂ (Shows dumps g s) frames rows → Agree s rows →
      (buildMap dumps graph frames config = .error (.map voxelLimit) ↔ s.maxVoxels < (covered s rows).card)) ∧
    ∀ m, buildMap dumps graph frames config = .ok m → ∃ rows, List.Forall₂ (Shows dumps g s) frames rows ∧
      (∀ r ∈ rows, ∀ p ∈ r.transformed, ∀ state, (voxel s.resolution p, state) ∈ m.voxels ↔ state = 100) ∧
      ∃ lowerX lowerY : ℤ, m.grid.origin = (lowerX * s.resolution, lowerY * s.resolution, 0) ∧
        ∀ x y, lowerX ≤ x → x < lowerX + m.grid.width → lowerY ≤ y → y < lowerY + m.grid.height →
          ∃ value, m.grid.data[(y - lowerY).toNat * m.grid.width.toNat + (x - lowerX).toNat]? = some value ∧
            CellLaw s rows m.voxels x y value := by
  have read := prepare_ok prepared
  have limited (refused : buildMap dumps graph frames config = .error (.map voxelLimit)) :
      s.maxVoxels < (covered s (rowsOf dumps g s frames)).card := by
    rw [buildMap_eq prepared] at refused
    rcases bind_eq_error refused with refused | ⟨e, -, refused⟩
    · exact frames_limit initial_holds agree_nil (Nat.zero_le _) refused
    · exact absurd refused (spares_finish e)
  refine ⟨fun frames' m shuffled built => ?_, limited, fun rows all agree => ⟨fun refused => ?_, fun above => ?_⟩, fun m built => ?_⟩
  · obtain ⟨rows, e, all, agree, within, holds, finished⟩ := build_ok prepared built
    obtain ⟨rows', all', alike⟩ := shows_shuffled all shuffled
    have run := frames_run initial_holds (Nat.zero_le _) all' (alike_agree alike agree)
    rw [List.nil_append, ← alike_covered alike, if_pos within] at run
    obtain ⟨e', observed⟩ := run
    obtain ⟨rows'', all'', -, -, holds'⟩ := frames_ok initial_holds agree_nil (Nat.zero_le _) observed
    obtain rfl : rows'' = rows' := (rowsOf_eq all'').symm.trans (rowsOf_eq all')
    rw [List.nil_append] at holds'
    have allCells : e.allCells = e'.allCells := by rw [holds.allCells, holds'.allCells, alike_covered alike]
    have occupied : e.occupied = e'.occupied := by rw [holds.occupied, holds'.occupied, alike_endpoints alike]
    have supported : e.groundSupport = e'.groundSupport := by rw [holds.support, holds'.support, alike_support alike]
    have mapped : e.mapped = e'.mapped := by
      funext key
      rw [holds.mapped, holds'.mapped, alike_sidesAt alike]
    obtain ⟨m', finished', same⟩ := finish_same allCells occupied supported mapped finished
    exact ⟨m', (buildMap_eq prepared).trans (bind_of_ok observed finished'), same⟩
  · rw [← rowsOf_eq all]
    exact limited refused
  · have run := frames_run initial_holds (Nat.zero_le _) all agree
    rw [List.nil_append, if_neg (Nat.not_le.mpr above)] at run
    rw [buildMap_eq prepared, run]
    rfl
  · obtain ⟨rows, e, all, -, -, holds, finished⟩ := build_ok prepared built
    refine ⟨rows, all, fun r memR p memP state => ?_, ?_⟩
    · have hit : voxel s.resolution p ∈ endpoints s rows :=
        List.mem_toFinset.mpr (List.mem_flatMap.mpr ⟨r, memR, List.mem_map_of_mem memP⟩)
      rw [mem_voxels finished, holds.allCells, holds.occupied, if_pos hit]
      exact and_iff_right (endpoints_subset hit)
    · obtain ⟨lowerX, lowerY, origin, cells⟩ := project_cells (finish_ok finished).1
      exact ⟨lowerX, lowerY, origin, fun x y left right low high =>
        ⟨_, cells x y left right low high, cell_law read holds finished x y⟩⟩

/-! One node with one frame of one point, and room for one voxel. -/

namespace Bench

def dumps : Dumps := fun _ => .ok "node"

def graph : Graph where
  sessionId := .text "session"
  graphEpoch := .int 1
  revision := .int 1
  nodes := [⟨.int 1, .text "odom", some 1⟩]
  edges := []

def frame : Frame where
  rawKey := .text "raw"
  nodeId := .int 1
  odomEpoch := .text "odom"
  sessionId := none
  graphEpoch := none
  side := .text "left"
  sensorId := .text "lidar"
  pose := some 1
  points := some [vec (5 / 2) (1 / 2) (1 / 2)]

def config : Config where
  number key := .ok (some (if key = "resolution" then 1 else if key = "ground_z" then -1 else if key = "ground_tolerance" then 0
    else if key = "collision_min_height" then 1 else 2))
  groundValid := .bool true
  sensorMode := some (.text "single_left")
  maxRayCells := none
  maxGridCells := none
  maxPoints := none
  maxVoxels := some (.int 1)

def checked : Checked := ⟨"session", .number 1, 1, [⟨"node", .int 1, .text "odom", 1⟩]⟩

def settings : Settings := ⟨1, -1, 0, 1, 2, true, {.left}, 10000, 4000000, 5000000, 1⟩

def row : Row := ⟨"raw", "node", .left, "lidar", translation (1 * 1), [vec (5 / 2) (1 / 2) (1 / 2)].map (moved (1 * 1))⟩

theorem rigid_one (label : String) : rigid (some 1) label = .ok 1 := by
  have rotates : Fusion.rotation (1 : Fusion.Transform) = 1 := Matrix.submatrix_one _ (Fin.castSucc_injective 3)
  have homogeneous : close ((1 : Fusion.Transform).submatrix (fun _ : Fin 1 => 3) id) !![0, 0, 0, 1] (1 / 10 ^ 8) = true := by
    decide +kernel
  have orthonormal : close (1 : Matrix (Fin 3) (Fin 3) ℚ) 1 (1 / 10 ^ 6) = true := by decide +kernel
  unfold rigid
  dsimp only
  rw [rotates, Matrix.transpose_one, one_mul, homogeneous, orthonormal, Matrix.det_one]
  exact bind_of_ok (passes (by decide)) (bind_of_ok (passes (by decide)) (bind_of_ok (passes (by norm_num)) rfl))

theorem reads : readSettings config = .ok settings := by
  have physical : ¬((1 : ℚ) ≤ 0 ∨ (0 : ℚ) < 0 ∨ (1 : ℚ) ≤ 0 ∨ (2 : ℚ) ≤ 1) := by norm_num
  exact bind_of_ok rfl (bind_of_ok rfl (bind_of_ok rfl (bind_of_ok rfl (bind_of_ok rfl (bind_of_ok rfl (bind_of_ok rfl
    (bind_of_ok rfl (bind_of_ok rfl (bind_of_ok rfl (bind_of_ok (passes physical) rfl))))))))))

theorem prepared : prepare dumps graph config = .ok (checked, settings) := by
  have node : readNode dumps [] ⟨.int 1, .text "odom", some 1⟩ = .ok checked.nodes :=
    bind_of_ok rfl (bind_of_ok (passes (by decide)) (bind_of_ok rfl (bind_of_ok (rigid_one _) rfl)))
  have nodes : graph.nodes.foldlM (readNode dumps) [] = .ok checked.nodes := bind_of_ok node rfl
  exact bind_of_ok rfl (bind_of_ok rfl (bind_of_ok rfl (bind_of_ok reads (bind_of_ok nodes (bind_of_ok (passes (by decide)) rfl)))))

theorem shows_row : Shows dumps checked settings frame row := by
  have bounded : ¬(translation (1 * 1) :: [vec (5 / 2) (1 / 2) (1 / 2)].map (moved (1 * 1))).any (remote 1) := by
    decide +kernel
  have seen : inspect dumps checked settings frame = .ok row :=
    bind_of_ok rfl (bind_of_ok rfl (bind_of_ok rfl (bind_of_ok rfl (bind_of_ok (passes (by decide)) (bind_of_ok
      (passes (by decide)) (bind_of_ok rfl (bind_of_ok (rigid_one _) (bind_of_ok rfl (bind_of_ok (passes bounded) rfl)))))))))
  have rays : row.transformed.all (fun p => (rayOf settings row.origin p).toOption.isSome) = true := by decide +kernel
  refine ⟨seen, fun p mem => ?_⟩
  have found := List.all_eq_true.mp rays p mem
  cases traced : rayOf settings row.origin p with
  | ok ray => exact ⟨ray, rfl⟩
  | error err =>
    rw [traced] at found
    cases found

theorem agrees : Agree settings [row] := ⟨List.nodup_singleton _, by simp, by decide⟩

end Bench

/-- The endpoint and its ray are more than one voxel. -/
theorem bench_map_laws : buildMap Bench.dumps Bench.graph [Bench.frame] Bench.config = .error (.map voxelLimit) :=
  ((map_laws Bench.prepared [Bench.frame]).2.2.1 [Bench.row] (.cons Bench.shows_row .nil) Bench.agrees).mpr (by decide +kernel)

end Smartwheel.Maps
