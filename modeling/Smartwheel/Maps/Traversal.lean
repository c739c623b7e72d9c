import Smartwheel.Maps.Crossings

/-! The loop of `_ray_cells` takes the crossings of a ray in groups. -/
namespace Smartwheel.Maps
open Sweep

def Adjacent (u v : Voxel) : Prop := ∀ a, (v a - u a).natAbs ≤ 1

namespace Ray
variable (ρ : Ray) (k : Axis → ℕ)

def times : Axis → WithTop ℚ := fun a => if sign (ρ.d a) = 0 then ⊤ else ↑(ρ.crossingTime a (k a))

def delta : Axis → WithTop ℚ := fun a => if sign (ρ.d a) = 0 then ⊤ else ↑(ρ.resolution / |ρ.d a|)

def advance : Axis → ℕ := fun a => if tied (ρ.times k a) (nextTime (ρ.times k)) then k a + 1 else k a

def walk (rounds : ℕ) (cells : List Voxel) : Except String (List Voxel) :=
  traverse (voxel ρ.resolution ρ.endpoint) (fun a => sign (ρ.d a)) ρ.delta rounds (ρ.cellAt k) (ρ.times k) cells

variable {ρ k} {a : Axis} {m : ℚ ×ₗ Bool} {rounds : ℕ} {cells : List Voxel}

theorem nextTime_le (t : Axis → WithTop ℚ) (a : Axis) : nextTime t ≤ t a := by
  unfold nextTime
  cases a with
  | x => exact (min_le_left _ _).trans (min_le_left _ _)
  | y => exact (min_le_left _ _).trans (min_le_right _ _)
  | z => exact min_le_right _ _

theorem nextTime_eq (next : ρ.events.Next k m) : nextTime (ρ.times k) = ↑(ofLex m).1 := by
  obtain ⟨⟨i, moves, same⟩, least⟩ := next
  have known : ρ.times k i = ↑(ofLex m).1 := by
    unfold times
    rw [if_neg moves, ← same]
    rfl
  have lower : ∀ a, ↑(ofLex m).1 ≤ ρ.times k a := fun a => by
    unfold times
    split
    · exact le_top
    · rename_i movesA
      rcases Prod.Lex.toLex_le_toLex.mp (least ⟨a, movesA, rfl⟩) with before | ⟨same, -⟩
      · exact WithTop.coe_le_coe.mpr before.le
      · exact WithTop.coe_le_coe.mpr same.le
  refine le_antisymm (known ▸ nextTime_le _ i) ?_
  exact le_min (le_min (lower .x) (lower .y)) (lower .z)

theorem tied_iff (next : ρ.events.Next k m) :
    tied (ρ.times k a) (nextTime (ρ.times k)) ↔ ρ.moving a ∧ ρ.events.tie m (ρ.crossing a (k a)) := by
  have below := nextTime_le (ρ.times k) a
  rw [nextTime_eq next] at below ⊢
  unfold times at below ⊢
  by_cases rests : sign (ρ.d a) = 0
  · rw [if_pos rests]
    have not_ : ¬tied ⊤ ↑(ofLex m).1 := by
      rintro (same | ⟨near, -⟩)
      · exact WithTop.top_ne_coe same
      · rw [← WithTop.coe_add] at near
        exact absurd near (WithTop.not_top_le_coe _)
    exact iff_of_false not_ fun h => h.1 rests
  · rw [if_neg rests] at below ⊢
    have order : (ofLex m).1 ≤ ρ.crossingTime a (k a) := WithTop.coe_le_coe.mp below
    have small : (0 : ℚ) < tolerance := by
      unfold tolerance
      norm_num
    constructor
    · rintro (same | ⟨near, -⟩)
      · refine ⟨rests, ?_⟩
        have equal := WithTop.coe_inj.mp same
        show ρ.crossingTime a (k a) ≤ (ofLex m).1 + tolerance
        linarith
      · exact ⟨rests, WithTop.coe_le_coe.mp near⟩
    · rintro ⟨-, near⟩
      refine .inr ⟨WithTop.coe_le_coe.mpr near, WithTop.coe_le_coe.mpr ?_⟩
      linarith

theorem advances (next : ρ.events.Next k m) : ρ.events.Advances m k (ρ.advance k) := fun a moves => by
  unfold advance
  by_cases tie : ρ.events.tie m (ρ.crossing a (k a))
  · exact .inl ⟨tie, if_pos ((tied_iff next).mpr ⟨moves, tie⟩)⟩
  · exact .inr ⟨tie, if_neg fun h => tie ((tied_iff next).mp h).2⟩

theorem cellAt_advance : ρ.cellAt (ρ.advance k) =
    fun a => if tied (ρ.times k a) (nextTime (ρ.times k)) then ρ.cellAt k a + sign (ρ.d a) else ρ.cellAt k a := by
  funext a
  unfold cellAt advance
  split
  · push_cast
    ring
  · rfl

theorem times_advance : ρ.times (ρ.advance k) =
    fun a => if tied (ρ.times k a) (nextTime (ρ.times k)) then ρ.times k a + ρ.delta a else ρ.times k a := by
  funext a
  conv_lhs => unfold times
  unfold advance
  split
  · rename_i rests
    have top : ρ.times k a = ⊤ := if_pos rests
    have more : ρ.times k a + ρ.delta a = ⊤ := by rw [top, top_add]
    rw [more, top, ite_self]
  · rename_i moves
    have known : ρ.times k a = ↑(ρ.crossingTime a (k a)) := if_neg moves
    have step : ρ.delta a = ↑(ρ.resolution / |ρ.d a|) := if_neg moves
    split
    · rw [known, step, crossingTime_succ moves, WithTop.coe_add]
    · exact known.symm

theorem walk_succ : ρ.walk k (rounds + 1) cells = if ρ.cellAt k = voxel ρ.resolution ρ.endpoint then .ok cells
    else ρ.walk (ρ.advance k) rounds
      (if ρ.cellAt (ρ.advance k) = voxel ρ.resolution ρ.endpoint then cells else cells ++ [ρ.cellAt (ρ.advance k)]) := by
  unfold walk
  rw [cellAt_advance, times_advance]
  rfl

theorem walk_append (rounds : ℕ) (k : Axis → ℕ) (cells : List Voxel) :
    ρ.walk k rounds cells = (ρ.walk k rounds []).map (cells ++ ·) := by
  induction rounds generalizing k cells with
  | zero => rfl
  | succ rounds ih =>
    rw [walk_succ, walk_succ]
    split
    · rw [Except.map, List.append_nil]
    · split
      · exact ih _ _
      · rw [ih _ (cells ++ _), ih _ ([] ++ _)]
        cases ρ.walk (ρ.advance k) rounds [] with
        | error e => rfl
        | ok rest =>
          simp only [Except.map]
          rw [List.nil_append, List.append_assoc]

theorem walk_ok_iff (away : ρ.cellAt k ≠ voxel ρ.resolution ρ.endpoint) :
    ρ.walk k (rounds + 1) [] = .ok cells ↔ ∃ rest, ρ.walk (ρ.advance k) rounds [] = .ok rest ∧
      cells = if ρ.cellAt (ρ.advance k) = voxel ρ.resolution ρ.endpoint then rest else ρ.cellAt (ρ.advance k) :: rest := by
  rw [walk_succ, if_neg away]
  split
  · constructor
    · intro ok
      exact ⟨cells, ok, rfl⟩
    · rintro ⟨rest, ok, rfl⟩
      exact ok
  · rw [walk_append]
    cases ρ.walk (ρ.advance k) rounds [] with
    | error e => constructor <;> simp [Except.map]
    | ok rest =>
      constructor
      · intro ok
        exact ⟨rest, rfl, (Except.ok.inj ok).symm⟩
      · rintro ⟨_, ok, rfl⟩
        obtain rfl := Except.ok.inj ok
        rfl

theorem walk_there (there : ρ.cellAt k = voxel ρ.resolution ρ.endpoint) (ok : ρ.walk k rounds [] = .ok cells) : cells = [] := by
  cases rounds with
  | zero => cases ok
  | succ rounds =>
    rw [walk_succ, if_pos there] at ok
    exact (Except.ok.inj ok).symm

theorem le_advance : k a ≤ ρ.advance k a := by
  unfold advance
  split <;> omega

theorem cellAt_inj {k' : Axis → ℕ} (same : ρ.cellAt k = ρ.cellAt k') (moves : ρ.moving a) : k a = k' a := by
  have at_ := congrFun same a
  unfold cellAt at at_
  rcases sign_cases moves with ⟨-, unit⟩ | ⟨-, unit⟩ <;> rw [unit] at at_ <;> omega

theorem cellAt_eq_iff {k' : Axis → ℕ} : ρ.cellAt k = ρ.cellAt k' ↔ ∀ a, ρ.moving a → k a = k' a := by
  constructor
  · intro same a moves
    exact cellAt_inj same moves
  · intro same
    funext a
    unfold cellAt
    by_cases moves : ρ.moving a
    · rw [same a moves]
    · rw [(resting moves).2, zero_mul, zero_mul]

theorem exists_next (k : Axis → ℕ) (moves : ρ.moving a) : ∃ m, ρ.events.Next k m := by
  classical
  have mem : a ∈ Finset.univ.filter ρ.moving := Finset.mem_filter.mpr ⟨Finset.mem_univ a, moves⟩
  obtain ⟨i, movesI, least⟩ := (Finset.univ.filter ρ.moving).exists_min_image (fun a => ρ.crossing a (k a)) ⟨a, mem⟩
  refine ⟨ρ.crossing i (k i), ⟨i, (Finset.mem_filter.mp movesI).2, rfl⟩, ?_⟩
  rintro x ⟨j, movesJ, rfl⟩
  exact least j (Finset.mem_filter.mpr ⟨Finset.mem_univ j, movesJ⟩)

theorem exists_away (away : ρ.cellAt k ≠ voxel ρ.resolution ρ.endpoint) : ∃ a, ρ.moving a ∧ k a ≠ ρ.count a := by
  rw [← cellAt_count, Ne, cellAt_eq_iff] at away
  push Not at away
  exact away

theorem exists_advance (away : ρ.cellAt k ≠ voxel ρ.resolution ρ.endpoint) : ∃ a, ρ.moving a ∧ k a < ρ.advance k a := by
  obtain ⟨b, movesB, -⟩ := exists_away away
  obtain ⟨m, next⟩ := exists_next k movesB
  obtain ⟨a, moves, same⟩ := next.1
  refine ⟨a, moves, ?_⟩
  rcases advances next a moves with ⟨-, step⟩ | ⟨free, -⟩
  · omega
  · refine absurd ?_ free
    rw [same]
    exact ρ.events.tie_self m

theorem walk_past (moves : ρ.moving a) (past : ρ.count a < k a) : ρ.walk k rounds [] ≠ .ok cells := by
  induction rounds generalizing k cells with
  | zero => exact nofun
  | succ rounds ih =>
    have away : ρ.cellAt k ≠ voxel ρ.resolution ρ.endpoint := by
      rw [← cellAt_count]
      intro there
      exact past.ne' (cellAt_inj there moves)
    rw [Ne, walk_ok_iff away]
    rintro ⟨rest, ok, -⟩
    exact ih (Nat.lt_of_lt_of_le past le_advance) ok

theorem adjacent_advance : Adjacent (ρ.cellAt k) (ρ.cellAt (ρ.advance k)) := fun a => by
  have unit : sign (ρ.d a) = 0 ∨ sign (ρ.d a) = 1 ∨ sign (ρ.d a) = -1 := by
    by_cases moves : ρ.moving a
    · exact .inr ((sign_cases moves).imp And.right And.right)
    · exact .inl (resting moves).2
  rw [cellAt_advance]
  dsimp only
  split <;> omega

theorem walk_chain (ok : ρ.walk k rounds [] = .ok cells) :
    (ρ.cellAt k :: (cells ++ [voxel ρ.resolution ρ.endpoint])).IsChain Adjacent := by
  induction rounds generalizing k cells with
  | zero => cases ok
  | succ rounds ih =>
    by_cases away : ρ.cellAt k = voxel ρ.resolution ρ.endpoint
    · rw [walk_there away ok, away, List.nil_append]
      refine .cons_cons (fun a => ?_) (.singleton _)
      rw [sub_self]
      exact Nat.zero_le 1
    · obtain ⟨rest, ok', rfl⟩ := (walk_ok_iff away).mp ok
      split
      · rename_i there
        rw [walk_there there ok', List.nil_append, ← there]
        exact .cons_cons adjacent_advance (.singleton _)
      · exact .cons_cons adjacent_advance (ih ok')

theorem walk_later (ok : ρ.walk k rounds [] = .ok cells) : ∀ cell ∈ cells, cell ≠ voxel ρ.resolution ρ.endpoint ∧
    ∃ k' : Axis → ℕ, cell = ρ.cellAt k' ∧ (∀ a, k a ≤ k' a) ∧ ∃ a, ρ.moving a ∧ k a < k' a := by
  induction rounds generalizing k cells with
  | zero => cases ok
  | succ rounds ih =>
    by_cases away : ρ.cellAt k = voxel ρ.resolution ρ.endpoint
    · rw [walk_there away ok]
      exact nofun
    · obtain ⟨rest, ok', rfl⟩ := (walk_ok_iff away).mp ok
      have later : ∀ cell ∈ rest, cell ≠ voxel ρ.resolution ρ.endpoint ∧
          ∃ k' : Axis → ℕ, cell = ρ.cellAt k' ∧ (∀ a, k a ≤ k' a) ∧ ∃ a, ρ.moving a ∧ k a < k' a := fun cell mem => by
        obtain ⟨off, k', same, past, a, moves, more⟩ := ih ok' cell mem
        exact ⟨off, k', same, fun b => le_advance.trans (past b), a, moves, lt_of_le_of_lt le_advance more⟩
      split
      · exact later
      · rename_i off
        intro cell mem
        rcases List.mem_cons.mp mem with rfl | mem
        · exact ⟨off, _, rfl, fun a => le_advance, exists_advance away⟩
        · exact later cell mem

theorem walk_nodup (ok : ρ.walk k rounds [] = .ok cells) : cells.Nodup := by
  induction rounds generalizing k cells with
  | zero => cases ok
  | succ rounds ih =>
    by_cases away : ρ.cellAt k = voxel ρ.resolution ρ.endpoint
    · rw [walk_there away ok]
      exact List.nodup_nil
    · obtain ⟨rest, ok', rfl⟩ := (walk_ok_iff away).mp ok
      split
      · exact ih ok'
      · refine List.nodup_cons.mpr ⟨fun mem => ?_, ih ok'⟩
        obtain ⟨-, k', same, -, a, moves, more⟩ := walk_later ok' _ mem
        exact more.ne (cellAt_inj same moves)

def left (ρ : Ray) (k : Axis → ℕ) : ℕ := (ρ.count .x - k .x) + (ρ.count .y - k .y) + (ρ.count .z - k .z)

theorem left_advance (within : ∀ a, ρ.moving a → ρ.advance k a ≤ ρ.count a)
    (away : ρ.cellAt k ≠ voxel ρ.resolution ρ.endpoint) : ρ.left (ρ.advance k) < ρ.left k := by
  obtain ⟨a, moves, more⟩ := exists_advance away
  have bound := within a moves
  have x : k .x ≤ ρ.advance k .x := le_advance
  have y : k .y ≤ ρ.advance k .y := le_advance
  have z : k .z ≤ ρ.advance k .z := le_advance
  unfold left
  cases a <;> omega

theorem walk_iff {k : Axis → ℕ} {m : ℚ ×ₗ Bool} (front : ρ.events.Front k) (within : ∀ a, ρ.moving a → k a ≤ ρ.count a)
    (next : ρ.events.Next k m) (enough : ρ.left k < rounds) :
    (∃ cells, ρ.walk k rounds [] = .ok cells ∧ ∀ cell ∈ cells, ρ.Meets cell) ↔ ρ.events.ClearFrom m := by
  induction rounds generalizing k m with
  | zero => exact absurd enough (Nat.not_lt_zero _)
  | succ rounds ih =>
    by_cases away : ρ.cellAt k = voxel ρ.resolution ρ.endpoint
    · -- every crossing that is left is past the endpoint
      have past : moment 1 < m := by
        obtain ⟨⟨i, moves, same⟩, -⟩ := next
        rw [← cellAt_count] at away
        have all := cellAt_inj away moves
        rw [← same]
        refine not_le.mp fun needed => ?_
        have more := (needed_iff moves).mp needed
        omega
      refine iff_of_true ⟨[], ?_, nofun⟩ (Events.clearFrom_past past)
      rw [walk_succ, if_pos away]
    obtain ⟨a, moves, more⟩ := exists_away away
    have before : m ≤ moment 1 := by
      have bound := within a moves
      exact (next.2 ⟨a, moves, rfl⟩).trans ((needed_iff moves).mpr (by omega))
    have steps := advances next
    rw [Events.clearFrom_iff before]
    constructor
    · rintro ⟨cells, ok, met⟩
      obtain ⟨rest, ok', rfl⟩ := (walk_ok_iff away).mp ok
      have within' : ∀ a, ρ.moving a → ρ.advance k a ≤ ρ.count a := fun a moves => by
        by_contra past
        exact walk_past moves (Nat.not_le.mp past) ok'
      have metNext : ρ.Meets (ρ.cellAt (ρ.advance k)) := by
        by_cases there : ρ.cellAt (ρ.advance k) = voxel ρ.resolution ρ.endpoint
        · refine ⟨1, zero_le_one, le_rfl, ?_⟩
          rw [point_one, there]
        · rw [if_neg there] at met
          exact met _ List.mem_cons_self
      have metRest : ∀ cell ∈ rest, ρ.Meets cell := fun cell mem => met cell (by split <;> simp [mem])
      have front' := front_of_meets metNext
      refine ⟨fun i n takes => ⟨?_, (front.advances_iff next steps).mp front' i n takes⟩, fun m' follows => ?_⟩
      · obtain ⟨moves, rfl, tie⟩ := (front.takes_iff next).mp takes
        refine (needed_iff moves).mpr ?_
        have bound := within' i moves
        rcases steps i moves with ⟨-, step⟩ | ⟨free, -⟩
        · omega
        · exact absurd tie free
      · have next' := (front.follows_iff next steps front' before).mp follows
        have fewer := left_advance within' away
        exact (ih front' within' next' (by omega)).mp ⟨rest, ok', metRest⟩
    · rintro ⟨clean, rest⟩
      have front' := (front.advances_iff next steps).mpr fun i n takes => (clean i n takes).2
      have within' : ∀ a, ρ.moving a → ρ.advance k a ≤ ρ.count a := fun a moves => by
        rcases steps a moves with ⟨tie, step⟩ | ⟨-, step⟩
        · have needed := (clean a (k a) ((front.takes_iff next).mpr ⟨moves, rfl, tie⟩)).1
          have more := (needed_iff moves).mp needed
          omega
        · have bound := within a moves
          omega
      obtain ⟨m', next'⟩ := exists_next (ρ.advance k) moves
      have follows := (front.follows_iff next steps front' before).mpr next'
      have fewer := left_advance within' away
      obtain ⟨cells, ok, met⟩ := (ih front' within' next' (by omega)).mpr (rest m' follows)
      refine ⟨_, (walk_ok_iff away).mpr ⟨cells, ok, rfl⟩, ?_⟩
      split
      · exact met
      · intro cell mem
        rcases List.mem_cons.mp mem with rfl | mem
        · exact meets_of_front front' within'
        · exact met cell mem

variable (ρ) in
structure Traces (cells : List Voxel) : Prop where
  origin : voxel ρ.resolution ρ.origin ∉ cells
  endpoint : voxel ρ.resolution ρ.endpoint ∉ cells
  nodup : cells.Nodup
  chain : (voxel ρ.resolution ρ.origin :: (cells ++ [voxel ρ.resolution ρ.endpoint])).IsChain Adjacent
  met : ∀ cell ∈ cells, ρ.Meets cell

theorem cellAt_zero : ρ.cellAt (fun _ => 0) = voxel ρ.resolution ρ.origin := by
  funext a
  unfold cellAt
  rw [Nat.cast_zero, mul_zero, add_zero]

/-- `_ray_cells` starts before the first crossing. -/
theorem rayCells_eq {maxCells : ℕ} (bound : countBound (voxel ρ.resolution ρ.origin) (voxel ρ.resolution ρ.endpoint) ≤ maxCells) :
    rayCells ρ.origin ρ.endpoint ρ.resolution maxCells =
      ρ.walk (fun _ => 0) (countBound (voxel ρ.resolution ρ.origin) (voxel ρ.resolution ρ.endpoint)) [] := by
  have start : ρ.times (fun _ => 0) = fun a => if sign (ρ.d a) = 0 then ⊤
      else ↑(((voxel ρ.resolution ρ.origin a + if 0 < sign (ρ.d a) then 1 else 0 : ℤ) * ρ.resolution - ρ.origin a) / ρ.d a) := by
    funext a
    unfold times crossingTime face
    rw [Nat.cast_zero, mul_zero, add_zero]
  unfold rayCells walk
  rw [if_neg (Nat.not_lt.mpr bound), cellAt_zero, start]
  rfl

theorem front_zero : ρ.events.Front fun _ => 0 := fun _ _ _ _ _ before => absurd before (Nat.not_lt_zero _)

theorem traces_iff {maxCells : ℕ} (bound : countBound (voxel ρ.resolution ρ.origin) (voxel ρ.resolution ρ.endpoint) ≤ maxCells)
    (ok : rayCells ρ.origin ρ.endpoint ρ.resolution maxCells = .ok cells) : ρ.Traces cells ↔ ∀ cell ∈ cells, ρ.Meets cell := by
  rw [rayCells_eq bound] at ok
  have later := walk_later ok
  have chain := walk_chain ok
  rw [cellAt_zero] at chain
  refine ⟨Traces.met, fun met => ⟨fun mem => ?_, fun mem => (later _ mem).1 rfl, walk_nodup ok, chain, met⟩⟩
  obtain ⟨-, k', same, -, a, moves, more⟩ := later _ mem
  rw [← cellAt_zero] at same
  exact more.ne (cellAt_inj same moves)

end Ray

/-- The voxels of a ray are traced exactly where no group of close crossings, up to the endpoint, goes past the endpoint
or past the second crossing of an axis. -/
theorem ray_traced_iff (ρ : Ray) (maxCells : ℕ)
    (bound : countBound (voxel ρ.resolution ρ.origin) (voxel ρ.resolution ρ.endpoint) ≤ maxCells) :
    (∃ cells, rayCells ρ.origin ρ.endpoint ρ.resolution maxCells = .ok cells ∧ ρ.Traces cells) ↔ ρ.events.Clear := by
  have meets : (∃ cells, rayCells ρ.origin ρ.endpoint ρ.resolution maxCells = .ok cells ∧ ρ.Traces cells) ↔
      ∃ cells, ρ.walk (fun _ => 0) (countBound (voxel ρ.resolution ρ.origin) (voxel ρ.resolution ρ.endpoint)) [] = .ok cells ∧
        ∀ cell ∈ cells, ρ.Meets cell := by
    rw [← Ray.rayCells_eq bound]
    exact exists_congr fun cells => and_congr_right fun ok => Ray.traces_iff bound ok
  rw [meets]
  by_cases moves : ∃ a, ρ.moving a
  · obtain ⟨a, moves⟩ := moves
    obtain ⟨m, next⟩ := Ray.exists_next (fun _ => 0) moves
    have enough : ρ.left (fun _ => 0) < countBound (voxel ρ.resolution ρ.origin) (voxel ρ.resolution ρ.endpoint) :=
      Nat.lt_succ_self _
    rw [Sweep.Events.clear_iff next]
    exact Ray.walk_iff Ray.front_zero (fun _ _ => Nat.zero_le _) next enough
  · have there : ρ.cellAt (fun _ => 0) = voxel ρ.resolution ρ.endpoint := by
      rw [← Ray.cellAt_count, Ray.cellAt_eq_iff]
      exact fun a moves' => absurd ⟨a, moves'⟩ moves
    refine iff_of_true ⟨[], ?_, nofun⟩ ?_
    · unfold countBound
      rw [Ray.walk_succ, if_pos there]
    · rintro m ⟨first, ⟨⟨a, n, moves', -⟩, -⟩, -⟩
      exact absurd ⟨a, moves'⟩ moves

/-! Two rays. -/

namespace Bench

def along : Ray := ⟨vec (1 / 2) (1 / 2) (1 / 2), vec (5 / 2) (1 / 2) (1 / 2), 1, one_pos⟩

def edge : Ray := ⟨vec (3 / 2) (1 / 2) (1 / 2), vec 1 1 (1 / 2), 1, one_pos⟩

def middle : Voxel
  | .x => 1
  | .y => 0
  | .z => 0

theorem along_ok : rayCells along.origin along.endpoint along.resolution 10 = .ok [middle] := by
  have found : (rayCells along.origin along.endpoint along.resolution 10).toOption.any (· = [middle]) = true := by
    decide +kernel
  cases returned : rayCells along.origin along.endpoint along.resolution 10 with
  | error e =>
    rw [returned] at found
    cases found
  | ok cells =>
    rw [returned] at found
    exact congrArg _ (of_decide_eq_true found)

theorem along_traced : along.Traces [middle] where
  origin := by decide +kernel
  endpoint := by decide +kernel
  nodup := List.nodup_singleton _
  chain := .cons_cons (by unfold Adjacent; decide +kernel) (.cons_cons (by unfold Adjacent; decide +kernel) (.singleton _))
  met := by
    rintro cell mem
    obtain rfl := List.mem_singleton.mp mem
    exact ⟨1 / 2, by decide +kernel, by decide +kernel, by decide +kernel⟩

end Bench

theorem bench_ray_traced : Bench.along.events.Clear :=
  (ray_traced_iff Bench.along 10 (by decide +kernel)).mp ⟨[Bench.middle], Bench.along_ok, Bench.along_traced⟩

/-- Two axes cross at the endpoint, and one of the crossings leads past it. -/
theorem ray_missed : rayCells Bench.edge.origin Bench.edge.endpoint 1 10 = .error "ray traversal did not reach its endpoint" ∧
    ¬∃ cells, rayCells Bench.edge.origin Bench.edge.endpoint Bench.edge.resolution 10 = .ok cells ∧ Bench.edge.Traces cells := by
  have missed : rayCells Bench.edge.origin Bench.edge.endpoint 1 10 = .error "ray traversal did not reach its endpoint" := by
    decide +kernel
  refine ⟨missed, ?_⟩
  rintro ⟨cells, ok, -⟩
  cases missed.symm.trans ok

end Smartwheel.Maps
