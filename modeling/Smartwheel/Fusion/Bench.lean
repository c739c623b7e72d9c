import Smartwheel.Fusion.Dual

/-! A fusion on the bench: two synthetic sensors 60 cm apart, and frames of one point each. -/
namespace Smartwheel.Fusion.Bench

def policy (maxQueue : Nat) (h : 0 < maxQueue) : Policy where
  maxQueue := maxQueue
  minPointsPerSource := 1
  counts_pos := ⟨by decide, h, by decide, by decide⟩
  ranges_pos := by decide +kernel
  bounds_pos := by decide +kernel
  range_lt := by decide +kernel

def apart : Transform := !![1, 0, 0, 0; 0, 1, 0, -6/10; 0, 0, 1, 0; 0, 0, 0, 1]

theorem left_ne_right : "L" ≠ "R" := by decide

theorem apart_calibrated : matrix (some apart) = .ok apart := by decide +kernel

def config (maxQueue : Nat) (h : 0 < maxQueue) : Config where
  policy := policy maxQueue h
  sessionId := "bench"
  sensorIds := fun
    | .left => "L"
    | .right => "R"
  clockModelIds := fun _ => "clock"
  calibrationId := "calibration"
  sourceMode := .synthetic
  leftRight := apart
  sensors_ne := left_ne_right
  calibrated := apart_calibrated

def still : History where
  requiresPrediction := false
  mode := "history_constant_velocity"
  predict _ := .error "PREDICTION_NEEDS_COMPLETED_HISTORY"

def frame (side : Side) (seq stamp : Int) : Frame where
  side := some side
  sensorId := .ok ((config 1 (by decide)).sensorIds side)
  sessionId := .ok "bench"
  clockModelId := .ok "clock"
  timeValid := .ok true
  uncertaintyNs := some (.ok 0)
  timeSource := .ok "synthetic"
  commonTimeNs := .ok stamp
  hostMonotonicNs := .ok 0
  streamEpoch := "boot"
  frameSequence := .ok seq
  points := .ok [⟨some 1, some 2, some 2⟩]
  originalPoints := .error .missing
  representation := none
  filterConfigHash := none
  originalConfigHash := none
  sourceConfigHash := none

def arrive (side : Side) (seq stamp : Int) : Operation := .push (frame side seq stamp) 0 still

def pairs : List Operation :=
  [arrive .left 1 1000, arrive .right 1 1000, arrive .left 2 2000, arrive .right 2 2000, arrive .left 1 1000]

def resent : List Operation :=
  [arrive .left 1 1000, arrive .right 1 1000] ++
    (List.range 17).map (fun i => arrive .right (i + 2) (i + 2000)) ++ [arrive .left 1 1000]

def late : List Operation :=
  [arrive .left 1 1000, arrive .right 1 1000, arrive .left 3 3000, arrive .right 3 3000,
    arrive .left 2 2000, arrive .right 2 2000]

end Smartwheel.Fusion.Bench
