import Smartwheel.Manual.Session

/-! A controller on the bench: one contract with its bounds proved, and an environment that answers
every request at once. -/
namespace Smartwheel.Manual.Bench
open Modbus

def stateCheck (purpose : Purpose) : Check where
  purpose := purpose
  request := withCrc (readPayload 1 0x2000 1)
  wordIndex := 0
  mask := 1
  equals := 1
  reviewed := ⟨0x2000, 1, by decide, by decide, by decide, rfl, by decide⟩
  mask_nonzero := by decide
  equals_masked := by decide

def profile : Profile where
  wheelRadiusM := 165/1000
  trackWidthM := 58/100
  rpmToRegisterScale := 89/10
  registerToFeedbackRpm := 112/1000
  maxLinearMS := 1/10
  maxAngularRadS := 2/10
  maxWheelRpm := 30
  leftSign := -1
  rightSign := 1
  wheelRadius_bounds := by decide +kernel
  trackWidth_bounds := by decide +kernel
  rpmToRegister_bounds := by decide +kernel
  registerToFeedback_bounds := by decide +kernel
  maxLinear_bounds := by decide +kernel
  maxAngular_bounds := by decide +kernel
  maxWheel_bounds := by decide +kernel
  leftSign_unit := by decide
  rightSign_unit := by decide

def contract : ManualContract where
  pi := 22/7
  profile := profile
  transactionTimeout := 1/100
  keyTimeout := 1/2
  watchdogTimeout := 1/2
  period := 2/100
  stopTimeout := 1/10
  stationaryBound := 1
  checks := [.firmware, .driveEnabled, .velocityMode, .controllerWatchdog, .stopPolicy].map stateCheck
  pi_pos := by decide +kernel
  transactionTimeout_bounds := by decide +kernel
  keyTimeout_bounds := by decide +kernel
  watchdogTimeout_bounds := by decide +kernel
  period_bounds := by decide +kernel
  stopTimeout_bounds := by decide +kernel
  period_below := by decide +kernel
  transaction_below := by decide +kernel
  stationaryBound_le := by decide
  checks_required := by rintro (_ | _ | _ | _ | _) <;> simp [stateCheck]
  checks_length := rfl
  commandBudget_below := by decide +kernel

def reply (request : Bytes) : Bytes :=
  if functionCode request = 3 then
    withCrc ([1, 3, 2 * request.getD 5 0] ++ (List.replicate (countOf request).toNat [0, 1]).flatten)
  else withCrc (request.take 6)

def pending : History → Option Bytes
  | .write request _ :: _ => some request
  | .osRead :: _ => none
  | _ :: h => pending h
  | [] => none

def environment : Env where
  monotonic := fun _ => 10
  cancelCheck := fun _ => false
  journal := fun _ _ => none
  selectRead := fun h _ => .ok (pending h).isSome
  selectWrite := fun _ _ => .ok true
  osRead := fun h => .ok (((pending h).map reply).getD [])
  osWrite := fun _ request => .ok request.length
  sleep := fun _ _ => none
  osClose := fun _ => none
  lockClose := fun _ => none
  patience := 5

theorem environment_calm : environment.ExceptionsOnly where
  journal _ _ h := by cases h
  selectRead _ _ h := by cases h
  selectWrite _ _ h := by cases h
  osRead _ h := by cases h
  osWrite _ _ h := by cases h
  sleep _ _ h := by cases h
  osClose _ h := by cases h
  lockClose _ h := by cases h

def drive : List Operation := [.arm "e", .keyEvent "w" (some true) (some 10)]

def lossy : Env :=
  { environment with
    osRead := fun h => .ok (((pending h).filter fun request => functionCode request = 3).map reply |>.getD []) }

end Smartwheel.Manual.Bench
