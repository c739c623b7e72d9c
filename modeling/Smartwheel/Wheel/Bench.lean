import Smartwheel.Wheel.Step

/-! A wheel on the bench: two configurations with their bounds proved, and an environment that answers
every request at once, lets a tenth of a second pass with every step, and serves a script of packets. -/
namespace Smartwheel.Wheel.Bench
open Modbus

theorem linear_bounds : (1/1000 : ℚ) ≤ 1/10 ∧ (1/10 : ℚ) ≤ 15/100 := by decide +kernel

theorem angular_bounds : (1/1000 : ℚ) ≤ 2/10 ∧ (2/10 : ℚ) ≤ 3/10 := by decide +kernel

theorem rpm_bounds : (1/100 : ℚ) ≤ 89/10 ∧ (89/10 : ℚ) ≤ 100 := by decide +kernel

def control (armAllowed : Bool) (policy : InteractionPolicy) : Control where
  pi := 22/7
  sessionId := "bench"
  armAllowed := armAllowed
  reason := "bench"
  interactionPolicy := policy
  maxLinearMS := 1/10
  maxAngularRadS := 2/10
  commandRpmToRegisterScale := 89/10
  wheelRadiusM := 165/1000
  trackWidthM := 58/100
  leftSign := -1
  rightSign := 1
  timeout := 8/100
  maxLinear_bounds := linear_bounds
  maxAngular_bounds := angular_bounds
  scale_bounds := rpm_bounds
  timeout_bounds := by decide +kernel

def pending : History → Option Bytes
  | .write _ request _ :: _ => some request
  | .osRead :: _ => none
  | _ :: h => pending h
  | [] => none

def reply (request : Bytes) : Bytes :=
  if request = query then withCrc [1, 3, 4, 0, 0, 0, 0]
  else if functionCode request = 6 then request
  else withCrc (request.take 6)

def steps (h : History) : Nat := h.countP fun e => match e with
  | .stepBegin _ => true
  | _ => false

def pumps (h : History) : Nat := h.countP fun e => match e with
  | .pump => true
  | _ => false

def environment (script : List (List SocketEvent)) : Env where
  clock := fun h => 10 + steps h / 10
  cancelled := fun _ => false
  journal := fun _ _ => none
  checkHealth := fun _ => none
  selectRead := fun h _ => .ok (pending h).isSome
  selectWrite := fun _ _ => .ok true
  osRead := fun h => .ok (((pending h).map reply).getD [])
  osWrite := fun _ request => .ok (Fin.last request.length)
  preview := fun _ => none
  publish := fun _ => none
  pump := fun h => script.getD (pumps h) []

/-- A `keys` packet from the foreground. -/
def keys (sequence generation : Int) (held : List Key) : SocketEvent :=
  .packet { sessionId := some "bench", kind := .keys, sequence := some sequence,
            armGeneration := some generation, enabled := none, foreground := some true,
            keys := some (held.map some) }

/-- A `push_mode` packet. -/
def push (sequence generation : Int) (enabled : Bool) : SocketEvent :=
  .packet { sessionId := some "bench", kind := .pushMode, sequence := some sequence,
            armGeneration := some generation, enabled := some enabled, foreground := none, keys := none }

/-- `w` held, as the packet `sequence` of the generation says. -/
def hold (generation sequence : Nat) : List SocketEvent := [keys sequence generation [.w]]

def cycles (n : Nat) : List Operation := (List.replicate n [Operation.pump, Operation.step]).flatten

/-- A user connects and holds `w` from then on. -/
def driving : List (List SocketEvent) :=
  (.connect :: hold 0 1) :: (List.range 20).map fun i => hold 0 (i + 2)

/-- A user connects, holds `w` until the wheel has been enabled, and lets go. -/
def lettingGo : List (List SocketEvent) :=
  (.connect :: hold 0 1) :: (List.range 10).map (fun i => hold 0 (i + 2)) ++
    [keys 12 0 []] :: (List.range 20).map fun i => [keys (i + 13) 1 []]

/-- A user drives, asks for hand-push, takes it back and holds `w` again while the release is being
guarded, drives on, and is gone. -/
def tangling : List (List SocketEvent) :=
  (.connect :: hold 0 1) :: (List.range 12).map (fun i => hold 0 (i + 2)) ++
    [[push 20 0 true], [], [], [], [push 21 1 true, push 22 2 false, keys 23 3 [.w]]] ++
    (List.range 12).map (fun i => hold 3 (i + 24)) ++ [[.drop], []]

def severed : Env :=
  { environment [] with
    osWrite := fun h request => .ok (if steps h = 2 then ⟨min 3 request.length, by omega⟩ else Fin.last _) }

end Smartwheel.Wheel.Bench
