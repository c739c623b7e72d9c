import Mathlib.Algebra.Group.Int.Defs
import Mathlib.Algebra.Group.Nat.Defs
import Mathlib.Data.Fin.Basic
import Mathlib.Data.Rat.Defs
import Mathlib.Logic.Function.Basic
import Smartwheel.Effect.Program

/-! The worker of `rl_worker.cpp`: a command a line on its input, answered on its output. -/
namespace Smartwheel.EkfWorker
open Effect

abbrev Byte := UInt8

def bytes (text : String) : List Byte := text.toList.map fun c => UInt8.ofNat c.toNat

/-! ### The text of a line -/

/-- `isspace`. -/
def isSpace (b : Byte) : Bool := b == 32 || (9 ≤ b && b ≤ 13)

def isDigit (b : Byte) : Bool := 48 ≤ b && b ≤ 57

def isSign (b : Byte) : Bool := b == 43 || b == 45

/-- `in >> op`: a word, and what follows it. There need not be one. -/
def word (text : List Byte) : List Byte × List Byte := (text.dropWhile isSpace).span fun b => !isSpace b

def decimal (digits : List Byte) : ℤ := digits.foldl (fun n b => 10 * n + (b.toNat - 48)) 0

/-- `in >> value` of an `int`. -/
def extractInt (text : List Byte) : Option (ℤ × List Byte) :=
  let text := text.dropWhile isSpace
  let negative := text.head? == some 45
  let unsigned := if text.head?.any isSign then text.tail else text
  let (digits, rest) := unsigned.span isDigit
  let value := if negative then -decimal digits else decimal digits
  if digits ≠ [] ∧ -2^31 ≤ value ∧ value < 2^31 then some (value, rest) else none

def floatToken : Bool → Bool → Bool → List Byte → List Byte × List Byte
  | _, _, _, [] => ([], [])
  | point, exponent, mantissa, b :: rest =>
    if isDigit b then
      let (token, rest) := floatToken point exponent true rest
      (b :: token, rest)
    else if b == 46 ∧ ¬point ∧ ¬exponent then
      let (token, rest) := floatToken true exponent mantissa rest
      (b :: token, rest)
    else if (b == 101 ∨ b == 69) ∧ ¬exponent ∧ mantissa then
      match rest with
      | [] => ([b], [])
      | s :: rest' =>
        if isSign s then
          let (token, rest) := floatToken point true mantissa rest'
          (b :: s :: token, rest)
        else
          let (token, rest) := floatToken point true mantissa (s :: rest')
          (b :: token, rest)
    else ([], b :: rest)

def signedToken (text : List Byte) : List Byte × List Byte :=
  match text with
  | [] => ([], [])
  | b :: rest =>
    if isSign b then
      let (token, rest) := floatToken false false false rest
      (b :: token, rest)
    else floatToken false false false (b :: rest)

/-! ### Filters -/

/-- The size of the state of the filter. -/
abbrev N : ℕ := 15

structure Measurement (δ : Type) where
  topicName : String
  time : ℤ
  measurement : Fin N → δ
  covariance : Fin N → Fin N → δ
  updateVector : Fin N → Bool
  mahalanobisThresh : δ

/-- `robot_localization::Ekf`, and what of floating-point arithmetic goes beyond the operators. -/
structure Library (δ Φ : Type) where
  /-- The conversion of a token, where it is one of a number. -/
  strtod : List Byte → Option δ
  isfinite : δ → Bool
  /-- A literal. -/
  real : ℚ → δ
  abs : δ → δ
  sqrt : δ → δ
  llround : δ → ℤ
  /-- `innovation.dot(S.ldlt().solve(innovation))`. -/
  nis : List (List δ) → List δ → δ
  fresh : Φ
  setState : (Fin N → δ) → Φ → Φ
  setEstimateErrorCovariance : (Fin N → Fin N → δ) → Φ → Φ
  setProcessNoiseCovariance : (Fin N → Fin N → δ) → Φ → Φ
  setUseDynamicProcessNoiseCovariance : Bool → Φ → Φ
  setLastMeasurementTime : ℤ → Φ → Φ
  setSensorTimeout : δ → Φ → Φ
  getState : Φ → Fin N → δ
  getEstimateErrorCovariance : Φ → Fin N → Fin N → δ
  getProcessNoiseCovariance : Φ → Fin N → Fin N → δ
  getInitializedStatus : Φ → Bool
  predict : ℤ → ℤ → Φ → Φ
  processMeasurement : Measurement δ → Φ → Φ

structure State (Φ : Type) where
  filter : Φ
  ns : ℤ

inductive Response (δ : Type) where
  | ok
  | capabilities
  | update (accepted : Bool) (nis : δ) (innovation : List δ)
  | state (ns : ℤ) (x : List δ) (p : List (List δ))
  | error (what : String)

def Response.isError {δ : Type} : Response δ → Bool
  | .error _ => true
  | _ => false

structure World (δ Φ : Type) where
  input : List Byte
  states : ℤ → Option (State Φ)
  output : List (Response δ)

/-- `const std::vector<int> constrained`. -/
def constrained : List (Fin N) := [2, 3, 4, 8, 9, 10, 14]

section worker
variable {δ Φ : Type} [Add δ] [Sub δ] [Mul δ] [Div δ] [LE δ] [LT δ] [DecidableLE δ] [DecidableLT δ] (lib : Library δ Φ)

/-- `in >> value` of a `double`. -/
def extractDouble (text : List Byte) : Option (δ × List Byte) :=
  let (token, rest) := signedToken (text.dropWhile isSpace)
  (lib.strtod token).map fun value => (value, rest)

def number : Program (World δ Φ) String δ := do
  let w ← .get
  let (value, rest) ← .need ((extractDouble lib w.input).filter fun v => lib.isfinite v.1) "finite numeric argument required"
  .modify fun w => { w with input := rest }
  return value

def integer : Program (World δ Φ) String ℤ := do
  let w ← .get
  let (value, rest) ← .need ((extractInt w.input).filter fun v => 0 ≤ v.1) "nonnegative state id required"
  .modify fun w => { w with input := rest }
  return value

def print (response : Response δ) : Program (World δ Φ) String Unit :=
  .modify fun w => { w with output := w.output ++ [response] }

/-- `states.at(id)`. -/
def stateAt (id : ℤ) : Program (World δ Φ) String (State Φ) := do
  let w ← .get
  .need (w.states id) "map::at"

def assign (id : ℤ) (s : State Φ) : Program (World δ Φ) String Unit :=
  .modify fun w => { w with states := Function.update w.states id (some s) }

def numbers (bad : δ → Prop) [DecidablePred bad] (error : String) : ℕ → Program (World δ Φ) String (List δ)
  | 0 => pure []
  | n + 1 => do
    let value ← number lib
    .raiseIf (bad value) error
    let others ← numbers bad error n
    return value :: others

def vector (values : List δ) (i : Fin N) : δ := values.getD i (lib.real 0)

def diagonal (values : List δ) (i j : Fin N) : δ := if i = j then vector lib values i else lib.real 0

/-- `AuditEkf::initialize`. -/
def auditInitialize (x : Fin N → δ) (p q : Fin N → Fin N → δ) (filter : Φ) : Φ :=
  lib.setSensorTimeout (lib.real 1000000) (lib.setLastMeasurementTime 0 (lib.setUseDynamicProcessNoiseCovariance false
    (lib.setProcessNoiseCovariance q (lib.setEstimateErrorCovariance p (lib.setState x filter)))))

def new (id : ℤ) : Program (World δ Φ) String Unit := do
  let w ← .get
  .raiseIf ((w.states id).isSome = true) "state already exists"
  let x ← numbers lib (fun _ => False) "" N
  let p ← numbers lib (fun v => v ≤ lib.real 0) "positive initial covariance required" N
  let q ← numbers lib (fun v => v < lib.real 0) "nonnegative process covariance required" N
  assign id ⟨auditInitialize lib (vector lib x) (diagonal lib p) (diagonal lib q) lib.fresh, 0⟩
  print .ok

def clone (id : ℤ) : Program (World δ Φ) String Unit := do
  let destination ← integer
  let w ← .get
  .raiseIf ((w.states destination).isSome = true) "clone destination exists"
  let s ← stateAt id
  assign destination s
  print .ok

def drop (id : ℤ) : Program (World δ Φ) String Unit := do
  .modify fun w => { w with states := Function.update w.states id none }
  print .ok

def decorrelated (p : Fin N → Fin N → δ) (i j : Fin N) : δ :=
  if (i < 6 ∧ 6 ≤ j) ∨ (j < 6 ∧ 6 ≤ i) then lib.real 0 else p i j

def predict (id : ℤ) : Program (World δ Φ) String Unit := do
  let s ← stateAt id
  let dt ← number lib
  let observed ← integer
  .raiseIf (dt < lib.real 0 ∨ lib.real 1000000 < dt ∨ 1 < observed) "invalid interval"
  let dns := lib.llround (dt * lib.real 1000000000)
  let ns := (s.ns + dns).bmod (2^64)
  let filter := s.filter
  let filter := if observed ≠ 0 ∧ dns ≠ 0 ∧ lib.getInitializedStatus filter then lib.predict ns dns filter else filter
  -- a time without observations: the pose stays, its covariance grows
  let filter := if observed = 0 ∧ dns ≠ 0 then
      let p := decorrelated lib (lib.getEstimateErrorCovariance filter)
      lib.setEstimateErrorCovariance (fun i j => p i j + lib.getProcessNoiseCovariance filter i j * dt) filter
    else filter
  assign id ⟨lib.setLastMeasurementTime ns filter, ns⟩
  print .ok

def decorrelate (id : ℤ) : Program (World δ Φ) String Unit := do
  let s ← stateAt id
  let p := decorrelated lib (lib.getEstimateErrorCovariance s.filter)
  assign id { s with filter := lib.setEstimateErrorCovariance p s.filter }
  print .ok

/-- The entry of a list by the position of `i` among `indices`. -/
def entry (indices : List (Fin N)) (values : List δ) (i : Fin N) : δ := values.getD (indices.idxOf i) (lib.real 0)

def fullCovariance (vv vw ww : δ) (i j : Fin N) : δ :=
  if i = 6 ∧ j = 6 then vv else if i = 11 ∧ j = 11 then ww
  else if (i = 6 ∧ j = 11) ∨ (i = 11 ∧ j = 6) then vw else lib.real 0

def variancesOnly (indices : List (Fin N)) (variances : List δ) (i j : Fin N) : δ :=
  if i = j ∧ i ∈ indices then entry lib indices variances i else lib.real 0

def covariance (op : List Byte) (indices : List (Fin N)) : Program (World δ Φ) String (Fin N → Fin N → δ) :=
  if op = bytes "wheel_cov_v1" then do
    let vv ← number lib
    let vw ← number lib
    let ww ← number lib
    .raiseIf (¬(lib.real 0 < vv ∧ lib.real 0 < ww ∧ lib.abs vw / lib.sqrt vv / lib.sqrt ww < lib.real 1))
      "positive definite full wheel covariance required"
    return fullCovariance lib vv vw ww
  else do
    let variances ← numbers lib (fun v => v ≤ lib.real 0) "positive measurement variance required" indices.length
    return variancesOnly lib indices variances

def measuredIndices (op : List Byte) : List (Fin N) := if op ≠ bytes "gyro" then [6, 11] else [11]

/-- `wheel`, `wheel_cov_v1` and `gyro`. -/
def measure (op : List Byte) (id : ℤ) : Program (World δ Φ) String Unit := do
  let s ← stateAt id
  let sigma ← number lib
  let indices := measuredIndices op
  let measured ← numbers lib (fun _ => False) "" indices.length
  let given ← covariance lib op indices
  let m : Measurement δ :=
    { topicName := if op ≠ bytes "gyro" then "wheel" else "gyro"
      time := s.ns
      mahalanobisThresh := sigma
      measurement := fun i => if i ∈ indices then entry lib indices measured i else lib.real 0
      -- the seven dimensions that are held at zero
      covariance := fun i j => if i = j ∧ i ∈ constrained then lib.real (1 / 1000000) else given i j
      updateVector := fun i => i ∈ indices ++ constrained }
  let active := indices ++ constrained
  let x := lib.getState s.filter
  let p := lib.getEstimateErrorCovariance s.filter
  let innovation := active.map fun i => m.measurement i - x i
  let nis := lib.nis (active.map fun i => active.map fun j => p i j + m.covariance i j) innovation
  let wasInitialized := lib.getInitializedStatus s.filter
  assign id { s with filter := lib.processMeasurement m s.filter }
  print (.update (!wasInitialized || (lib.isfinite nis && decide (nis < sigma * sigma))) nis innovation)

def get (id : ℤ) : Program (World δ Φ) String Unit := do
  let s ← stateAt id
  let axes := List.finRange N
  let p := lib.getEstimateErrorCovariance s.filter
  print (.state s.ns (axes.map (lib.getState s.filter)) (axes.map fun i => axes.map (p i)))

def operation (op : List Byte) (id : ℤ) : Program (World δ Φ) String Unit :=
  if op = bytes "new" then new lib id
  else if op = bytes "clone" then clone id
  else if op = bytes "drop" then drop id
  else if op = bytes "predict" then predict lib id
  else if op = bytes "decorrelate" then decorrelate lib id
  else if op = bytes "wheel" ∨ op = bytes "wheel_cov_v1" ∨ op = bytes "gyro" then measure lib op id
  else if op = bytes "get" then get lib id
  else .raise "unknown operation"

/-- `in >> trailing`: only spaces are left where it fails. -/
def blank (text : List Byte) : Bool := text.all isSpace

def noTrailing (error : String) : Program (World δ Φ) String Unit := do
  let w ← .get
  .raiseIf (blank w.input = false) error

/-- The `try` block, where the line is not to quit. -/
def command (op : List Byte) : Program (World δ Φ) String Unit :=
  if op = bytes "capabilities" then do
    noTrailing "unexpected capabilities argument"
    print .capabilities
  else do
    let id ← integer
    operation lib op id
    noTrailing "unexpected trailing argument"

def serve (line : List Byte) : Program (World δ Φ) String Bool := do
  let (op, rest) := word line
  if op = bytes "quit" then do
    print .ok
    return true
  else do
    .modify fun w => { w with input := rest }
    (command lib op).handle fun e => print (.error e)
    return false

/-- The loop of `main`. -/
def mainLoop : List (List Byte) → Program (World δ Φ) String Unit
  | [] => pure ()
  | line :: rest => do
    let quit ← serve lib line
    if quit then pure () else mainLoop rest

def World.initial : World δ Φ := ⟨[], fun _ => none, []⟩

end worker

end Smartwheel.EkfWorker
