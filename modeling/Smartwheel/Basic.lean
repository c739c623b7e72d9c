import Mathlib.Data.Rat.Floor

/-! What the drive programs share: their exceptions, bounded numbers and the direction keys. -/
namespace Smartwheel

/-- What code outside the modelled classes can raise: a `FeedbackError` or another `ValueError` (the
journals raise it), an `OSError`, or any other `Exception`. -/
inductive Fault where
  | feedback (message : String)
  | os (message : String)
  | other (message : String)
deriving DecidableEq, Repr

/-- The exceptions of the modelled code. `motionRejected`, `cancelled` and `superseded` are
subclasses of `FeedbackError`; `interrupt` is a `BaseException` that is no `Exception`. -/
inductive PyError where
  | fault (f : Fault)
  | motionRejected (message : String)
  | cancelled (message : String)
  | superseded (message : String)
  | interrupt
deriving DecidableEq, Repr

def PyError.isException : PyError → Bool
  | .interrupt => false
  | _ => true

def PyError.isMotionRejected : PyError → Bool
  | .motionRejected _ => true
  | _ => false

def PyError.isCancelled : PyError → Bool
  | .cancelled _ | .superseded _ => true
  | _ => false

def Fault.text : Fault → String
  | .feedback m | .os m | .other m => m

def PyError.text : PyError → String
  | .fault f => f.text
  | .motionRejected m | .cancelled m | .superseded m => m
  | .interrupt => ""

def feedbackError (message : String) : PyError := .fault (.feedback message)

def bounded (value : ℚ) (name : String) (low high : ℚ) : Except Fault Unit :=
  if low ≤ value ∧ value ≤ high then .ok ()
  else .error (.feedback s!"{name} must be finite in [{low}, {high}]")

/-- Python's `round`: nearest integer, ties to even. -/
def roundHalfEven (q : ℚ) : Int :=
  let below := ⌊q⌋
  let rest := q - below
  if rest < 1/2 then below
  else if 1/2 < rest then below + 1
  else if below % 2 = 0 then below else below + 1

inductive Key where
  | w | a | s | d
deriving DecidableEq, Repr

/-- `int(p) - int(q)` of two booleans. -/
def direction (p q : Bool) : ℚ := (if p then 1 else 0) - (if q then 1 else 0)

end Smartwheel
