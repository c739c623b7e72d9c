import Mathlib.Algebra.Order.Ring.Rat
import Smartwheel.Instances

/-! Values of JSON documents. Numbers are exact. -/
namespace Smartwheel.Calibration

/-- What `json` reads; an object has each key once. -/
inductive Value where
  | null
  | bool (b : Bool)
  | int (n : ℤ)
  | float (q : ℚ)
  | nonfinite
  | text (s : String)
  | list (items : List Value)
  | object (fields : List (String × Value))

abbrev Fields := List (String × Value)

namespace Value

def hashable : Value → Bool
  | .list _ | .object _ => false
  | _ => true

def isText (value : Value) (s : String) : Bool :=
  match value with
  | .text t => t == s
  | _ => false

def isNull : Value → Bool
  | .null => true
  | _ => false

end Value

/-- `fields.get(key)`. -/
def Fields.get (fields : Fields) (key : String) : Value := (fields.lookup key).getD .null

/-- `str.isspace` of one character. -/
def isSpace (c : Char) : Bool :=
  let n := c.toNat
  (9 ≤ n && n ≤ 13) || (28 ≤ n && n ≤ 32) || n = 133 || n = 160 || n = 5760 || (8192 ≤ n && n ≤ 8202) || n = 8232 ||
    n = 8233 || n = 8239 || n = 8287 || n = 12288

/-- `str.strip`. -/
def strip (s : String) : String :=
  String.ofList ((s.toList.dropWhile isSpace).reverse.dropWhile isSpace).reverse

end Smartwheel.Calibration
