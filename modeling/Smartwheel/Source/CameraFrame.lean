import Mathlib.Algebra.Group.Int.Defs
import Mathlib.Data.Rat.Init
import Smartwheel.Archive.Durable
import Smartwheel.Effect.Check

/-! Decoded camera frames, the rows of their index, and `read_camera_frame`. -/
namespace Smartwheel.Source.Camera
open Archive (Path)

abbrev Bytes := List UInt8

def maxCameraDecodedBytes : Int := 64 * 1024 ^ 2

structure Inflated where
  decoded : Bytes
  eof : Bool
  unconsumedTail : Bytes
  unusedData : Bytes

/-- `zlib` and `hashlib`. `decompress` has the bytes and `max_length`, and no value for a `zlib.error`. -/
structure Codec where
  compress : Bytes → Bytes
  decompress : Bytes → Nat → Option Inflated
  sha256 : Bytes → String

structure Codec.Lossless (k : Codec) : Prop where
  inverts : ∀ data n, data.length < n → k.decompress (k.compress data) n = some ⟨data, true, [], []⟩
  some_ : ∀ data, 0 < (k.compress data).length
  bounded : ∀ data, (data.length : Int) ≤ maxCameraDecodedBytes →
    ((k.compress data).length : Int) ≤ maxCameraDecodedBytes + 65536

inductive Compression where
  | zlib | none
deriving DecidableEq, Repr

inductive Value where
  | int (n : Int)
  | float (q : ℚ)
  | text (s : String)
  | path (p : Path)
  | other
deriving DecidableEq

/-- `value == n`. -/
def Value.is : Value → Int → Bool
  | .int m, n => m = n
  | .float q, n => q = n
  | _, _ => false

def Value.positive : Value → Option Nat
  | .int n => if 0 < n then some n.toNat else none
  | _ => none

/-- What `read_camera_frame` reads of a row; a key that is absent is `none`. -/
structure Row where
  width : Option Value
  height : Option Value
  file : Option Value
  offset : Option Value
  length : Option Value
  compression : Option Value
  schemaVersion : Option Value
  uncompressedLength : Option Value
  storedSha256 : Option Value
  payloadSha256 : Option Value
deriving DecidableEq

inductive Refusal where
  | value (text : String)
  | key (name : String)
  | type (text : String)
deriving DecidableEq, Repr

structure Directory where
  isDir : Bool
  isSymlink : Path → Bool
  inside : Path → Bool
  file : Path → Option Bytes

def refuseIf (c : Prop) [Decidable c] (text : String) : Except Refusal Unit :=
  if c then .error (.value text) else .ok ()

/-- `row[name]`. -/
def item (value : Option Value) (name : String) : Except Refusal Value :=
  match value with
  | some value => .ok value
  | none => .error (.key name)

def needed {α : Type} (value : Option α) (text : String) : Except Refusal α :=
  match value with
  | some value => .ok value
  | none => .error (.value text)

def blockOf (offset length : Value) (maxDecodedBytes : Int) : Option (Nat × Nat) :=
  match offset, length with
  | .int offset, .int length =>
    if 0 ≤ offset ∧ 0 < length ∧ length ≤ maxDecodedBytes + 65536 then some (offset.toNat, length.toNat) else none
  | _, _ => none

/-- `Path(row['file'])`. -/
def pathOf (value : Value) : Except Refusal Path :=
  match value with
  | .path p => .ok p
  | _ => .error (.type "expected str, bytes or os.PathLike object")

section
variable (k : Codec)

/-- `hashlib.sha256(data).hexdigest() == value`. -/
def digestIs (data : Bytes) (value : Option Value) : Bool := value = some (.text (k.sha256 data))

def decode (row : Row) (stored : Bytes) (expected : Nat) : Except Refusal Bytes :=
  match row.compression.getD (.text "none") with
  | .text "none" => .ok stored
  | .text "zlib" => do
    refuseIf (row.schemaVersion ≠ some (.int 2) ∨ !row.uncompressedLength.any (·.is expected))
      "camera v2 decoded size metadata differs"
    refuseIf (!digestIs k stored row.storedSha256) "camera stored hash mismatch"
    let decoder ← needed (k.decompress stored (expected + 1)) "camera zlib stream invalid"
    refuseIf (decoder.decoded.length ≠ expected ∨ !decoder.eof ∨ decoder.unconsumedTail ≠ [] ∨ decoder.unusedData ≠ [])
      "camera compressed block truncated, oversized or contains trailing data"
    return decoder.decoded
  | _ => .error (.value "unsupported camera compression")

def checkStored (row : Row) (stored : Bytes) (expected : Nat) : Except Refusal Unit := do
  let schema := row.schemaVersion.getD (.int 1)
  refuseIf (schema ≠ .int 1 ∧ schema ≠ .int 2) "unsupported camera schema"
  refuseIf (row.schemaVersion = some (.int 2) ∧
      (!row.uncompressedLength.any (·.is expected) ∨ !digestIs k stored row.storedSha256))
    "camera v2 stored hash or decoded size metadata differs"

/-- The block of a row, which is `length` bytes. -/
def readBlock (d : Directory) (row : Row) (offset length : Nat) : Except Refusal Bytes := do
  refuseIf (!d.isDir) "camera archive directory absent"
  let path ← pathOf (← item row.file "file")
  refuseIf (path.isAbsolute ∨ ".." ∈ path.parts ∨ d.isSymlink path ∨ !d.inside path) "camera chunk outside archive"
  let bytes ← needed (d.file path) "camera chunk absent"
  let stored := (bytes.drop offset).take length
  refuseIf (stored.length ≠ length) "camera stored block truncated"
  return stored

/-- `read_camera_frame`. -/
def readCameraFrame (d : Directory) (row : Row) (maxDecodedBytes : Int) : Except Refusal Bytes := do
  refuseIf (¬(0 < maxDecodedBytes ∧ maxDecodedBytes ≤ maxCameraDecodedBytes)) "invalid camera decode limit"
  let width ← item row.width "width"
  let height ← item row.height "height"
  let width ← needed width.positive "camera dimensions must be positive integers"
  let height ← needed height.positive "camera dimensions must be positive integers"
  let expected := width * height * 3
  refuseIf (maxDecodedBytes < expected) "camera decoded size exceeds bound"
  let offset ← item row.offset "offset"
  let length ← item row.length "length"
  let (offset, length) ← needed (blockOf offset length maxDecodedBytes)
    "camera stored block exceeds bound or has invalid offset"
  let stored ← readBlock d row offset length
  checkStored k row stored expected
  let decoded ← decode k row stored expected
  refuseIf (decoded.length ≠ expected) "camera decoded bytes differ"
  let payload ← item row.payloadSha256 "payload_sha256"
  refuseIf (payload ≠ .text (k.sha256 decoded)) "camera decoded bytes differ"
  return decoded

end

structure Frame where
  data : Bytes
  width : Nat
  height : Nat
  width_pos : 0 < width
  height_pos : 0 < height
  size : data.length = width * height * 3
  bounded : (data.length : Int) ≤ maxCameraDecodedBytes
deriving DecidableEq

/-- What `append` is given; a size that is absent or no integer is `none`. -/
structure Given where
  data : Bytes
  width : Option Int
  height : Option Int
deriving DecidableEq

def Given.frame (g : Given) : Option Frame :=
  match g.width, g.height with
  | some (.ofNat width), some (.ofNat height) =>
    if h : 0 < width ∧ 0 < height ∧ g.data.length = width * height * 3 ∧ (g.data.length : Int) ≤ maxCameraDecodedBytes then
      some ⟨g.data, width, height, h.1, h.2.1, h.2.2.1, h.2.2.2⟩
    else none
  | _, _ => none

/-- `'%06d' % n`. -/
def decimal (n : Nat) : String :=
  let digits := Nat.toDigits 10 n
  String.ofList (List.replicate (6 - digits.length) '0' ++ digits)

def chunkName (n : Nat) : String := "frames-" ++ decimal n ++ ".bgr"

def chunkPath (n : Nat) : Path := ⟨false, [chunkName n]⟩

structure Entry where
  frame : Frame
  chunk : Nat
  offset : Nat
deriving DecidableEq

section
variable (k : Codec) (compression : Compression)

def stored (f : Frame) : Bytes :=
  match compression with
  | .zlib => k.compress f.data
  | .none => f.data

def Compression.name : Compression → String
  | .zlib => "zlib"
  | .none => "none"

def Entry.row (e : Entry) : Row where
  width := some (.int e.frame.width)
  height := some (.int e.frame.height)
  file := some (.path (chunkPath e.chunk))
  offset := some (.int e.offset)
  length := some (.int (stored k compression e.frame).length)
  compression := some (.text compression.name)
  schemaVersion := some (.int 2)
  uncompressedLength := some (.int e.frame.data.length)
  storedSha256 := some (.text (k.sha256 (stored k compression e.frame)))
  payloadSha256 := some (.text (k.sha256 e.frame.data))

end

end Smartwheel.Source.Camera
