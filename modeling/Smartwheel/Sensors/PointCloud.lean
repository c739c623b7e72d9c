import Mathlib.Data.Nat.Digits.Lemmas
import Smartwheel.Calibration.Value
import Smartwheel.Disk.Tiling
import Smartwheel.Effect.Check

/-! `PointCloud2`: what layouts the validator accepts, and how points are read from the bytes of a message. -/
namespace Smartwheel.Sensors.PointCloud
open Effect
open Smartwheel.Calibration (Value)

abbrev Bytes := List UInt8

structure RawField where
  name : Value
  offset : Value
  datatype : Value
  count : Value

/-- A `PointCloud2`, as it comes. -/
structure Message where
  width : Value
  height : Value
  pointStep : Value
  rowStep : Value
  isBigendian : Value
  data : Bytes
  fields : List RawField

structure Field where
  offset : ℕ
  datatype : ℕ
  count : ℕ
  dtype : String
deriving DecidableEq

structure Layout where
  width : ℕ
  height : ℕ
  pointStep : ℕ
  rowStep : ℕ
  isBigendian : Bool
  fields : List (String × Field)
  pointCount : ℕ

/-- `_DTYPES`: the name and the size of a datatype. -/
def dtypes : List (ℕ × String × ℕ) :=
  [(1, "i1", 1), (2, "u1", 1), (3, "i2", 2), (4, "u2", 2), (5, "i4", 4), (6, "u4", 4), (7, "f4", 4), (8, "f8", 8)]

def sizeOf (datatype : ℕ) : ℕ := ((dtypes.lookup datatype).map Prod.snd).getD 0

/-- `_nonnegative_int`. -/
def nonnegativeInt (value : Value) (name : String) : Except String ℕ :=
  match value with
  | .int n => if n < 0 then .error (name ++ " must be nonnegative") else .ok n.toNat
  | _ => .error (name ++ " must be integer")

def fieldName (value : Value) (fields : List (String × Field)) : Except String String :=
  match value with
  | .text name => do
    refuse (name = "" ∨ (fields.lookup name).isSome) "empty or duplicate field name"
    return name
  | _ => .error "empty or duplicate field name"

def fieldsOf (pointStep : ℕ) : List RawField → List (String × Field) → List (ℕ × ℕ) → Except String (List (String × Field))
  | [], fields, _ => return fields
  | field :: rest, fields, ranges => do
    let name ← fieldName field.name fields
    let offset ← nonnegativeInt field.offset "offset"
    let datatype ← nonnegativeInt field.datatype "datatype"
    let count ← nonnegativeInt field.count "count"
    match dtypes.lookup datatype with
    | none => .error "unsupported datatype or zero count"
    | some (dtype, size) => do
      refuse (count = 0) "unsupported datatype or zero count"
      let stop := offset + count * size
      refuse (pointStep < stop ∨ ∃ old ∈ ranges, offset < old.2 ∧ old.1 < stop)
        "field exceeds point stride or overlaps another field"
      fieldsOf pointStep rest (fields ++ [(name, ⟨offset, datatype, count, dtype⟩)]) (ranges ++ [(offset, stop)])

/-- A coordinate is one `FLOAT32` or `FLOAT64`. -/
def scalar (fields : List (String × Field)) (name : String) : Except String Unit :=
  match fields.lookup name with
  | some field => refuse (field.count ≠ 1 ∨ field.datatype ∉ [7, 8]) "XYZ fields must be scalar FLOAT32 or FLOAT64"
  | none => .error "XYZ fields must be scalar FLOAT32 or FLOAT64"

/-- `validate_pointcloud2`. -/
def validate (message : Message) : Except String Layout := do
  let width ← nonnegativeInt message.width "width"
  let height ← nonnegativeInt message.height "height"
  let pointStep ← nonnegativeInt message.pointStep "point_step"
  let rowStep ← nonnegativeInt message.rowStep "row_step"
  refuse (height < 1 ∨ pointStep < 1 ∨ rowStep < width * pointStep) "invalid dimensions or point/row stride"
  match message.isBigendian with
  | .bool endian => do
    refuse (message.data.length ≠ rowStep * height) "data length does not equal row_step*height"
    let fields ← fieldsOf pointStep message.fields [] []
    scalar fields "x"
    scalar fields "y"
    scalar fields "z"
    return ⟨width, height, pointStep, rowStep, endian, fields, width * height⟩
  | _ => .error "is_bigendian must be bool"

/-- Where the first byte of a field of the point in row `r` and column `c` lies. -/
def Layout.address (layout : Layout) (field : Field) (r c : ℕ) : ℕ :=
  field.offset + r * layout.rowStep + c * layout.pointStep

def Layout.cells (layout : Layout) : List (ℕ × ℕ) :=
  (List.range layout.height).flatMap fun r => (List.range layout.width).map fun c => (r, c)

def word (big : Bool) (bytes : Bytes) : ℕ := Nat.ofDigits 256 ((if big then bytes.reverse else bytes).map UInt8.toNat)

section decode
variable {F : Type}
-- what a number of so many bytes is as a double
variable (number : ℕ → ℕ → F)

def valueAt (layout : Layout) (storage : Bytes) (field : Field) (cell : ℕ × ℕ) : F :=
  let size := sizeOf field.datatype
  number size (word layout.isBigendian ((storage.drop (layout.address field cell.1 cell.2)).take size))

def element (layout : Layout) (storage : Bytes) (field : Field) (cell : ℕ × ℕ) : Except String F :=
  if layout.address field cell.1 cell.2 + sizeOf field.datatype ≤ storage.length then .ok (valueAt number layout storage field cell)
  else .error "buffer is too small for requested array"

def column (layout : Layout) (storage : Bytes) (name : String) : Except String (List F) :=
  match layout.fields.lookup name with
  | some field => layout.cells.mapM (element number layout storage field)
  | none => .error name

/-- `decode_pointcloud2`. -/
def decode (message : Message) : Except String (List (F × F × F)) := do
  let layout ← validate message
  if layout.pointCount = 0 then return []
  let xs ← column number layout message.data "x"
  let ys ← column number layout message.data "y"
  let zs ← column number layout message.data "z"
  return xs.zip (ys.zip zs)

end decode

/-! ### The validator -/

def Apart (f g : Field) : Prop :=
  f.offset + f.count * sizeOf f.datatype ≤ g.offset ∨ g.offset + g.count * sizeOf g.datatype ≤ f.offset

structure Field.Inside (f : Field) (pointStep : ℕ) : Prop where
  some_ : 1 ≤ f.count
  known : 1 ≤ sizeOf f.datatype
  stop : f.offset + f.count * sizeOf f.datatype ≤ pointStep

def Layout.Axis (layout : Layout) (name : String) (f : Field) : Prop :=
  layout.fields.lookup name = some f ∧ f.count = 1 ∧ f.datatype ∈ [7, 8]

structure Layout.Sound (layout : Layout) (data : Bytes) : Prop where
  height : 1 ≤ layout.height
  row : layout.width * layout.pointStep ≤ layout.rowStep
  data : data.length = layout.rowStep * layout.height
  points : layout.pointCount = layout.width * layout.height
  inside : ∀ field ∈ layout.fields, field.2.Inside layout.pointStep
  apart : layout.fields.Pairwise fun f g => f.1 ≠ g.1 ∧ Apart f.2 g.2
  axes : ∀ name ∈ ["x", "y", "z"], ∃ f, layout.Axis name f

section validate
variable {message : Message} {layout : Layout} {pointStep : ℕ} {fields fields' : List (String × Field)}

theorem sizeOf_pos {datatype : ℕ} {entry : String × ℕ} (found : dtypes.lookup datatype = some entry) :
    sizeOf datatype = entry.2 ∧ 1 ≤ entry.2 := by
  have known : ∀ d ∈ dtypes, 1 ≤ d.2.2 := by decide
  refine ⟨by simp [sizeOf, found], ?_⟩
  obtain ⟨before, after, parts, -⟩ := List.lookup_eq_some_iff.mp found
  exact known (datatype, entry) (by simp [parts])

theorem fieldsOf_ok (raw : List RawField) {ranges : List (ℕ × ℕ)} (h : fieldsOf pointStep raw fields ranges = .ok fields')
    (same : ranges = fields.map fun f => (f.2.offset, f.2.offset + f.2.count * sizeOf f.2.datatype))
    (inside : ∀ field ∈ fields, field.2.Inside pointStep)
    (apart : fields.Pairwise fun f g => f.1 ≠ g.1 ∧ Apart f.2 g.2) :
    (∀ field ∈ fields', field.2.Inside pointStep) ∧ fields'.Pairwise fun f g => f.1 ≠ g.1 ∧ Apart f.2 g.2 := by
  induction raw generalizing fields ranges with
  | nil =>
    cases h
    exact ⟨inside, apart⟩
  | cons field rest ih =>
    unfold fieldsOf at h
    simp only [bind_eq_ok_iff] at h
    obtain ⟨name, named, offset, -, datatype, -, count, -, h⟩ := h
    cases found : dtypes.lookup datatype with
    | none =>
      rw [found] at h
      cases h
    | some entry =>
      obtain ⟨size, positive⟩ := sizeOf_pos found
      rw [found] at h
      obtain ⟨_, some_, h⟩ := bind_eq_ok h
      obtain ⟨_, apart', h⟩ := bind_eq_ok h
      have stop := refuse_ok apart'
      simp only [not_or, not_lt, not_exists, not_and] at stop
      refine ih h ?_ ?_ ?_
      · simp [same, size]
      · intro f there
        rcases List.mem_append.mp there with before | last
        · exact inside f before
        · rw [List.mem_singleton.mp last]
          exact ⟨Nat.one_le_iff_ne_zero.mpr (refuse_ok some_), by rw [size]; exact positive, by simpa [size] using stop.1⟩
      · refine List.pairwise_append.mpr ⟨apart, by simp, fun f there g last => ?_⟩
        rw [List.mem_singleton.mp last]
        have fresh : fields.lookup name = none := by
          unfold fieldName at named
          split at named
          next text =>
            obtain ⟨_, new, kept⟩ := bind_eq_ok named
            cases kept
            exact Option.not_isSome_iff_eq_none.mp (not_or.mp (refuse_ok new)).2
          next => cases named
        refine ⟨fun equal => ?_, ?_⟩
        · have missing := List.lookup_eq_none_iff.mp fresh f there
          simp [equal] at missing
        · have range := stop.2 (f.2.offset, f.2.offset + f.2.count * sizeOf f.2.datatype)
            (by rw [same]; exact List.mem_map_of_mem there)
          simp only [Apart, size]
          by_cases first : f.2.offset + f.2.count * sizeOf f.2.datatype ≤ offset
          · exact .inl first
          · exact .inr (range (by omega))

theorem scalar_ok {name : String} {u : Unit} (h : scalar fields name = .ok u) :
    ∃ f, fields.lookup name = some f ∧ f.count = 1 ∧ f.datatype ∈ [7, 8] := by
  unfold scalar at h
  split at h
  next f found =>
    obtain ⟨one, real⟩ := not_or.mp (refuse_ok h)
    exact ⟨f, found, not_not.mp one, not_not.mp real⟩
  next => cases h

theorem validate_sound (h : validate message = .ok layout) : layout.Sound message.data := by
  unfold validate at h
  simp only [bind_eq_ok_iff] at h
  obtain ⟨width, -, height, -, pointStep, -, rowStep, -, _, strides, h⟩ := h
  obtain ⟨tall, wide⟩ := not_or.mp (refuse_ok strides)
  split at h
  next endian =>
    simp only [bind_eq_ok_iff] at h
    obtain ⟨_, size, fields, scanned, _, x, _, y, _, z, h⟩ := h
    have same := Except.ok.inj h
    subst same
    obtain ⟨inside, apart⟩ := fieldsOf_ok message.fields scanned rfl (by simp) (by simp)
    refine ⟨Nat.not_lt.mp tall, Nat.not_lt.mp (not_or.mp wide).2, not_not.mp (refuse_ok size), rfl, inside, apart, fun name known => ?_⟩
    simp only [List.mem_cons, List.not_mem_nil, or_false] at known
    rcases known with rfl | rfl | rfl
    · exact scalar_ok x
    · exact scalar_ok y
    · exact scalar_ok z
  next => cases h

theorem validate_data (message : Message) (data : Bytes) (size : data.length = message.data.length) :
    validate { message with data := data } = validate message := by
  simp [validate, size]

end validate

/-! ### Places of points -/

section places
variable {layout : Layout} {data : Bytes} {f g : Field} {r c r' c' : ℕ}

theorem mem_cells {cell : ℕ × ℕ} : cell ∈ layout.cells ↔ cell.1 < layout.height ∧ cell.2 < layout.width := by
  obtain ⟨r, c⟩ := cell
  simp [Layout.cells]

theorem cells_nodup (layout : Layout) : layout.cells.Nodup := by
  refine List.nodup_flatMap.mpr ⟨fun r _ => ?_, ?_⟩
  · exact List.nodup_range.map fun c c' same => (Prod.mk.inj same).2
  · refine List.nodup_range.imp fun {r r'} differ cell here there => differ ?_
    obtain ⟨c, -, rfl⟩ := List.mem_map.mp here
    obtain ⟨c', -, same⟩ := List.mem_map.mp there
    exact (Prod.mk.inj same).1.symm

theorem address_row (sound : layout.Sound data) (inside : f.Inside layout.pointStep) (col : c < layout.width) :
    f.offset + c * layout.pointStep + f.count * sizeOf f.datatype ≤ layout.rowStep := by
  have point := Nat.mul_le_mul_right layout.pointStep (Nat.succ_le_of_lt col)
  rw [Nat.succ_mul] at point
  have stop := inside.stop
  have row := sound.row
  omega

theorem address_inside (sound : layout.Sound data) (inside : f.Inside layout.pointStep) (row : r < layout.height)
    (col : c < layout.width) : layout.address f r c + f.count * sizeOf f.datatype ≤ data.length := by
  have before := Nat.mul_le_mul_right layout.rowStep (Nat.succ_le_of_lt row)
  rw [Nat.succ_mul] at before
  have ends := address_row sound inside col
  rw [sound.data, Nat.mul_comm layout.rowStep]
  simp only [Layout.address]
  omega

theorem address_apart (sound : layout.Sound data) (inside : f.Inside layout.pointStep) (inside' : g.Inside layout.pointStep)
    (col : c < layout.width) (col' : c' < layout.width) (differ : (r, c) ≠ (r', c')) :
    layout.address f r c + f.count * sizeOf f.datatype ≤ layout.address g r' c' ∨
      layout.address g r' c' + g.count * sizeOf g.datatype ≤ layout.address f r c := by
  have ends := address_row sound inside col
  have ends' := address_row sound inside' col'
  have stop := inside.stop
  have stop' := inside'.stop
  simp only [Layout.address]
  rcases Nat.lt_trichotomy r r' with above | rfl | below
  · have rows := Nat.mul_le_mul_right layout.rowStep (Nat.succ_le_of_lt above)
    rw [Nat.succ_mul] at rows
    omega
  · rcases Nat.lt_trichotomy c c' with left | rfl | right
    · have points := Nat.mul_le_mul_right layout.pointStep (Nat.succ_le_of_lt left)
      rw [Nat.succ_mul] at points
      omega
    · exact absurd rfl differ
    · have points := Nat.mul_le_mul_right layout.pointStep (Nat.succ_le_of_lt right)
      rw [Nat.succ_mul] at points
      omega
  · have rows := Nat.mul_le_mul_right layout.rowStep (Nat.succ_le_of_lt below)
    rw [Nat.succ_mul] at rows
    omega

end places

/-! ### Encoded points -/

def lowFirst : ℕ → ℕ → Bytes
  | 0, _ => []
  | size + 1, n => UInt8.ofNat n :: lowFirst size (n / 256)

def bytesOf (big : Bool) (size n : ℕ) : Bytes := if big then (lowFirst size n).reverse else lowFirst size n

def Layout.axes (layout : Layout) : List (String × Field) :=
  ["x", "y", "z"].filterMap fun name => (layout.fields.lookup name).map fun f => (name, f)

def writes (layout : Layout) (bits : ℕ × ℕ → String → ℕ) : List (ℕ × Bytes) :=
  layout.cells.flatMap fun cell => layout.axes.map fun axis =>
    (layout.address axis.2 cell.1 cell.2, bytesOf layout.isBigendian (sizeOf axis.2.datatype) (bits cell axis.1))

def encode (layout : Layout) (bits : ℕ × ℕ → String → ℕ) (buffer : Bytes) : Bytes :=
  (writes layout bits).foldl Disk.patch buffer

def Layout.axisSize (layout : Layout) (name : String) : ℕ :=
  ((layout.fields.lookup name).map fun f => sizeOf f.datatype).getD 0

section codec
variable {size n : ℕ}

theorem lowFirst_length (size n : ℕ) : (lowFirst size n).length = size := by
  induction size generalizing n with
  | zero => rfl
  | succ size ih => simp [lowFirst, ih]

theorem bytesOf_length (big : Bool) (size n : ℕ) : (bytesOf big size n).length = size := by
  cases big <;> simp [bytesOf, lowFirst_length]

theorem ofDigits_lowFirst (small : n < 256 ^ size) : Nat.ofDigits 256 ((lowFirst size n).map UInt8.toNat) = n := by
  induction size generalizing n with
  | zero =>
    have nothing : n = 0 := by simpa using small
    simp [lowFirst, nothing]
  | succ size ih =>
    have high : n / 256 < 256 ^ size := by
      rw [Nat.pow_succ] at small
      omega
    have low : (UInt8.ofNat n).toNat = n % 256 := by simp
    rw [lowFirst, List.map_cons, Nat.ofDigits_cons, ih high, low, Nat.mod_add_div]

theorem word_bytesOf (big : Bool) (small : n < 256 ^ size) : word big (bytesOf big size n) = n := by
  cases big <;> simpa [word, bytesOf] using ofDigits_lowFirst small

end codec

section encode
variable {layout : Layout} {data buffer : Bytes} {bits : ℕ × ℕ → String → ℕ} {axis : String × Field} {cell : ℕ × ℕ} {name : String}

theorem mem_axes (sound : layout.Sound data) (there : axis ∈ layout.axes) :
    axis ∈ layout.fields ∧ axis.2.count = 1 ∧ layout.axisSize axis.1 = sizeOf axis.2.datatype := by
  obtain ⟨name, known, found⟩ := List.mem_filterMap.mp there
  obtain ⟨f, is, one, -⟩ := sound.axes name known
  rw [is] at found
  cases found
  obtain ⟨before, after, parts, -⟩ := List.lookup_eq_some_iff.mp is
  exact ⟨by simp [parts], one, by simp [Layout.axisSize, is]⟩

theorem axis_inside (sound : layout.Sound data) (there : axis ∈ layout.axes) (inside : cell ∈ layout.cells) :
    layout.address axis.2 cell.1 cell.2 + sizeOf axis.2.datatype ≤ data.length := by
  obtain ⟨field, one, -⟩ := mem_axes sound there
  have bound := address_inside sound (sound.inside axis field) (mem_cells.mp inside).1 (mem_cells.mp inside).2
  rwa [one, Nat.one_mul] at bound

theorem writes_fit (sound : layout.Sound data) {w : ℕ × Bytes} (there : w ∈ writes layout bits) :
    w.1 + w.2.length ≤ data.length := by
  obtain ⟨cell, inside, of_axis⟩ := List.mem_flatMap.mp there
  obtain ⟨axis, known, rfl⟩ := List.mem_map.mp of_axis
  rw [bytesOf_length]
  exact axis_inside sound known inside

theorem fields_apart (sound : layout.Sound data) {f g : String × Field} (hf : f ∈ layout.fields) (hg : g ∈ layout.fields)
    (differ : f.1 ≠ g.1) : Apart f.2 g.2 := by
  have : Std.Symm fun f g : String × Field => f.1 ≠ g.1 ∧ Apart f.2 g.2 :=
    ⟨fun _ _ both => ⟨both.1.symm, both.2.symm⟩⟩
  exact (sound.apart.forall hf hg fun same => differ (by rw [same])).2

theorem axes_names (layout : Layout) : layout.axes.Pairwise fun axis axis' => axis.1 ≠ axis'.1 := by
  have names : ["x", "y", "z"].Pairwise (· ≠ ·) := by decide
  refine List.Pairwise.filterMap _ (fun name name' differ axis found axis' found' same => differ ?_) names
  obtain ⟨f, -, rfl⟩ := Option.map_eq_some_iff.mp found
  obtain ⟨f', -, rfl⟩ := Option.map_eq_some_iff.mp found'
  exact same

theorem writes_apart (sound : layout.Sound data) (bits : ℕ × ℕ → String → ℕ) : (writes layout bits).Pairwise Disk.Separate := by
  refine List.pairwise_flatMap.mpr ⟨fun cell _ => List.pairwise_map.mpr ?_, ?_⟩
  · refine (axes_names layout).imp_of_mem fun {axis axis'} there there' differ => ?_
    obtain ⟨field, one, -⟩ := mem_axes sound there
    obtain ⟨field', one', -⟩ := mem_axes sound there'
    have apart := fields_apart sound field field' differ
    simp only [Apart, one, one', Nat.one_mul] at apart
    simp only [Disk.Separate, bytesOf_length, Layout.address]
    omega
  · refine (cells_nodup layout).imp_of_mem fun {cell cell'} inside inside' differ w there w' there' => ?_
    obtain ⟨axis, known, rfl⟩ := List.mem_map.mp there
    obtain ⟨axis', known', rfl⟩ := List.mem_map.mp there'
    obtain ⟨field, one, -⟩ := mem_axes sound known
    obtain ⟨field', one', -⟩ := mem_axes sound known'
    have apart := address_apart sound (sound.inside axis field) (sound.inside axis' field') (mem_cells.mp inside).2
      (mem_cells.mp inside').2 differ
    simpa [Disk.Separate, bytesOf_length, one, one'] using apart

theorem encode_length (sound : layout.Sound data) : (encode layout bits data).length = data.length :=
  (Disk.patches (fun _ there => writes_fit sound there) (writes_apart sound bits)).1

theorem element_encode {F : Type} (number : ℕ → ℕ → F) (sound : layout.Sound data) (there : axis ∈ layout.axes)
    (inside : cell ∈ layout.cells) (small : bits cell axis.1 < 256 ^ sizeOf axis.2.datatype) :
    element number layout (encode layout bits data) axis.2 cell = .ok (number (sizeOf axis.2.datatype) (bits cell axis.1)) := by
  have written : (layout.address axis.2 cell.1 cell.2,
      bytesOf layout.isBigendian (sizeOf axis.2.datatype) (bits cell axis.1)) ∈ writes layout bits :=
    List.mem_flatMap.mpr ⟨cell, inside, List.mem_map_of_mem there⟩
  have read := Disk.patches_read (fun _ there => writes_fit sound there) (writes_apart sound bits) written
  simp only [bytesOf_length] at read
  have fits : layout.address axis.2 cell.1 cell.2 + sizeOf axis.2.datatype ≤ (encode layout bits data).length := by
    rw [encode_length sound]
    exact axis_inside sound there inside
  rw [element, if_pos fits, valueAt, encode, read, word_bytesOf _ small]

theorem mapM_ok {α β : Type} {f : α → Except String β} {g : α → β} {l : List α} (h : ∀ a ∈ l, f a = .ok (g a)) :
    l.mapM f = .ok (l.map g) := by
  induction l with
  | nil => rfl
  | cons a rest ih =>
    rw [List.mapM_cons, h a (by simp), ih fun b inside => h b (by simp [inside])]
    rfl

theorem axis_of (sound : layout.Sound data) (known : name ∈ ["x", "y", "z"]) :
    ∃ f, layout.fields.lookup name = some f ∧ (name, f) ∈ layout.axes := by
  obtain ⟨f, is, -, -⟩ := sound.axes name known
  exact ⟨f, is, List.mem_filterMap.mpr ⟨name, known, by rw [is]; rfl⟩⟩

theorem column_encode {F : Type} (number : ℕ → ℕ → F) (sound : layout.Sound data) (name : String) (known : name ∈ ["x", "y", "z"])
    (small : ∀ cell ∈ layout.cells, bits cell name < 256 ^ layout.axisSize name) :
    column number layout (encode layout bits data) name =
      .ok (layout.cells.map fun cell => number (layout.axisSize name) (bits cell name)) := by
  obtain ⟨f, is, there⟩ := axis_of sound known
  have size := (mem_axes sound there).2.2
  unfold column
  rw [is]
  refine mapM_ok fun cell inside => ?_
  have fits := small cell inside
  rw [size] at fits ⊢
  exact element_encode number sound there inside fits

theorem column_some {F : Type} (number : ℕ → ℕ → F) (sound : layout.Sound data) (name : String) (known : name ∈ ["x", "y", "z"]) :
    ∃ values, column number layout data name = .ok values := by
  obtain ⟨f, is, there⟩ := axis_of sound known
  refine ⟨layout.cells.map (valueAt number layout data f), ?_⟩
  unfold column
  rw [is]
  exact mapM_ok fun cell inside => if_pos (axis_inside sound there inside)

theorem cells_none (sound : layout.Sound data) (none_ : layout.pointCount = 0) : layout.cells = [] := by
  have height := sound.height
  rw [sound.points] at none_
  have width : layout.width = 0 := by
    rcases Nat.mul_eq_zero.mp none_ with zero | zero
    · exact zero
    · omega
  simp [Layout.cells, width]

end encode

/-- For a message that the validator accepts: fields lie in their points, and neither fields nor points overlap; all
that is read lies in the bytes; and points written over its bytes are what is decoded, in the order of rows and
columns, with the other bytes left as they were. -/
theorem cloud_decoded :
    ∀ (F : Type) (number : ℕ → ℕ → F) message layout, validate message = .ok layout →
      (∀ field ∈ layout.fields, field.2.Inside layout.pointStep) ∧
      (layout.fields.Pairwise fun f g => f.1 ≠ g.1 ∧ Apart f.2 g.2) ∧
      (∀ f ∈ layout.fields, ∀ g ∈ layout.fields, ∀ cell ∈ layout.cells, ∀ cell' ∈ layout.cells, cell ≠ cell' →
        layout.address f.2 cell.1 cell.2 + f.2.count * sizeOf f.2.datatype ≤ layout.address g.2 cell'.1 cell'.2 ∨
          layout.address g.2 cell'.1 cell'.2 + g.2.count * sizeOf g.2.datatype ≤ layout.address f.2 cell.1 cell.2) ∧
      (∀ field ∈ layout.fields, ∀ cell ∈ layout.cells,
        layout.address field.2 cell.1 cell.2 + field.2.count * sizeOf field.2.datatype ≤ message.data.length) ∧
      (∃ points, decode number message = .ok points) ∧
      ∀ bits : ℕ × ℕ → String → ℕ,
        (∀ cell ∈ layout.cells, ∀ name ∈ ["x", "y", "z"], bits cell name < 256 ^ layout.axisSize name) →
        let encoded := { message with data := encode layout bits message.data }
        validate encoded = .ok layout ∧
        decode number encoded = .ok (layout.cells.map fun cell =>
          (number (layout.axisSize "x") (bits cell "x"), number (layout.axisSize "y") (bits cell "y"),
            number (layout.axisSize "z") (bits cell "z"))) ∧
        ∀ k, (∀ axis ∈ layout.axes, ∀ cell ∈ layout.cells, ¬(layout.address axis.2 cell.1 cell.2 ≤ k ∧
          k < layout.address axis.2 cell.1 cell.2 + sizeOf axis.2.datatype)) → encoded.data[k]? = message.data[k]? := by
  intro F number message layout valid
  have sound := validate_sound valid
  refine ⟨sound.inside, sound.apart, ?_, ?_, ?_, ?_⟩
  · intro f hf g hg cell inside cell' inside' differ
    exact address_apart sound (sound.inside f hf) (sound.inside g hg) (mem_cells.mp inside).2 (mem_cells.mp inside').2 differ
  · intro field there cell inside
    exact address_inside sound (sound.inside field there) (mem_cells.mp inside).1 (mem_cells.mp inside).2
  · obtain ⟨xs, readX⟩ := column_some number sound "x" (by simp)
    obtain ⟨ys, readY⟩ := column_some number sound "y" (by simp)
    obtain ⟨zs, readZ⟩ := column_some number sound "z" (by simp)
    by_cases none_ : layout.pointCount = 0
    · exact ⟨[], by simp only [decode, valid, bind, Except.bind, if_pos none_]; rfl⟩
    · exact ⟨xs.zip (ys.zip zs), by simp only [decode, valid, bind, Except.bind, if_neg none_, readX, readY, readZ]; rfl⟩
  · intro bits small encoded
    have valid' : validate encoded = .ok layout := (validate_data message _ (encode_length sound)).trans valid
    refine ⟨valid', ?_, fun k out => ?_⟩
    · have readX := column_encode number sound "x" (by simp) fun cell inside => small cell inside "x" (by simp)
      have readY := column_encode number sound "y" (by simp) fun cell inside => small cell inside "y" (by simp)
      have readZ := column_encode number sound "z" (by simp) fun cell inside => small cell inside "z" (by simp)
      by_cases none_ : layout.pointCount = 0
      · simp only [decode, valid', bind, Except.bind, if_pos none_, cells_none sound none_]
        rfl
      · simp only [decode, valid', bind, Except.bind, if_neg none_, encoded, readX, readY, readZ, Pure.pure, Except.pure,
          List.zip_map']
    · refine (Disk.patches (fun _ there => writes_fit sound there) (writes_apart sound bits)).2.2 k fun w there => ?_
      obtain ⟨cell, inside, of_axis⟩ := List.mem_flatMap.mp there
      obtain ⟨axis, known, rfl⟩ := List.mem_map.mp of_axis
      rw [bytesOf_length]
      exact out axis known cell inside

/-- Two rows of one point, each with a byte of padding; `z` is a double. -/
def Message.bench : Message where
  width := .int 1
  height := .int 2
  pointStep := .int 17
  rowStep := .int 18
  isBigendian := .bool true
  data := List.replicate 36 0
  fields := [⟨.text "z", .int 0, .int 8, .int 1⟩, ⟨.text "x", .int 8, .int 7, .int 1⟩, ⟨.text "y", .int 13, .int 7, .int 1⟩]

theorem bench_decoded : ∃ layout, validate .bench = .ok layout ∧ layout.pointCount = 2 ∧
    ∃ points, decode (fun _ n => n) .bench = .ok points :=
  ⟨_, rfl, rfl, (cloud_decoded ℕ (fun _ n => n) .bench _ rfl).2.2.2.2.1⟩

example : (validate .bench).toOption.map Layout.cells = some [(0, 0), (1, 0)] := by decide

end Smartwheel.Sensors.PointCloud
