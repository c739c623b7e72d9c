import Mathlib.Data.List.ProdSigma
import Mathlib.Data.List.Nodup
import Smartwheel.Mapping.CloudFilter

/-! `filter_cloud` keeps the points that meet the criteria of their side, and changes no byte but those of the coordinates of the
others. -/
namespace Smartwheel.CloudFilter
open Effect Extended
open Smartwheel.Sensors.PointCloud

/-! ### Support, pixel by pixel -/

section mask
variable {K : Type} [Exact K] (settings : Support K)

def neighbours (shape : ℕ × ℕ) (r c : ℕ) : List (ℕ × ℕ) :=
  (List.range shape.1 ×ˢ List.range shape.2).filter fun n =>
    n ≠ (r, c) ∧ (n.1 ≤ r + 1 ∧ r ≤ n.1 + 1) ∧ n.2 ≤ c + 1 ∧ c ≤ n.2 + 1

def Within (p q : Point K) : Prop :=
  (Point.norm (Point.minus p q)).Le ((Number.finite settings.distanceOffsetM).add
    ((Number.finite settings.distanceScale).mul ((Point.norm p).maximum (Point.norm q))))

instance (p q : Point K) : Decidable (Within settings p q) := inferInstanceAs (Decidable (Number.Le _ _))

def backs (xyz : List (Point K)) (valid : List Bool) (width : ℕ) (p : Point K) (n : ℕ × ℕ) : Bool :=
  valid.getD (n.1 * width + n.2) false && (xyz[n.1 * width + n.2]?).any fun q => decide (Within settings p q)

def Supported (xyz : List (Point K)) (valid : List Bool) (shape : ℕ × ℕ) (r c : ℕ) : Prop :=
  valid[r * shape.2 + c]? = some true ∧ ∃ p ∈ xyz[r * shape.2 + c]?,
    settings.minNeighbors ≤ ((neighbours shape r c).filter (backs settings xyz valid shape.2 p)).length

theorem square_nonneg (p : Point K) : (Point.square p).Nonneg :=
  ((Number.nonneg_mul_self _).add (Number.nonneg_mul_self _)).add (Number.nonneg_mul_self _)

theorem within_iff (p q : Point K) (valid valid' : Bool) :
    supported settings ⟨p, valid, Point.norm p⟩ ⟨q, valid', Point.norm q⟩ = (valid && valid' && decide (Within settings p q)) := by
  have ranges := (Number.nonneg_sqrt (Point.square p)).maximum (Number.nonneg_sqrt (Point.square q))
  have bound : (limit settings ⟨p, valid, Point.norm p⟩ ⟨q, valid', Point.norm q⟩).Nonneg :=
    Number.Nonneg.add settings.offset_nonneg (ranges.scale settings.scale_nonneg)
  have same := Number.sqrt_le_iff (square_nonneg (Point.minus p q)) bound
  unfold supported
  exact congrArg _ (decide_eq_decide.mpr same.symm)

section places
variable {α : Type} {g : Grid α} {r c : ℕ}

def placeOf (r c : ℕ) (d : ℤ × ℤ) : ℕ × ℕ := ((r + d.1).toNat, (c + d.2).toNat)

theorem directions_near : ∀ d ∈ directions, Grid.Near d := by
  unfold Grid.Near
  decide

theorem directions_iff (d : ℤ × ℤ) : d ∈ directions ↔ Grid.Near d ∧ d ≠ (0, 0) := by
  constructor
  · intro h
    exact ⟨directions_near d h, fun zero => by rw [zero] at h; revert h; decide⟩
  · rintro ⟨⟨⟨a, a'⟩, b, b'⟩, differ⟩
    obtain ⟨dy, dx⟩ := d
    dsimp only at a a' b b'
    interval_cases dy <;> interval_cases dx
    all_goals first | decide | exact absurd rfl differ

theorem perm_neighbours (g : Grid α) (r c : ℕ) :
    List.Perm ((directions.filter fun d => g.Inside r c d).map (placeOf r c)) (neighbours (g.height, g.width) r c) := by
  have distinct : ((directions.filter fun d => g.Inside r c d).map (placeOf r c)).Nodup := by
    refine List.Nodup.map_on (fun d hd d' hd' same => ?_) (List.Nodup.filter _ (by decide))
    have inside := of_decide_eq_true (List.mem_filter.mp hd).2
    have inside' := of_decide_eq_true (List.mem_filter.mp hd').2
    obtain ⟨rows, columns⟩ := Prod.mk.inj same
    have first := inside.1.1
    have second := inside.2.1
    have first' := inside'.1.1
    have second' := inside'.2.1
    refine Prod.ext ?_ ?_ <;> omega
  have distinct' : (neighbours (g.height, g.width) r c).Nodup := (List.nodup_range.product List.nodup_range).filter _
  refine (List.perm_ext_iff_of_nodup distinct distinct').mpr fun n => ?_
  obtain ⟨r', c'⟩ := n
  unfold neighbours
  rw [List.mem_map, List.mem_filter, List.mem_product, List.mem_range, List.mem_range, decide_eq_true_eq]
  constructor
  · rintro ⟨d, known, same⟩
    obtain ⟨listed, inside⟩ := List.mem_filter.mp known
    obtain ⟨⟨⟨a, a'⟩, b, b'⟩, differ⟩ := (directions_iff d).mp listed
    obtain ⟨⟨up, down⟩, left, right⟩ := of_decide_eq_true inside
    obtain ⟨rfl, rfl⟩ := Prod.mk.inj same
    refine ⟨⟨by omega, by omega⟩, fun here => differ ?_, ⟨by omega, by omega⟩, by omega, by omega⟩
    obtain ⟨row, column⟩ := Prod.mk.inj here
    exact Prod.ext (by omega) (by omega)
  · rintro ⟨⟨row, column⟩, differ, ⟨a, a'⟩, b, b'⟩
    refine ⟨((r' : ℤ) - r, (c' : ℤ) - c), List.mem_filter.mpr ⟨(directions_iff _).mpr ⟨?_, fun zero => differ ?_⟩, decide_eq_true ?_⟩, ?_⟩
    · exact ⟨⟨by omega, by omega⟩, by omega, by omega⟩
    · obtain ⟨same, same'⟩ := Prod.mk.inj zero
      exact Prod.ext (by omega) (by omega)
    · exact ⟨⟨by omega, by omega⟩, by omega, by omega⟩
    · exact Prod.ext (by simp [placeOf]) (by simp [placeOf])

end places

section count
variable {xyz : List (Point K)} {valid : List Bool} {shape : ℕ × ℕ} {r c : ℕ}

/-- The pixels of an image, as `support_mask` has them. -/
def pixelsOf (xyz : List (Point K)) (valid : List Bool) (shape : ℕ × ℕ) : Grid (Pixel K) :=
  Grid.ofList shape.2 ((xyz.zip valid).map fun p => Pixel.mk p.1 p.2 (Point.norm p.1)) ⟨(.nan, .nan, .nan), false, .nan⟩ shape.1

theorem pixel_eq (points : xyz.length = shape.1 * shape.2) (masks : valid.length = shape.1 * shape.2) (hr : r < shape.1)
    (hc : c < shape.2) : ∃ p v, xyz[r * shape.2 + c]? = some p ∧ valid[r * shape.2 + c]? = some v ∧
      (pixelsOf xyz valid shape).cell r c = ⟨p, v, Point.norm p⟩ := by
  have place := Grid.place_lt hr hc
  obtain ⟨p, known⟩ : ∃ p, xyz[r * shape.2 + c]? = some p := ⟨_, List.getElem?_eq_getElem (by omega)⟩
  obtain ⟨v, there⟩ : ∃ v, valid[r * shape.2 + c]? = some v := ⟨_, List.getElem?_eq_getElem (by omega)⟩
  refine ⟨p, v, known, there, ?_⟩
  have zipped : (xyz.zip valid)[r * shape.2 + c]? = some (p, v) := List.getElem?_zip_eq_some.mpr ⟨known, there⟩
  change List.getD _ _ _ = _
  rw [List.getD_eq_getElem?_getD, List.getElem?_map, zipped]
  rfl

theorem agreeing_length (points : xyz.length = shape.1 * shape.2) (masks : valid.length = shape.1 * shape.2) (hr : r < shape.1)
    (hc : c < shape.2) {p : Point K} (known : xyz[r * shape.2 + c]? = some p) (there : valid[r * shape.2 + c]? = some true) :
    (Grid.agreeing (supported settings) (pixelsOf xyz valid shape) r c directions).length =
      ((neighbours shape r c).filter (backs settings xyz valid shape.2 p)).length := by
  have perm := perm_neighbours (pixelsOf xyz valid shape) r c
  have counted := (perm.filter (backs settings xyz valid shape.2 p)).length_eq
  rw [List.filter_map, List.length_map, List.filter_filter] at counted
  refine Eq.trans (congrArg List.length (List.filter_congr fun d _ => ?_)) counted
  by_cases inside : (pixelsOf xyz valid shape).Inside r c d
  · have row : (r + d.1).toNat < shape.1 := by
      have bounds := inside.1
      change 0 ≤ (r : ℤ) + d.1 ∧ (r : ℤ) + d.1 < shape.1 at bounds
      omega
    have column : (c + d.2).toNat < shape.2 := by
      have bounds := inside.2
      change 0 ≤ (c : ℤ) + d.2 ∧ (c : ℤ) + d.2 < shape.2 at bounds
      omega
    obtain ⟨p', v', known', there', here⟩ := pixel_eq points masks hr hc
    cases known.symm.trans known'
    cases there.symm.trans there'
    obtain ⟨q, v, knownQ, thereQ, next⟩ := pixel_eq points masks row column
    have same : supported settings ((pixelsOf xyz valid shape).cell r c) ((pixelsOf xyz valid shape).neighbour r c d) =
        backs settings xyz valid shape.2 p (placeOf r c d) := by
      rw [here, Grid.neighbour, next, within_iff, backs, placeOf, knownQ, List.getD_eq_getElem?_getD, thereQ]
      rfl
    simp only [Function.comp_apply, inside, same, true_and, decide_true, Bool.and_true, Bool.decide_eq_true]
  · simp [inside]

/-- `support_mask` keeps a pixel if and only if it is supported. -/
theorem supportMask_ok (points : xyz.length = shape.1 * shape.2) (masks : valid.length = shape.1 * shape.2) :
    ∃ mask, supportMask settings xyz valid shape = .ok mask ∧ mask.length = shape.1 * shape.2 ∧
      ∀ r < shape.1, ∀ c < shape.2, ∃ kept, mask[r * shape.2 + c]? = some kept ∧ (kept = true ↔ Supported settings xyz valid shape r c) := by
  have fits : ¬(xyz.length ≠ shape.1 * shape.2 ∨ valid.length ≠ shape.1 * shape.2) := not_or.mpr ⟨not_not.mpr points, not_not.mpr masks⟩
  refine ⟨_, bind_of_ok (refuse_of_not fits) rfl, Grid.flatten_length _, fun r hr c hc => ?_⟩
  have counted : (directions.foldl (Grid.shift (supported settings) 256 (pixelsOf xyz valid shape)) ⟨shape.1, shape.2, fun _ _ => 0⟩).cell r c =
      0 + (Grid.agreeing (supported settings) (pixelsOf xyz valid shape) r c directions).length :=
    Grid.foldl_shift directions_near ⟨rfl, rfl⟩ hr hc (by change 0 + directions.length < 256; decide)
  refine ⟨_, Grid.flatten_getElem? (g := Grid.zipWith _ (pixelsOf xyz valid shape) _) hr hc, ?_⟩
  change (((pixelsOf xyz valid shape).cell r c).valid && decide (settings.minNeighbors ≤
    (directions.foldl (Grid.shift (supported settings) 256 (pixelsOf xyz valid shape)) ⟨shape.1, shape.2, fun _ _ => 0⟩).cell r c)) = true ↔ _
  obtain ⟨p, v, known, there, here⟩ := pixel_eq points masks hr hc
  rw [counted, here, Nat.zero_add, Bool.and_eq_true, decide_eq_true_eq, Supported, known, there]
  constructor
  · rintro ⟨rfl, enough⟩
    rw [agreeing_length settings points masks hr hc known there] at enough
    exact ⟨rfl, p, rfl, enough⟩
  · rintro ⟨yes, q, same, enough⟩
    cases yes
    cases same
    rw [agreeing_length settings points masks hr hc known there]
    exact ⟨rfl, enough⟩

end count
end mask

/-! ### The bytes of rejected rows -/

section bytes
variable {K : Type} [Exact K] {message : Message} {layout : Layout} {data : Bytes} {name : String} {f : Field} {cell : ℕ × ℕ}
  {rejected : List (ℕ × ℕ)}

/-- The three coordinates, in the order in which they are overwritten. -/
abbrev axisNames : List String := ["x", "y", "z"]

def coordinate (layout : Layout) (data : Bytes) (name : String) (cell : ℕ × ℕ) : Number K :=
  ((layout.fields.lookup name).map fun f => valueAt numberOf layout data f cell).getD .nan

def pointAt (layout : Layout) (data : Bytes) (cell : ℕ × ℕ) : Point K :=
  (coordinate layout data "x" cell, coordinate layout data "y" cell, coordinate layout data "z" cell)

theorem column_ok (sound : layout.Sound data) (name : String) (known : name ∈ axisNames) :
    column (numberOf : ℕ → ℕ → Number K) layout data name = .ok (layout.cells.map (coordinate layout data name)) := by
  obtain ⟨f, is, there⟩ := axis_of sound known
  unfold column
  rw [is]
  refine mapM_ok fun cell inside => ?_
  rw [coordinate, is]
  exact if_pos (axis_inside sound there inside)

theorem decode_ok (valid : validate message = .ok layout) :
    decode (numberOf : ℕ → ℕ → Number K) message = .ok (layout.cells.map (pointAt layout message.data)) := by
  have sound := validate_sound valid
  have x := column_ok (K := K) sound "x" (by decide)
  have y := column_ok (K := K) sound "y" (by decide)
  have z := column_ok (K := K) sound "z" (by decide)
  by_cases empty : layout.pointCount = 0
  · simp only [decode, valid, bind, Except.bind, if_pos empty, cells_none sound empty]
    rfl
  · simp only [decode, valid, bind, Except.bind, if_neg empty, x, y, z, Pure.pure, Except.pure, List.zip_map']
    rfl

def nanWrites (layout : Layout) (rejected : List (ℕ × ℕ)) (name : String) : List (ℕ × Bytes) :=
  match layout.fields.lookup name with
  | none => []
  | some f => rejected.map fun cell =>
    (layout.address f cell.1 cell.2, bytesOf layout.isBigendian (Sensors.PointCloud.sizeOf f.datatype)
      (formatOf (Sensors.PointCloud.sizeOf f.datatype)).nan)

theorem mem_nanWrites {w : ℕ × Bytes} (is : layout.fields.lookup name = some f) : w ∈ nanWrites layout rejected name ↔
    ∃ cell ∈ rejected, (layout.address f cell.1 cell.2, bytesOf layout.isBigendian (Sensors.PointCloud.sizeOf f.datatype)
      (formatOf (Sensors.PointCloud.sizeOf f.datatype)).nan) = w := by
  unfold nanWrites
  rw [is]
  exact List.mem_map

theorem writes_inside (sound : layout.Sound data) (cells : ∀ cell ∈ rejected, cell ∈ layout.cells) (known : name ∈ axisNames) :
    ∀ w ∈ nanWrites layout rejected name, w.1 + w.2.length ≤ data.length := by
  intro w inside
  obtain ⟨f, is, there⟩ := axis_of sound known
  obtain ⟨cell, rejected, rfl⟩ := (mem_nanWrites is).mp inside
  rw [bytesOf_length]
  exact axis_inside sound there (cells cell rejected)

theorem writes_separate (sound : layout.Sound data) (cells : ∀ cell ∈ rejected, cell ∈ layout.cells) (distinct : rejected.Nodup) :
    (axisNames.flatMap (nanWrites layout rejected)).Pairwise Disk.Separate := by
  -- two coordinates of points: other cells, or other names
  have apart : ∀ name ∈ axisNames, ∀ name' ∈ axisNames, ∀ f f' : Field, layout.fields.lookup name = some f →
      layout.fields.lookup name' = some f' → ∀ cell ∈ rejected, ∀ cell' ∈ rejected, (name, cell) ≠ (name', cell') →
      layout.address f cell.1 cell.2 + Sensors.PointCloud.sizeOf f.datatype ≤ layout.address f' cell'.1 cell'.2 ∨
        layout.address f' cell'.1 cell'.2 + Sensors.PointCloud.sizeOf f'.datatype ≤ layout.address f cell.1 cell.2 := by
    intro name known name' known' f f' is is' cell inside cell' inside' differ
    obtain ⟨g, same, there⟩ := axis_of sound known
    obtain ⟨g', same', there'⟩ := axis_of sound known'
    cases is.symm.trans same
    cases is'.symm.trans same'
    obtain ⟨field, (one : f.count = 1), -⟩ := mem_axes sound there
    obtain ⟨field', (one' : f'.count = 1), -⟩ := mem_axes sound there'
    by_cases place : cell = cell'
    · subst place
      have separate := fields_apart sound field field' fun equal => differ (by rw [show name = name' from equal])
      simp only [Apart, one, one', Nat.one_mul] at separate
      simp only [Layout.address]
      omega
    · have separate := address_apart sound (sound.inside _ field) (sound.inside _ field') (mem_cells.mp (cells _ inside)).2
        (mem_cells.mp (cells _ inside')).2 place
      simpa only [one, one', Nat.one_mul] using separate
  refine List.pairwise_flatMap.mpr ⟨fun name known => ?_, ?_⟩
  · obtain ⟨f, is, -⟩ := axis_of sound known
    unfold nanWrites
    rw [is]
    refine List.pairwise_map.mpr (distinct.imp_of_mem fun {cell cell'} inside inside' differ => ?_)
    have separate := apart name known name known f f is is cell inside cell' inside' fun same => differ (Prod.mk.inj same).2
    simpa only [Disk.Separate, bytesOf_length] using separate
  · have names : axisNames.Pairwise (· ≠ ·) := by decide
    refine names.imp_of_mem fun {name name'} known known' differ w inside w' inside' => ?_
    obtain ⟨f, is, -⟩ := axis_of sound known
    obtain ⟨f', is', -⟩ := axis_of sound known'
    obtain ⟨cell, there, rfl⟩ := (mem_nanWrites is).mp inside
    obtain ⟨cell', there', rfl⟩ := (mem_nanWrites is').mp inside'
    have separate := apart name known name' known' f f' is is' cell there cell' there' fun same => differ (Prod.mk.inj same).1
    simpa only [Disk.Separate, bytesOf_length] using separate

theorem numberOf_nan {datatype : ℕ} (real : datatype ∈ [7, 8]) :
    numberOf (Sensors.PointCloud.sizeOf datatype) (formatOf (Sensors.PointCloud.sizeOf datatype)).nan = (.nan : Number K) ∧
      (formatOf (Sensors.PointCloud.sizeOf datatype)).nan < 256 ^ Sensors.PointCloud.sizeOf datatype := by
  rw [List.mem_cons, List.mem_singleton] at real
  rcases real with rfl | rfl
  · exact ⟨rfl, by decide⟩
  · exact ⟨rfl, by decide⟩

/-- What `_invalidate_rows` makes of a cloud. -/
structure Invalidated (K : Type) [Exact K] (cloud result : Cloud) (layout : Layout) (keep : List Bool) : Prop where
  message : result.message = { cloud.message with data := result.message.data }
  accepted : validate result.message = .ok layout
  rows : keep.length = layout.cells.length
  dense : result.isDense = keep.all id
  /-- Only the coordinates of rejected rows are written. -/
  bytes : ∀ k, (∀ name ∈ axisNames, ∀ f, layout.fields.lookup name = some f → ∀ cell ∈ rejectedCells layout keep,
    ¬(layout.address f cell.1 cell.2 ≤ k ∧ k < layout.address f cell.1 cell.2 + Sensors.PointCloud.sizeOf f.datatype)) →
      result.message.data[k]? = cloud.message.data[k]?
  kept : ∀ (k : ℕ) (cell : ℕ × ℕ), layout.cells[k]? = some cell → keep[k]? = some true →
    (pointAt layout result.message.data cell : Point K) = pointAt layout cloud.message.data cell
  invalid : ∀ (k : ℕ) (cell : ℕ × ℕ), layout.cells[k]? = some cell → keep[k]? = some false →
    (pointAt layout result.message.data cell : Point K) = (.nan, .nan, .nan)

end bytes

section invalidate
variable {K : Type} [Exact K] {cloud result : Cloud} {layout : Layout} {data : Bytes} {name : String} {keep : List Bool}
  {rejected : List (ℕ × ℕ)}

theorem overwrite_ok (rejected : List (ℕ × ℕ)) (sound : layout.Sound data) (known : name ∈ axisNames) :
    overwrite layout rejected data name = .ok ((nanWrites layout rejected name).foldl Disk.patch data) := by
  obtain ⟨f, is, there⟩ := axis_of sound known
  unfold overwrite nanWrites
  rw [is]
  refine bind_of_ok (refuse_of_not ?_) rfl
  rintro ⟨cell, inside, short⟩
  exact absurd (axis_inside sound there inside) (not_le.mpr short)

theorem Sound.resize {data' : Bytes} (sound : layout.Sound data) (same : data'.length = data.length) : layout.Sound data' :=
  { sound with data := same.trans sound.data }

theorem overwrites_ok {names : List String} (sound : layout.Sound data) (known : ∀ name ∈ names, name ∈ axisNames)
    (cells : ∀ cell ∈ rejected, cell ∈ layout.cells) (apart : (names.flatMap (nanWrites layout rejected)).Pairwise Disk.Separate) :
    names.foldlM (overwrite layout rejected) data = .ok ((names.flatMap (nanWrites layout rejected)).foldl Disk.patch data) := by
  induction names generalizing data with
  | nil => rfl
  | cons name rest ih =>
    rw [List.flatMap_cons] at apart
    obtain ⟨here, later, -⟩ := List.pairwise_append.mp apart
    have first := overwrite_ok rejected sound (known name (List.mem_cons_self ..))
    have size := (Disk.patches (writes_inside sound cells (known name (List.mem_cons_self ..))) here).1
    rw [List.foldlM_cons, first, List.flatMap_cons, List.foldl_append]
    exact ih (Sound.resize sound size) (fun name' inside => known name' (List.mem_cons_of_mem _ inside)) later

variable {cell : ℕ × ℕ}

theorem mem_rejectedCells : cell ∈ rejectedCells layout keep ↔ ∃ k : ℕ, layout.cells[k]? = some cell ∧ keep[k]? = some false := by
  unfold rejectedCells
  rw [List.mem_map]
  constructor
  · rintro ⟨⟨_, v⟩, inside, rfl⟩
    obtain ⟨zipped, refused⟩ := List.mem_filter.mp inside
    obtain ⟨k, here⟩ := List.mem_iff_getElem?.mp zipped
    obtain ⟨known, there⟩ := List.getElem?_zip_eq_some.mp here
    cases v with
    | true => cases refused
    | false => exact ⟨k, known, there⟩
  · rintro ⟨k, known, there⟩
    exact ⟨(cell, false), List.mem_filter.mpr ⟨List.mem_of_getElem? (List.getElem?_zip_eq_some.mpr ⟨known, there⟩), rfl⟩, rfl⟩

theorem rejectedCells_nodup (rows : keep.length = layout.cells.length) : (rejectedCells layout keep).Nodup := by
  have firsts : List.Sublist (rejectedCells layout keep) ((layout.cells.zip keep).map Prod.fst) := List.filter_sublist.map _
  rw [List.map_fst_zip rows.ge] at firsts
  exact firsts.nodup (cells_nodup layout)

theorem coordinate_congr {data' : Bytes} (same : ∀ f, layout.fields.lookup name = some f →
    ∀ i < Sensors.PointCloud.sizeOf f.datatype, data'[layout.address f cell.1 cell.2 + i]? = data[layout.address f cell.1 cell.2 + i]?) :
    (coordinate layout data' name cell : Number K) = coordinate layout data name cell := by
  unfold coordinate
  cases is : layout.fields.lookup name with
  | none => rfl
  | some f =>
    have block : (data'.drop (layout.address f cell.1 cell.2)).take (Sensors.PointCloud.sizeOf f.datatype) =
        (data.drop (layout.address f cell.1 cell.2)).take (Sensors.PointCloud.sizeOf f.datatype) := by
      refine List.ext_getElem? fun i => ?_
      by_cases inside : i < Sensors.PointCloud.sizeOf f.datatype
      · rw [List.getElem?_take_of_lt inside, List.getElem?_take_of_lt inside, List.getElem?_drop, List.getElem?_drop, same f is i inside]
      · rw [List.getElem?_take_eq_none (not_lt.mp inside), List.getElem?_take_eq_none (not_lt.mp inside)]
    simp only [Option.map_some, Option.getD_some, valueAt, block]

theorem kept_ne {cell' : ℕ × ℕ} {k : ℕ} (known : layout.cells[k]? = some cell) (kept : keep[k]? = some true)
    (inside : cell' ∈ rejectedCells layout keep) : cell ≠ cell' := by
  rintro rfl
  obtain ⟨k', known', refused⟩ := mem_rejectedCells.mp inside
  have bound := (List.getElem?_eq_some_iff.mp known).1
  have same := (List.getElem?_inj bound (cells_nodup layout)).mp (known.trans known'.symm)
  rw [same, refused] at kept
  cases kept

theorem rejectedCells_cells (inside : cell ∈ rejectedCells layout keep) : cell ∈ layout.cells := by
  obtain ⟨k, known, -⟩ := mem_rejectedCells.mp inside
  exact List.mem_of_getElem? known

theorem invalidateRows_returns (valid : validate cloud.message = .ok layout) (rows : keep.length = layout.cells.length) :
    invalidateRows cloud keep = .ok ⟨{ cloud.message with
      data := (axisNames.flatMap (nanWrites layout (rejectedCells layout keep))).foldl Disk.patch cloud.message.data }, keep.all id⟩ := by
  have sound := validate_sound valid
  have count : layout.cells.length = layout.height * layout.width := by simp [Layout.cells]
  have apart := writes_separate sound (fun _ => rejectedCells_cells) (rejectedCells_nodup rows)
  have written := overwrites_ok sound (fun _ known => known) (fun _ => rejectedCells_cells) apart
  exact bind_of_ok valid (bind_of_ok (refuse_of_not (not_not.mpr (rows.trans count))) (bind_of_ok written rfl))

theorem invalidateRows_ok (valid : validate cloud.message = .ok layout) (h : invalidateRows cloud keep = .ok result) :
    Invalidated K cloud result layout keep := by
  have sound := validate_sound valid
  have rows : keep.length = layout.cells.length := by
    unfold invalidateRows at h
    obtain ⟨layout', valid', h⟩ := bind_eq_ok h
    cases valid.symm.trans valid'
    obtain ⟨_, shaped, -⟩ := bind_eq_ok h
    exact (not_not.mp (refuse_ok shaped)).trans (by simp [Layout.cells])
  cases (invalidateRows_returns valid rows).symm.trans h
  have apart := writes_separate sound (fun _ => rejectedCells_cells) (rejectedCells_nodup rows)
  have fits : ∀ w ∈ axisNames.flatMap (nanWrites layout (rejectedCells layout keep)), w.1 + w.2.length ≤ cloud.message.data.length := by
    intro w inside
    obtain ⟨name, known, inside⟩ := List.mem_flatMap.mp inside
    exact writes_inside sound (fun _ => rejectedCells_cells) known w inside
  obtain ⟨size, -, others⟩ := Disk.patches fits apart
  refine ⟨rfl, (validate_data _ _ size).trans valid, rows, rfl, fun k out => others k fun w inside => ?_, fun k cell known kept => ?_,
    fun k cell known refused => ?_⟩
  · obtain ⟨name, axis, inside⟩ := List.mem_flatMap.mp inside
    obtain ⟨f, is, -⟩ := axis_of sound axis
    obtain ⟨cell, there, rfl⟩ := (mem_nanWrites is).mp inside
    rw [bytesOf_length]
    exact out name axis f is cell there
  · have same : ∀ name ∈ axisNames, (coordinate layout ((axisNames.flatMap (nanWrites layout (rejectedCells layout keep))).foldl Disk.patch
        cloud.message.data) name cell : Number K) = coordinate layout cloud.message.data name cell := by
      intro name axis
      refine coordinate_congr fun f is i small => others _ fun w inside => ?_
      obtain ⟨name', axis', inside⟩ := List.mem_flatMap.mp inside
      obtain ⟨g, same, there⟩ := axis_of sound axis
      cases is.symm.trans same
      obtain ⟨f', is', there'⟩ := axis_of sound axis'
      obtain ⟨cell', refused, rfl⟩ := (mem_nanWrites is').mp inside
      obtain ⟨field, (one : f.count = 1), -⟩ := mem_axes sound there
      obtain ⟨field', (one' : f'.count = 1), -⟩ := mem_axes sound there'
      have separate := address_apart sound (sound.inside _ field) (sound.inside _ field') (mem_cells.mp (List.mem_of_getElem? known)).2
        (mem_cells.mp (rejectedCells_cells refused)).2 (kept_ne known kept refused)
      simp only [one, one', Nat.one_mul] at separate
      rw [bytesOf_length]
      omega
    exact Prod.ext (same "x" (by decide)) (Prod.ext (same "y" (by decide)) (same "z" (by decide)))
  · have gone : ∀ name ∈ axisNames, (coordinate layout ((axisNames.flatMap (nanWrites layout (rejectedCells layout keep))).foldl Disk.patch
        cloud.message.data) name cell : Number K) = .nan := by
      intro name axis
      obtain ⟨f, is, one, real⟩ := sound.axes name axis
      obtain ⟨nan, small⟩ := numberOf_nan (K := K) real
      have written := Disk.patches_read fits apart (List.mem_flatMap.mpr ⟨name, axis, (mem_nanWrites is).mpr
        ⟨cell, mem_rejectedCells.mpr ⟨k, known, refused⟩, rfl⟩⟩)
      rw [bytesOf_length] at written
      rw [coordinate, is, Option.map_some, Option.getD_some, valueAt]
      rw [written, word_bytesOf _ small, nan]
    exact Prod.ext (gone "x" (by decide)) (Prod.ext (gone "y" (by decide)) (gone "z" (by decide)))

end invalidate

/-! ### The criteria of a side -/

section sides
variable {K : Type} [Exact K] {settings : Settings K} {heights : Option (List (Number K))} {offset : ℕ} {source : Source} {side : Side K}
  {sources : List Source} {sides : List (Side K)}

def ranged (settings : Settings K) (p : Point K) : Bool := measured p && (!settings.range.enabled || settings.range.holds (Point.norm p))

def Passes (settings : Settings K) (heights : Option (List (Number K))) (offset : ℕ) (source : Source) (xyz : List (Point K)) (j : ℕ) : Prop :=
  (∃ p ∈ xyz[j]?, measured p = true ∧ (settings.range.enabled = true → settings.range.holds (Point.norm p) = true)) ∧
    (settings.organizedSupport.enabled = true → ∀ shape evidence, organizedShape source = .ok (some shape, evidence) →
      Supported settings.organizedSupport xyz (xyz.map (ranged settings)) shape (j / shape.2) (j % shape.2)) ∧
    ∀ list ∈ heights, ∃ n ∈ list[offset + j]?, settings.groundHeight.holds n = true

theorem both_ok {a b mask : List Bool} (h : both a b = .ok mask) :
    mask.length = a.length ∧ (b.length = a.length → mask = List.zipWith (· && ·) a b) := by
  unfold both at h
  split at h
  · next same =>
    cases h
    refine ⟨?_, fun _ => rfl⟩
    rw [List.length_zipWith, same, Nat.min_self]
  · next other =>
    split at h
    · cases h
      exact ⟨List.length_map _, fun same => absurd same other⟩
    · cases h

theorem applySupport_ok {xyz : List (Point K)} {shape : Option (ℕ × ℕ)} {evidence status : String} {kept : List Bool}
    (shaped : organizedShape source = .ok (shape, evidence))
    (h : applySupport settings xyz (xyz.map (ranged settings)) evidence shape = .ok (kept, status)) :
    kept.length = xyz.length ∧ ∀ j < xyz.length, ∃ k, kept[j]? = some k ∧ (k = true ↔
      (∃ p ∈ xyz[j]?, ranged settings p = true) ∧ (settings.organizedSupport.enabled = true →
        ∀ shape evidence, organizedShape source = .ok (some shape, evidence) →
          Supported settings.organizedSupport xyz (xyz.map (ranged settings)) shape (j / shape.2) (j % shape.2))) := by
  have plain : ∀ j < xyz.length, ∃ p, xyz[j]? = some p ∧ (xyz.map (ranged settings))[j]? = some (ranged settings p) := by
    intro j inside
    refine ⟨xyz[j], List.getElem?_eq_getElem inside, ?_⟩
    rw [List.getElem?_map, List.getElem?_eq_getElem inside]
    rfl
  cases shape with
  | none =>
    cases h
    refine ⟨List.length_map _, fun j inside => ?_⟩
    obtain ⟨p, there, mapped⟩ := plain j inside
    refine ⟨_, mapped, fun yes => ⟨⟨p, there, yes⟩, fun _ shape' evidence' same => ?_⟩, fun known => ?_⟩
    · cases shaped.symm.trans same
    · obtain ⟨⟨q, same, yes⟩, -⟩ := known
      cases there.symm.trans same
      exact yes
  | some shape =>
    unfold applySupport at h
    dsimp only at h
    split at h
    · next enabled =>
      obtain ⟨mask, masked, h⟩ := bind_eq_ok h
      cases h
      have fits : xyz.length = shape.1 * shape.2 := by
        unfold supportMask at masked
        obtain ⟨_, fits, -⟩ := bind_eq_ok masked
        exact not_not.mp (not_or.mp (refuse_ok fits)).1
      obtain ⟨mask', run, length, each⟩ := supportMask_ok settings.organizedSupport fits ((List.length_map _).trans fits)
      cases masked.symm.trans run
      refine ⟨length.trans fits.symm, fun j inside => ?_⟩
      have wide : 0 < shape.2 := by
        rcases Nat.eq_zero_or_pos shape.2 with zero | positive
        · rw [zero, Nat.mul_zero] at fits
          omega
        · exact positive
      have row : j / shape.2 < shape.1 := Nat.div_lt_of_lt_mul (by rw [Nat.mul_comm, ← fits]; exact inside)
      obtain ⟨k, known, supported⟩ := each (j / shape.2) row (j % shape.2) (Nat.mod_lt _ wide)
      rw [Nat.div_add_mod'] at known
      refine ⟨k, known, supported.trans ⟨fun backed => ⟨?_, fun _ shape' evidence' same => ?_⟩, fun known => known.2 enabled shape evidence shaped⟩⟩
      · obtain ⟨p, there, mapped⟩ := plain j inside
        have valid := backed.1
        rw [Nat.div_add_mod', mapped] at valid
        exact ⟨p, there, Option.some.inj valid⟩
      · cases shaped.symm.trans same
        exact backed
    · next disabled =>
      cases h
      refine ⟨List.length_map _, fun j inside => ?_⟩
      obtain ⟨p, there, mapped⟩ := plain j inside
      refine ⟨_, mapped, fun yes => ⟨⟨p, there, yes⟩, fun enabled => absurd enabled disabled⟩, fun known => ?_⟩
      obtain ⟨⟨q, same, yes⟩, -⟩ := known
      cases there.symm.trans same
      exact yes

theorem applyHeights_ok {kept keep : List Bool} (h : applyHeights settings heights offset kept = .ok keep) : keep.length = kept.length ∧
    ((∀ list ∈ heights, offset + kept.length ≤ list.length) → ∀ j k, kept[j]? = some k → ∃ k', keep[j]? = some k' ∧
      (k' = true ↔ k = true ∧ ∀ list ∈ heights, ∃ n ∈ list[offset + j]?, settings.groundHeight.holds n = true)) := by
  unfold applyHeights at h
  split at h
  · next list =>
    obtain ⟨length, whole⟩ := both_ok h
    refine ⟨length, fun room j k known => ?_⟩
    have enough := room list rfl
    have inside := (List.getElem?_eq_some_iff.mp known).1
    obtain ⟨n, there⟩ : ∃ n, list[offset + j]? = some n := ⟨_, List.getElem?_eq_getElem (by omega)⟩
    have same : (((list.drop offset).take kept.length).map settings.groundHeight.holds)[j]? = some (settings.groundHeight.holds n) := by
      rw [List.getElem?_map, List.getElem?_take_of_lt inside, List.getElem?_drop, there]
      rfl
    have size : (((list.drop offset).take kept.length).map settings.groundHeight.holds).length = kept.length := by
      rw [List.length_map, List.length_take, List.length_drop]
      omega
    refine ⟨k && settings.groundHeight.holds n, ?_, ?_⟩
    · rw [whole size, List.getElem?_zipWith, known, same]
    · rw [Bool.and_eq_true]
      refine and_congr_right fun _ => ⟨fun high list' is => ?_, fun all => ?_⟩
      · cases is
        exact ⟨n, there, high⟩
      · obtain ⟨n', there', high⟩ := all list rfl
        cases there.symm.trans there'
        exact high
  · cases h
    exact ⟨rfl, fun _ j k known => ⟨k, known, fun yes => ⟨yes, fun list is => by cases is⟩, fun yes => yes.1⟩⟩

structure Side.Filtered (settings : Settings K) (heights : Option (List (Number K))) (side : Side K) : Prop where
  decoded : decode numberOf side.source.cloud = .ok side.xyz
  masked : side.keep.length = side.xyz.length
  inputRows : side.row.inputRows = side.xyz.length
  retained : side.row.retainedPoints = side.keep.countP id
  balance : side.row.inputRows = side.row.retainedPoints + side.row.rejectedPoints
  /-- The criteria are looked at where the heights are those of the rows. -/
  criteria : (∀ list ∈ heights, side.row.outputRowStart + side.xyz.length ≤ list.length) → ∀ j < side.xyz.length, ∃ kept,
    side.keep[j]? = some kept ∧ (kept = true ↔ Passes settings heights side.row.outputRowStart side.source side.xyz j)

theorem filterSource_ok (h : filterSource settings heights offset source = .ok side) :
    side.source = source ∧ side.row.outputRowStart = offset ∧ side.Filtered settings heights := by
  unfold filterSource at h
  obtain ⟨xyz, decoded, h⟩ := bind_eq_ok h
  dsimp only at h
  have masks : (if settings.range.enabled then xyz.map fun p => measured p && settings.range.holds (Point.norm p) else xyz.map measured) =
      xyz.map (ranged settings) := by
    cases enabled : settings.range.enabled with
    | false =>
      refine List.map_congr_left fun p _ => ?_
      rw [ranged, enabled, Bool.not_false, Bool.true_or, Bool.and_true]
    | true =>
      refine List.map_congr_left fun p _ => ?_
      rw [ranged, enabled, Bool.not_true, Bool.false_or]
  rw [masks] at h
  simp only [bind_eq_ok_iff] at h
  obtain ⟨⟨shape, evidence⟩, shaped, ⟨kept, status⟩, supported, keep, high, h⟩ := h
  cases h
  obtain ⟨length, each⟩ := applySupport_ok shaped supported
  obtain ⟨length', heighten⟩ := applyHeights_ok high
  have few : keep.countP id ≤ xyz.length := (List.countP_le_length).trans_eq (length'.trans length)
  refine ⟨rfl, rfl, decoded, length'.trans length, rfl, rfl, (Nat.add_sub_cancel' few).symm, fun room j inside => ?_⟩
  obtain ⟨k, known, backed⟩ := each j inside
  obtain ⟨k', there, passed⟩ := heighten (fun list is => by rw [length]; exact room list is) j k known
  refine ⟨k', there, passed.trans ?_⟩
  have asked : (∃ p ∈ xyz[j]?, ranged settings p = true) ↔
      ∃ p ∈ xyz[j]?, measured p = true ∧ (settings.range.enabled = true → settings.range.holds (Point.norm p) = true) := by
    refine exists_congr fun p => and_congr_right fun _ => ?_
    rw [ranged, Bool.and_eq_true]
    refine and_congr_right fun _ => ?_
    cases settings.range.enabled
    all_goals simp
  rw [backed, asked, and_assoc]
  exact Iff.rfl

theorem filterSources_ok (h : filterSources settings heights offset sources = .ok sides) :
    sides.map Side.source = sources ∧ (∀ side ∈ sides, side.Filtered settings heights) ∧ ∀ side ∈ sides,
      offset ≤ side.row.outputRowStart ∧ side.row.outputRowStart + side.xyz.length ≤ offset + (sides.flatMap Side.keep).length ∧
      ∀ j < side.xyz.length, (sides.flatMap Side.keep)[side.row.outputRowStart - offset + j]? = side.keep[j]? := by
  induction sources generalizing offset sides with
  | nil =>
    cases h
    exact ⟨rfl, fun _ inside => absurd inside List.not_mem_nil, fun _ inside => absurd inside List.not_mem_nil⟩
  | cons source rest ih =>
    obtain ⟨side, first, h⟩ := bind_eq_ok h
    obtain ⟨others, later, h⟩ := bind_eq_ok h
    cases h
    obtain ⟨same, start, filtered⟩ := filterSource_ok first
    obtain ⟨all, filters, places⟩ := ih later
    have length := filtered.masked
    refine ⟨by rw [List.map_cons, same, all], fun s inside => ?_, fun s inside => ?_⟩
    · rcases List.mem_cons.mp inside with rfl | inside
      · exact filtered
      · exact filters s inside
    · rw [List.flatMap_cons, List.length_append]
      rcases List.mem_cons.mp inside with rfl | inside
      · rw [start]
        refine ⟨le_refl _, by omega, fun j small => ?_⟩
        rw [Nat.sub_self, Nat.zero_add, List.getElem?_append_left (by omega)]
      · obtain ⟨low, high, place⟩ := places s inside
        refine ⟨by omega, by omega, fun j small => ?_⟩
        rw [List.getElem?_append_right (by omega), ← place j small]
        congr 1
        omega

end sides

/-! ### The derived cloud -/

section cloud
variable {K : Type} [Exact K]

/-- What an active filter makes of a cloud: `layout` is that of the cloud, and `heights` those of its rows. -/
structure Filtered (settings : Settings K) (cloud result : Cloud) (report : Report) (layout : Layout) (heights : Option (List (Number K)))
    (members : List Source) (sides : List (Side K)) : Prop where
  accepted : validate cloud.message = .ok layout
  sources : sides.map Side.source = members
  each : ∀ side ∈ sides, side.Filtered settings heights
  rows : (sides.flatMap Side.keep).length = layout.cells.length
  /-- A row of a side is a row of the cloud, and is kept if and only if it meets the criteria. -/
  criteria : ∀ side ∈ sides, ∀ j < side.xyz.length, ∃ kept, (sides.flatMap Side.keep)[side.row.outputRowStart + j]? = some kept ∧
    (kept = true ↔ Passes settings heights side.row.outputRowStart side.source side.xyz j)
  report : report.sources = sides.map Side.row
  invalidated : Invalidated K cloud result layout (sides.flatMap Side.keep)

variable {members : List Source}

theorem filterCloud_ok {settings : Settings K} {inverse : (Fin 4 → Fin 4 → K) → Except String (Fin 4 → Fin 4 → K)} {ground : Ground K}
    {cloud result : Cloud} {report : Report}
    (h : filterCloud settings inverse ground true cloud members = .ok (result, report)) : ∃ layout heights sides,
      Filtered settings cloud result report layout heights members sides ∧
        heightsOf settings inverse ground (layout.cells.map (pointAt layout cloud.message.data)) = .ok heights := by
  unfold filterCloud at h
  obtain ⟨xyz, decoded, h⟩ := bind_eq_ok h
  obtain ⟨_, -, h⟩ := bind_eq_ok h
  obtain ⟨heights, high, h⟩ := bind_eq_ok h
  obtain ⟨sides, filtered, h⟩ := bind_eq_ok h
  obtain ⟨_, -, h⟩ := bind_eq_ok h
  obtain ⟨derived, invalidated, h⟩ := bind_eq_ok h
  cases h
  obtain ⟨layout, valid, -⟩ := bind_eq_ok (show (validate cloud.message >>= _) = .ok xyz from decoded)
  cases (decode_ok valid).symm.trans decoded
  have invalid : Invalidated K cloud result layout (sides.flatMap Side.keep) := invalidateRows_ok valid invalidated
  obtain ⟨sources, each, places⟩ := filterSources_ok filtered
  have rows : ∀ list ∈ heights, list.length = layout.cells.length := by
    intro list is
    unfold heightsOf at high
    split at high
    · cases found : groundZ inverse ground (layout.cells.map (pointAt layout cloud.message.data)) with
      | error e =>
        rw [found] at high
        cases high
      | ok list' =>
        rw [found] at high
        cases high
        cases is
        unfold groundZ at found
        obtain ⟨axleBase, -, found⟩ := bind_eq_ok found
        cases found
        rw [List.length_map, List.length_map]
    · cases high
      cases is
  refine ⟨layout, heights, sides, ⟨valid, sources, each, invalid.rows, fun side inside j small => ?_, rfl, invalid⟩, high⟩
  obtain ⟨-, bound, place⟩ := places side inside
  rw [Nat.zero_add, invalid.rows] at bound
  obtain ⟨kept, known, passed⟩ := (each side inside).criteria (fun list is => by rw [rows list is]; exact bound) j small
  have same := place j small
  rw [Nat.sub_zero, known] at same
  exact ⟨kept, same, passed⟩

structure Admissible (settings : Settings K) (inverse : (Fin 4 → Fin 4 → K) → Except String (Fin 4 → Fin 4 → K)) (ground : Ground K)
    (cloud : Cloud) (members : List Source) (layout : Layout) : Prop where
  accepted : validate cloud.message = .ok layout
  sides : ∀ source ∈ members, ∃ own, validate source.cloud = .ok own ∧ own.pointCount = source.rawCount
  some : members ≠ []
  rows : (members.map Source.rawCount).sum = layout.pointCount
  ground : settings.groundHeight.enabled = true → ∃ axleBase, inverse ground.baseAxle = .ok axleBase

variable {layout : Layout}

theorem cells_length {message : Message} (valid : validate message = .ok layout) :
    layout.cells.length = layout.pointCount ∧ layout.cells.length = layout.height * layout.width := by
  have count : layout.cells.length = layout.height * layout.width := by simp [Layout.cells]
  exact ⟨by rw [count, (validate_sound valid).points, Nat.mul_comm], count⟩

theorem shapeOf_size (points : layout.pointCount = layout.width * layout.height) (flags : List String) :
    ∀ shape ∈ (shapeOf layout flags).1, shape.1 * shape.2 = layout.pointCount := by
  have reported : ∀ width height order, ∀ shape ∈ (reportedShape layout.pointCount width height order).1,
      shape.1 * shape.2 = layout.pointCount := by
    intro width height order shape is
    unfold reportedShape at is
    split at is
    · cases is
    split at is
    · cases is
    split at is
    · cases is
    next fits =>
      cases is
      rw [Nat.mul_comm]
      exact not_not.mp (not_or.mp (not_or.mp fits).2).2
  intro shape is
  unfold shapeOf at is
  split at is
  · cases is
    rw [points, Nat.mul_comm]
  split at is
  · cases is
  · exact reported _ _ _ shape is
  · cases is

theorem applySupport_returns (settings : Settings K) {xyz : List (Point K)} {mask : List Bool} {shape : Option (ℕ × ℕ)}
    (evidence : String) (same : mask.length = xyz.length) (size : ∀ s ∈ shape, s.1 * s.2 = xyz.length) :
    ∃ kept status, applySupport settings xyz mask evidence shape = .ok (kept, status) ∧ kept.length = xyz.length := by
  cases shape with
  | none => exact ⟨mask, _, rfl, same⟩
  | some shape =>
    have fits := size shape rfl
    obtain ⟨supportedMask, run, length, -⟩ := supportMask_ok settings.organizedSupport fits.symm (same.trans fits.symm)
    unfold applySupport
    dsimp only
    split
    · exact ⟨supportedMask, _, bind_of_ok run rfl, length.trans fits⟩
    · exact ⟨mask, _, rfl, same⟩

theorem applyHeights_returns (settings : Settings K) (heights : Option (List (Number K))) (offset : ℕ) (kept : List Bool)
    (room : ∀ list ∈ heights, offset + kept.length ≤ list.length) : ∃ keep, applyHeights settings heights offset kept = .ok keep := by
  cases heights with
  | none => exact ⟨kept, rfl⟩
  | some list =>
    have enough := room list rfl
    have size : (((list.drop offset).take kept.length).map settings.groundHeight.holds).length = kept.length := by
      rw [List.length_map, List.length_take, List.length_drop]
      omega
    exact ⟨_, if_pos size⟩

theorem filterSource_returns (settings : Settings K) (heights : Option (List (Number K))) (offset : ℕ) {source : Source} {own : Layout}
    (valid : validate source.cloud = .ok own) (room : ∀ list ∈ heights, offset + own.pointCount ≤ list.length) :
    ∃ side, filterSource settings heights offset source = .ok side ∧ side.xyz.length = own.pointCount := by
  have decoded := decode_ok (K := K) valid
  have count := (cells_length valid).1
  have points : (own.cells.map (pointAt (K := K) own source.cloud.data)).length = own.pointCount := (List.length_map _).trans count
  have shaped : organizedShape source = .ok (shapeOf own source.diagnosticFlags) := bind_of_ok valid rfl
  have size := shapeOf_size (validate_sound valid).points source.diagnosticFlags
  have length : (if settings.range.enabled then
      (own.cells.map (pointAt own source.cloud.data)).map fun p : Point K => measured p && settings.range.holds (Point.norm p)
      else (own.cells.map (pointAt (K := K) own source.cloud.data)).map measured).length =
      (own.cells.map (pointAt (K := K) own source.cloud.data)).length := by
    split
    all_goals exact List.length_map _
  obtain ⟨kept, status, supported, length⟩ := applySupport_returns settings (shapeOf own source.diagnosticFlags).2 length
    fun s is => by rw [points]; exact size s is
  obtain ⟨keep, high⟩ := applyHeights_returns settings heights offset kept
    fun list is => by rw [length, points]; exact room list is
  exact ⟨_, bind_of_ok decoded (bind_of_ok shaped (bind_of_ok supported (bind_of_ok high rfl))), points⟩

theorem filterSources_returns (settings : Settings K) (heights : Option (List (Number K))) (offset : ℕ)
    (valid : ∀ source ∈ members, ∃ own, validate source.cloud = .ok own ∧ own.pointCount = source.rawCount)
    (room : ∀ list ∈ heights, offset + (members.map Source.rawCount).sum ≤ list.length) :
    ∃ sides, filterSources settings heights offset members = .ok sides ∧ sides.length = members.length ∧
      (sides.flatMap Side.keep).length = (members.map Source.rawCount).sum := by
  induction members generalizing offset with
  | nil => exact ⟨[], rfl, rfl, rfl⟩
  | cons source rest ih =>
    obtain ⟨own, accepted, count⟩ := valid source (List.mem_cons_self ..)
    rw [List.map_cons, List.sum_cons] at room
    obtain ⟨side, filtered, length⟩ := filterSource_returns settings heights offset accepted
      fun list is => by have enough := room list is; omega
    obtain ⟨others, later, number, total⟩ := @ih (offset + side.xyz.length) (fun s inside => valid s (List.mem_cons_of_mem _ inside))
      fun list is => by have enough := room list is; omega
    refine ⟨side :: others, bind_of_ok filtered (bind_of_ok later rfl), by rw [List.length_cons, List.length_cons, number], ?_⟩
    have masked := (filterSource_ok filtered).2.2.masked
    rw [List.flatMap_cons, List.length_append, total, masked, length, count, List.map_cons, List.sum_cons]

theorem filterCloud_returns {settings : Settings K} {inverse : (Fin 4 → Fin 4 → K) → Except String (Fin 4 → Fin 4 → K)} {ground : Ground K}
    {cloud : Cloud} (h : Admissible settings inverse ground cloud members layout) :
    ∃ result report, filterCloud settings inverse ground true cloud members = .ok (result, report) := by
  have decoded := decode_ok (K := K) h.accepted
  obtain ⟨count, shape⟩ := cells_length h.accepted
  have points : (layout.cells.map (pointAt (K := K) layout cloud.message.data)).length = layout.pointCount := (List.length_map _).trans count
  have total : ¬((layout.cells.map (pointAt (K := K) layout cloud.message.data)).length ≠ (members.map Source.rawCount).foldl (· + ·) 0) := by
    rw [points, ← List.sum_eq_foldl, h.rows]
    exact not_not.mpr rfl
  obtain ⟨heights, high, rows⟩ : ∃ heights, heightsOf settings inverse ground (layout.cells.map (pointAt layout cloud.message.data)) =
      .ok heights ∧ ∀ list ∈ heights, layout.pointCount = list.length := by
    unfold heightsOf
    split
    · next enabled =>
      obtain ⟨axleBase, inverted⟩ := h.ground enabled
      refine ⟨some _, by rw [groundZ, inverted]; rfl, fun list is => ?_⟩
      cases is
      rw [List.length_map, points]
    · exact ⟨none, rfl, fun list is => by cases is⟩
  obtain ⟨sides, filtered, number, length⟩ := filterSources_returns settings heights 0 h.sides
    fun list is => by rw [Nat.zero_add, h.rows, rows list is]
  have some_ : ¬(sides = []) := by
    rintro rfl
    exact h.some (List.length_eq_zero_iff.mp number.symm)
  have invalidated := @invalidateRows_returns cloud layout _ h.accepted (length.trans (h.rows.trans count.symm))
  exact ⟨_, _, bind_of_ok decoded (bind_of_ok (refuse_of_not total) (bind_of_ok high (bind_of_ok filtered
    (bind_of_ok (refuse_of_not some_) (bind_of_ok invalidated rfl)))))⟩

/-- The mask and the cloud of the filter, for every image and every layout. -/
theorem filter_spec (K : Type) [Exact K] :
    (∀ (support : Support K) (xyz : List (Point K)) (valid : List Bool) (shape : ℕ × ℕ), xyz.length = shape.1 * shape.2 →
      valid.length = shape.1 * shape.2 → ∃ mask, supportMask support xyz valid shape = .ok mask ∧ mask.length = shape.1 * shape.2 ∧
        ∀ r < shape.1, ∀ c < shape.2, ∃ kept, mask[r * shape.2 + c]? = some kept ∧
          (kept = true ↔ Supported support xyz valid shape r c)) ∧
    ∀ (settings : Settings K) (inverse : (Fin 4 → Fin 4 → K) → Except String (Fin 4 → Fin 4 → K)) (ground : Ground K) (cloud : Cloud)
      (members : List Source),
      (∀ layout, Admissible settings inverse ground cloud members layout →
        ∃ result report, filterCloud settings inverse ground true cloud members = .ok (result, report)) ∧
      (∀ result report, filterCloud settings inverse ground true cloud members = .ok (result, report) → ∃ layout heights sides,
        Filtered settings cloud result report layout heights members sides ∧
          heightsOf settings inverse ground (layout.cells.map (pointAt layout cloud.message.data)) = .ok heights) ∧
      ∀ result report, filterCloud settings inverse ground false cloud members = .ok (result, report) → result = cloud := by
  refine ⟨fun support xyz valid shape points masks => supportMask_ok support points masks, fun settings inverse ground cloud members =>
    ⟨fun layout admissible => filterCloud_returns admissible, fun result report h => filterCloud_ok h, fun result report h => ?_⟩⟩
  cases h
  rfl

end cloud

end Smartwheel.CloudFilter
