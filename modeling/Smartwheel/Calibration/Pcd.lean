import Smartwheel.Calibration.AsciiCloud

/-! `_read_pcd`, and what both readers return. -/
namespace Smartwheel.AsciiCloud
open Effect

/-- `np.cumsum`, from a number on. -/
def cumsum : ℕ → List ℕ → List ℕ
  | _, [] => []
  | total, count :: counts => (total + count) :: cumsum (total + count) counts

structure Layout where
  fields : List String
  counts : List ℕ
  total : ℕ
  width : ℕ
  height : ℕ
  viewpoint : Option (List String)

/-- `xyz_columns`. -/
def Layout.column (layout : Layout) (name : String) : ℕ :=
  (cumsum 0 (0 :: layout.counts.dropLast)).getD (layout.fields.idxOf name) 0

def skipped : List String → Bool
  | [] => true
  | head :: _ => head.toList.head? = some '#'

variable {α : Type} (p : Numerals α) (maxPoints : ℕ)

def readEntries : ℕ → List (String × List String) → List String → Except String (List (String × List String) × List String)
  | 0, _, _ => .error "PCD header exceeds bounded size"
  | _ + 1, _, [] => .error "truncated PCD header"
  | k + 1, header, line :: rest =>
    let parts := split line
    if skipped parts then readEntries k header rest
    else
      let key := upper (parts.headD "")
      if key ∈ header.map Prod.fst then .error "duplicate PCD header entry"
      else if key = "DATA" then .ok (header ++ [(key, parts.tail)], rest)
      else readEntries k (header ++ [(key, parts.tail)]) rest

def number (entry : Option (List String)) : Except String ℤ :=
  match entry with
  | none => .error "KeyError"
  | some [] => .error "IndexError"
  | some (token :: _) => int p token

def readLayout (header : List (String × List String)) : Except String Layout := do
  require (header.lookup "DATA" = some ["ascii"]) "only PCD DATA ascii is supported; binary is never interpreted as text"
  let fields := (header.lookup "FIELDS").getD []
  require (fields.Nodup ∧ ∀ name ∈ coordinates, name ∈ fields) "PCD needs unique xyz fields"
  let counts ← ((header.lookup "COUNT").getD (fields.map fun _ => "1")).mapM (int p)
  let sizes ← ((header.lookup "SIZE").getD []).mapM (int p)
  let types := (header.lookup "TYPE").getD []
  require (counts.length = fields.length ∧ sizes.length = fields.length ∧ types.length = fields.length ∧ (∀ value ∈ counts, 0 < value) ∧
    (∀ value ∈ sizes, value ∈ [1, 2, 4, 8]) ∧ ∀ value ∈ types, value ∈ ["F", "I", "U"]) "invalid PCD field sizes/types/counts"
  require (∀ name ∈ coordinates, counts[fields.idxOf name]? = some 1) "PCD xyz must each be scalar"
  let width ← number p (header.lookup "WIDTH")
  let height ← number p (header.lookup "HEIGHT")
  let total ← number p (some ((header.lookup "POINTS").getD [toString (width * height)]))
  require (1 ≤ width ∧ 1 ≤ height ∧ total = width * height ∧ 3 ≤ total ∧ total ≤ maxPoints) "PCD dimensions/count exceed bounds or disagree"
  return ⟨fields, counts.map Int.toNat, total.toNat, width.toNat, height.toNat, header.lookup "VIEWPOINT"⟩

def acceptPcd (lines : List String) : Except String (Layout × List String) := do
  let (header, rest) ← readEntries 1000 [] lines
  return (← readLayout p maxPoints header, rest)

def cell (layout : Layout) (parts : List String) (name : String) : Except String α :=
  (parts[layout.column name]?).elim (.error "IndexError") (float p)

def readPoints (layout : Layout) : ℕ → List String → Except String (List (Point α))
  | found, [] => do
    require (found = layout.total) "truncated PCD data"
    return []
  | found, line :: lines =>
    let parts := split line
    if skipped parts then readPoints layout found lines
    else do
      refuse (parts.length ≠ layout.counts.sum ∨ layout.total ≤ found) "PCD data row/count disagrees with header"
      let point : Point α := ⟨← cell p layout parts "x", ← cell p layout parts "y", ← cell p layout parts "z"⟩
      return point :: (← readPoints layout (found + 1) lines)

/-- `_read_pcd`. -/
def readPcd (lines : List String) : Except String (List (Point α) × Layout) := do
  let (layout, lines) ← acceptPcd p maxPoints lines
  return (← readPoints p layout 0 lines, layout)

/-! ### What the rows have -/

def rowsOf (lines : List String) : List (List String) := (lines.map split).filter (!skipped ·)

def Layout.before (layout : Layout) (name : String) : ℕ := (layout.counts.take (layout.fields.idxOf name)).sum

section Table
variable (shows : String → α → Prop) (layout : Layout)

def Cell (row : List String) (name : String) (value : α) : Prop := ∃ token, row[layout.before name]? = some token ∧ shows token value

structure Tokens (row : List String) (point : Point α) : Prop where
  length : row.length = layout.counts.sum
  x : Cell shows layout row "x" point.x
  y : Cell shows layout row "y" point.y
  z : Cell shows layout row "z" point.z

structure Table (lines : List String) (points : List (Point α)) : Prop where
  length : (rowsOf lines).length = layout.total
  rows : List.Forall₂ (Tokens shows layout) (rowsOf lines) points

end Table

variable {p maxPoints} {layout : Layout}

theorem cumsum_take (total : ℕ) (counts : List ℕ) {i : ℕ} (h : i < counts.length) :
    (cumsum total counts).getD i 0 = total + (counts.take (i + 1)).sum := by
  induction counts generalizing total i with
  | nil => cases h
  | cons count counts ih =>
    cases i with
    | zero => simp [cumsum]
    | succ i =>
      rw [cumsum, List.getD_cons_succ, ih _ (Nat.lt_of_succ_lt_succ h), List.take_succ_cons, List.sum_cons, Nat.add_assoc]

structure Layout.Fits (layout : Layout) : Prop where
  counts : layout.counts.length = layout.fields.length
  positive : ∀ count ∈ layout.counts, 0 < count
  known : ∀ name ∈ coordinates, name ∈ layout.fields

theorem Layout.Fits.index (h : layout.Fits) {name : String} (wanted : name ∈ coordinates) : layout.fields.idxOf name < layout.counts.length :=
  h.counts ▸ List.idxOf_lt_length_iff.mpr (h.known name wanted)

theorem Layout.Fits.column (h : layout.Fits) {name : String} (wanted : name ∈ coordinates) : layout.column name = layout.before name := by
  have inside := h.index wanted
  rw [Layout.column, cumsum_take _ _ (by simp; omega), List.take_succ_cons, List.sum_cons, Nat.zero_add, Nat.zero_add, Layout.before,
    List.dropLast_eq_take, List.take_take, Nat.min_eq_left (by omega)]

theorem Layout.Fits.before (h : layout.Fits) {name : String} (wanted : name ∈ coordinates) : layout.before name < layout.counts.sum := by
  have inside := h.index wanted
  have split := congrArg List.sum (List.take_append_drop (layout.fields.idxOf name) layout.counts)
  rw [List.sum_append, List.drop_eq_getElem_cons inside, List.sum_cons] at split
  have more := h.positive _ (List.getElem_mem inside)
  rw [Layout.before]
  omega

theorem readLayout_fits {header : List (String × List String)} (h : readLayout p maxPoints header = .ok layout) : layout.Fits := by
  unfold readLayout at h
  simp only [bind_eq_ok_iff] at h
  obtain ⟨_, -, _, named, counts, -, _, -, _, valid, _, -, _, -, _, -, _, -, _, -, h⟩ := h
  cases h
  have sizes := require_ok valid
  refine ⟨by rw [List.length_map, sizes.1], fun count there => ?_, (require_ok named).2⟩
  obtain ⟨value, member, rfl⟩ := List.mem_map.mp there
  have positive := sizes.2.2.2.1 value member
  omega

theorem cell_ok (h : layout.Fits) {parts : List String} {name : String} (wanted : name ∈ coordinates) {value : α} :
    cell p layout parts name = .ok value ↔ Cell p.shows layout parts name value := by
  rw [cell, h.column wanted, Cell]
  cases there : parts[layout.before name]? <;> simp [float_ok]

theorem readPoints_rows (h : layout.Fits) {found : ℕ} {lines : List String} {points : List (Point α)} :
    readPoints p layout found lines = .ok points ↔
      found + (rowsOf lines).length = layout.total ∧ List.Forall₂ (Tokens p.shows layout) (rowsOf lines) points := by
  induction lines generalizing found points with
  | nil =>
    constructor
    · intro read
      obtain ⟨_, all, read⟩ := bind_eq_ok read
      cases read
      exact ⟨require_ok all, .nil⟩
    · rintro ⟨all, none⟩
      cases none
      exact bind_of_ok (if_pos all) rfl
  | cons line lines ih =>
    rw [readPoints]
    by_cases skip : skipped (split line) = true
    · have rest : rowsOf (line :: lines) = rowsOf lines := by simp [rowsOf, skip]
      rw [if_pos skip, rest, ih]
    · have more : rowsOf (line :: lines) = split line :: rowsOf lines := by simp [rowsOf, skip]
      rw [if_neg skip, more, List.length_cons]
      constructor
      · intro read
        simp only [bind_eq_ok_iff] at read
        obtain ⟨_, fine, x, shownX, y, shownY, z, shownZ, later, rest, read⟩ := read
        cases read
        obtain ⟨count, each⟩ := ih.mp rest
        have length := not_or.mp (refuse_ok fine)
        exact ⟨by omega, .cons ⟨not_not.mp length.1, (cell_ok h (by decide)).mp shownX, (cell_ok h (by decide)).mp shownY,
          (cell_ok h (by decide)).mp shownZ⟩ each⟩
      · rintro ⟨count, each⟩
        cases each with
        | cons one rest =>
          refine bind_of_ok (refuse_of_not (not_or.mpr ⟨not_not.mpr one.length, by omega⟩)) ?_
          refine bind_of_ok ((cell_ok h (by decide)).mpr one.x) (bind_of_ok ((cell_ok h (by decide)).mpr one.y) ?_)
          exact bind_of_ok ((cell_ok h (by decide)).mpr one.z) (bind_of_ok (ih.mpr ⟨by omega, rest⟩) rfl)

theorem readPcd_iff {lines rest : List String} (h : acceptPcd p maxPoints lines = .ok (layout, rest)) (points : List (Point α)) :
    readPcd p maxPoints lines = .ok (points, layout) ↔ Table p.shows layout rest points := by
  obtain ⟨⟨header, rest'⟩, entries, declared⟩ := bind_eq_ok h
  obtain ⟨layout', fits, same⟩ := bind_eq_ok declared
  cases same
  have rows : readPoints p layout 0 rest = .ok points ↔ _ := readPoints_rows (readLayout_fits fits)
  rw [Nat.zero_add] at rows
  constructor
  · intro read
    obtain ⟨⟨_, _⟩, again, read⟩ := bind_eq_ok read
    rw [h] at again
    cases again
    obtain ⟨found, body, read⟩ := bind_eq_ok read
    cases read
    exact ⟨(rows.mp body).1, (rows.mp body).2⟩
  · intro table
    exact bind_of_ok h (bind_of_ok (rows.mpr ⟨table.length, table.rows⟩) rfl)

theorem Table.mono {shows shows' : String → α → Prop} (imp : ∀ token value, shows token value → shows' token value) {lines : List String}
    {points : List (Point α)} (h : Table shows layout lines points) : Table shows' layout lines points where
  length := h.length
  rows := h.rows.imp fun _ _ one => ⟨one.length, one.x.imp fun _ => And.imp_right (imp _ _), one.y.imp fun _ => And.imp_right (imp _ _),
    one.z.imp fun _ => And.imp_right (imp _ _)⟩

/-- Both readers return exactly the points of a body of the declared shape, and so what was printed in it. -/
theorem clouds_read {α : Type} (p : Numerals α) (maxPoints : ℕ) (lines rest : List String) :
    (∀ elements, acceptHeader p maxPoints lines = .ok (elements, rest) → ∀ points,
      (readPly p maxPoints lines = .ok (points, elements) ↔ Body p maxPoints p.shows elements rest points) ∧
      ∀ print : α → String, (∀ value, p.float (print value) = some value) →
        Body p maxPoints (fun token value => token = print value) elements rest points → readPly p maxPoints lines = .ok (points, elements)) ∧
    ∀ layout, acceptPcd p maxPoints lines = .ok (layout, rest) → (∀ name ∈ coordinates, layout.before name < layout.counts.sum) ∧ ∀ points,
      (readPcd p maxPoints lines = .ok (points, layout) ↔ Table p.shows layout rest points) ∧
      ∀ print : α → String, (∀ value, p.float (print value) = some value) →
        Table (fun token value => token = print value) layout rest points → readPcd p maxPoints lines = .ok (points, layout) := by
  refine ⟨fun elements header points => ⟨readPly_iff header points, fun print back body => (readPly_iff header points).mpr ?_⟩,
    fun layout header => ⟨fun name wanted => ?_, fun points => ⟨readPcd_iff header points, fun print back table => (readPcd_iff header points).mpr ?_⟩⟩⟩
  · exact body.mono (fun token value (printed : token = print value) => printed ▸ back value)
  · obtain ⟨_, _, declared⟩ := bind_eq_ok header
    obtain ⟨_, fits, same⟩ := bind_eq_ok declared
    cases same
    exact (readLayout_fits fits).before wanted
  · exact table.mono fun token value printed => printed ▸ back value

/-- What `int` and `float` make of a few tokens. -/
def few : Numerals ℤ where
  int token := [("0", 0), ("1", 1), ("3", 3), ("4", 4)].lookup token
  float token := [("0", 0), ("1", 1)].lookup token

def misprint : List String := ["FIELDS x y z", "SIZE 4 4 4", "TYPE F F F", "COUNT 1 1 1", "WIDTH 3", "HEIGHT 1", "POINTS 3", "DATA ascii",
  "0 0 0", "0 1 0", "1 0 O"]

/-- Rows of the right lengths are refused where a coordinate is not a number. -/
theorem misprint_refused : acceptPcd few 200000 misprint = .ok (⟨["x", "y", "z"], [1, 1, 1], 3, 3, 1, none⟩, misprint.drop 8) ∧
    (rowsOf (misprint.drop 8)).length = 3 ∧ (∀ row ∈ rowsOf (misprint.drop 8), row.length = 3) ∧
    readPcd few 200000 misprint = .error "ValueError" := by
  refine ⟨rfl, by decide, by decide, rfl⟩

end Smartwheel.AsciiCloud
