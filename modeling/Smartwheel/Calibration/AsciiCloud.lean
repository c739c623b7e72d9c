import Mathlib.Data.List.Forall2
import Smartwheel.Calibration.Value
import Smartwheel.Effect.Check

/-! The readers of clouds in ASCII: `_read_ply` and `_read_pcd`. -/
namespace Smartwheel.AsciiCloud
open Effect Calibration

/-- What `int` and `float` make of a token. -/
structure Numerals (α : Type) where
  int : String → Option ℤ
  float : String → Option α

/-- `str.split`. -/
def split (line : String) : List String := ((line.toList.splitOnP isSpace).filter (· ≠ [])).map String.ofList

/-- `str.upper`, of ASCII. -/
def upper (s : String) : String := String.ofList (s.toList.map Char.toUpper)

def coordinates : List String := ["x", "y", "z"]

structure Property where
  name : String
  type : String
  isList : Bool

structure Element where
  name : String
  count : ℕ
  properties : List Property

def Element.isVertex (e : Element) : Bool := e.name = "vertex"

/-- `_PLY_SCALARS`. -/
def scalars : List String := ["char", "uchar", "short", "ushort", "int", "uint", "float", "double",
  "int8", "uint8", "int16", "uint16", "int32", "uint32", "float32", "float64"]

variable {α : Type} (p : Numerals α) (maxPoints : ℕ)

def int (token : String) : Except String ℤ := (p.int token).elim (.error "ValueError") .ok

def float (token : String) : Except String α := (p.float token).elim (.error "ValueError") .ok

structure Header where
  elements : List Element
  encoding : Option (List String)

def readProperty : List String → Except String Property
  | [type, name] => do
    require (type ∈ scalars) "unsupported PLY property declaration"
    return ⟨name, type, false⟩
  | ["list", length, type, name] => do
    require (length ∈ scalars ∧ type ∈ scalars) "unsupported PLY property declaration"
    return ⟨name, type, true⟩
  | _ => .error "unsupported PLY property declaration"

def declare (s : Header) : List String → Except String Header
  | "format" :: encoding => return { s with encoding := some encoding }
  | ["element", name, count] => do
    let count ← int p count
    refuse (count < 0 ∨ maxPoints < count) "PLY element exceeds bounded count"
    return { s with elements := s.elements ++ [⟨name, count.toNat, []⟩] }
  | "property" :: parts =>
    match s.elements.getLast? with
    | none => .error "unsupported or misplaced PLY header entry"
    | some e => do
      let prop ← readProperty parts
      refuse (prop.name ∈ e.properties.map (·.name)) "duplicate PLY property"
      return { s with elements := s.elements.dropLast ++ [{ e with properties := e.properties ++ [prop] }] }
  | _ => .error "unsupported or misplaced PLY header entry"

def readHeader : ℕ → Header → List String → Except String (Header × List String)
  | 0, _, _ => .error "PLY header exceeds bounded size"
  | _ + 1, _, [] => .error "truncated PLY header"
  | k + 1, s, line :: rest =>
    let parts := split line
    if parts = [] ∨ parts.head? ∈ [some "comment", some "obj_info"] then readHeader k s rest
    else if parts.head? = some "end_header" then .ok (s, rest)
    else do readHeader k (← declare p maxPoints s parts) rest

def acceptHeader : List String → Except String (List Element × List String)
  | [] => .error "missing PLY signature"
  | first :: rest => do
    require (strip first = "ply") "missing PLY signature"
    let (s, rest) ← readHeader p maxPoints 1000 ⟨[], none⟩ rest
    require (s.encoding = some ["ascii", "1.0"]) "only PLY format ascii 1.0 is supported"
    match s.elements.filter (·.isVertex) with
    | [vertex] =>
      require (3 ≤ vertex.count) "PLY needs exactly one nonempty vertex element"
      require (∀ name ∈ coordinates, name ∈ (vertex.properties.filter (!·.isList)).map (·.name)) "PLY needs scalar vertex xyz properties"
      return (s.elements, rest)
    | _ => .error "PLY needs exactly one nonempty vertex element"

def readRow (vertex : Bool) : List Property → List String → Except String (List (String × α))
  | [], fields => do
    require (fields = []) "PLY row has unexpected trailing values"
    return []
  | _ :: _, [] => .error "truncated PLY property data"
  | prop :: props, field :: fields => do
    if prop.isList then
      let length ← int p field
      refuse (length < 0 ∨ maxPoints < length ∨ fields.length < length) "invalid PLY list property length"
      readRow vertex props (fields.drop length.toNat)
    else if vertex ∧ prop.name ∈ coordinates then
      let value ← float p field
      return (prop.name, value) :: (← readRow vertex props fields)
    else readRow vertex props fields

structure Point (α : Type) where
  x : α
  y : α
  z : α

def pointOf (values : List (String × α)) : Option (Point α) := do
  return ⟨← values.lookup "x", ← values.lookup "y", ← values.lookup "z"⟩

def pointsOf (e : Element) (values : List (String × α)) : Except String (List (Point α)) :=
  if e.isVertex then (pointOf values).elim (.error "KeyError") (.ok [·]) else .ok []

def readRows (e : Element) : ℕ → List String → Except String (List (Point α) × List String)
  | 0, lines => .ok ([], lines)
  | _ + 1, [] => .error "truncated PLY element data"
  | k + 1, line :: lines => do
    let values ← readRow p maxPoints e.isVertex e.properties (split line)
    let new ← pointsOf e values
    let (points, lines) ← readRows e k lines
    return (new ++ points, lines)

def readElements : List Element → List String → Except String (List (Point α) × List String)
  | [], lines => .ok ([], lines)
  | e :: elements, lines => do
    let (first, lines) ← readRows p maxPoints e e.count lines
    let (points, lines) ← readElements elements lines
    return (first ++ points, lines)

/-- `_read_ply`. -/
def readPly (lines : List String) : Except String (List (Point α) × List Element) := do
  let (elements, lines) ← acceptHeader p maxPoints lines
  let (points, lines) ← readElements p maxPoints elements lines
  refuse (∃ line ∈ lines, strip line ≠ "") "PLY contains undeclared trailing data"
  return (points, elements)

/-! ### What a body has -/

section Body
variable (shows : String → α → Prop)

inductive Row (vertex : Bool) : List Property → List String → List (String × α) → Prop
  | done : Row vertex [] [] []
  | list {prop : Property} {props : List Property} {token : String} {items fields : List String} {values : List (String × α)}
      (listed : prop.isList = true) (length : p.int token = some items.length) (small : items.length ≤ maxPoints)
      (rest : Row vertex props fields values) : Row vertex (prop :: props) (token :: (items ++ fields)) values
  | other {prop : Property} {props : List Property} {token : String} {fields : List String} {values : List (String × α)}
      (scalar : prop.isList = false) (other : ¬(vertex = true ∧ prop.name ∈ coordinates)) (rest : Row vertex props fields values) :
      Row vertex (prop :: props) (token :: fields) values
  | coordinate {prop : Property} {props : List Property} {token : String} {value : α} {fields : List String} {values : List (String × α)}
      (scalar : prop.isList = false) (wanted : vertex = true ∧ prop.name ∈ coordinates) (shown : shows token value)
      (rest : Row vertex props fields values) : Row vertex (prop :: props) (token :: fields) ((prop.name, value) :: values)

def Line (e : Element) (line : String) (points : List (Point α)) : Prop :=
  ∃ values, Row p maxPoints shows e.isVertex e.properties (split line) values ∧
    points = if e.isVertex then (pointOf values).toList else []

inductive Body : List Element → List String → List (Point α) → Prop
  | blank {lines : List String} (blank : ∀ line ∈ lines, strip line = "") : Body [] lines []
  | element {e : Element} {elements : List Element} {rows lines : List String} {found : List (List (Point α))} {points : List (Point α)}
      (count : rows.length = e.count) (each : List.Forall₂ (Line p maxPoints shows e) rows found) (rest : Body elements lines points) :
      Body (e :: elements) (rows ++ lines) (found.flatten ++ points)

end Body

def Numerals.shows (token : String) (value : α) : Prop := p.float token = some value

variable {p maxPoints}

theorem int_ok {token : String} {n : ℤ} : int p token = .ok n ↔ p.int token = some n := by
  cases read : p.int token <;> simp [int, read]

theorem float_ok {token : String} {value : α} : float p token = .ok value ↔ p.shows token value := by
  cases read : p.float token <;> simp [float, Numerals.shows, read]

variable {fields : List String} {props : List Property} {values : List (String × α)}

theorem readRow_row {vertex : Bool}
    (h : readRow p maxPoints vertex props fields = .ok values) : Row p maxPoints p.shows vertex props fields values := by
  induction props generalizing fields values with
  | nil =>
    obtain ⟨_, none, rest⟩ := bind_eq_ok h
    cases rest
    rw [require_ok none]
    exact .done
  | cons prop props ih =>
    cases fields with
    | nil => cases h
    | cons field fields =>
      rw [readRow] at h
      split at h
      next listed =>
        obtain ⟨length, read, h⟩ := bind_eq_ok h
        obtain ⟨_, fine, h⟩ := bind_eq_ok h
        have bounds := refuse_ok fine
        push Not at bounds
        obtain ⟨n, rfl⟩ := Int.eq_ofNat_of_zero_le bounds.1
        have long : n ≤ fields.length := Int.ofNat_le.mp bounds.2.2
        have taken : (fields.take n).length = n := List.length_take_of_le long
        have row : Row p maxPoints p.shows vertex (prop :: props) (field :: (fields.take n ++ fields.drop n)) values :=
          .list listed (by rw [taken]; exact int_ok.mp read) (by rw [taken]; exact Int.ofNat_le.mp bounds.2.1) (ih h)
        rwa [List.take_append_drop] at row
      next scalar =>
        split at h
        next wanted =>
          obtain ⟨value, read, h⟩ := bind_eq_ok h
          obtain ⟨values, rest, h⟩ := bind_eq_ok h
          cases h
          exact .coordinate (Bool.eq_false_iff.mpr scalar) wanted (float_ok.mp read) (ih rest)
        next other => exact .other (Bool.eq_false_iff.mpr scalar) other (ih h)

theorem Row.read {vertex : Bool}
    (h : Row p maxPoints p.shows vertex props fields values) : readRow p maxPoints vertex props fields = .ok values := by
  induction h with
  | done => rfl
  | @list prop props token items fields values listed length small _ ih =>
    rw [readRow, if_pos listed]
    refine bind_of_ok (int_ok.mpr length) (bind_of_ok (refuse_of_not ?_) ?_)
    · rw [List.length_append]
      omega
    · rw [Int.toNat_natCast, List.drop_left]
      exact ih
  | other scalar other _ ih => rw [readRow, if_neg (Bool.eq_false_iff.mp scalar), if_neg other, ih]
  | coordinate scalar wanted shown _ ih =>
    rw [readRow, if_neg (Bool.eq_false_iff.mp scalar), if_pos wanted]
    exact bind_of_ok (float_ok.mpr shown) (bind_of_ok ih rfl)

theorem Row.known {vertex : Bool} {name : String}
    (h : Row p maxPoints p.shows vertex props fields values) (true_ : vertex = true) (wanted : name ∈ coordinates)
    (there : ∃ prop ∈ props, prop.name = name ∧ prop.isList = false) : ∃ value, values.lookup name = some value := by
  obtain ⟨q, there, rfl, scalar⟩ := there
  induction h with
  | done => cases there
  | list listed _ _ _ ih =>
    rcases List.mem_cons.mp there with rfl | later
    · rw [scalar] at listed
      cases listed
    · exact ih later
  | other _ other _ ih =>
    rcases List.mem_cons.mp there with rfl | later
    · exact absurd ⟨true_, wanted⟩ other
    · exact ih later
  | @coordinate prop _ _ value _ _ _ _ _ _ ih =>
    by_cases same : q.name = prop.name
    · exact ⟨value, by rw [same, List.lookup_cons_self]⟩
    · rw [List.lookup_cons, beq_false_of_ne same]
      exact ih ((List.mem_cons.mp there).resolve_left fun equal => same (congrArg _ equal))

def Complete (e : Element) : Prop :=
  e.isVertex = true → ∀ name ∈ coordinates, ∃ prop ∈ e.properties, prop.name = name ∧ prop.isList = false

theorem pointOf_known (h : ∀ name ∈ coordinates, ∃ value, values.lookup name = some value) :
    ∃ point, pointOf values = some point := by
  obtain ⟨x, hx⟩ := h "x" (by decide)
  obtain ⟨y, hy⟩ := h "y" (by decide)
  obtain ⟨z, hz⟩ := h "z" (by decide)
  exact ⟨⟨x, y, z⟩, by simp [pointOf, hx, hy, hz]⟩

variable {lines rest : List String} {points : List (Point α)}

theorem readRows_lines {e : Element} {k : ℕ}
    (h : readRows p maxPoints e k lines = .ok (points, rest)) : ∃ rows found, rows.length = k ∧
      List.Forall₂ (Line p maxPoints p.shows e) rows found ∧ lines = rows ++ rest ∧ points = found.flatten := by
  induction k generalizing lines points with
  | zero =>
    cases h
    exact ⟨[], [], rfl, .nil, rfl, rfl⟩
  | succ k ih =>
    cases lines with
    | nil => cases h
    | cons line lines =>
      unfold readRows at h
      simp only [bind_eq_ok_iff] at h
      obtain ⟨values, row, new, made, ⟨more, rest'⟩, later, h⟩ := h
      cases h
      obtain ⟨rows, found, count, each, rfl, rfl⟩ := ih later
      refine ⟨line :: rows, new :: found, congrArg Nat.succ count, .cons ⟨values, readRow_row row, ?_⟩ each, rfl, rfl⟩
      by_cases vertex : e.isVertex = true
      · rw [pointsOf, if_pos vertex] at made
        rw [if_pos vertex]
        cases point : pointOf values <;> rw [point] at made <;> cases made
        rfl
      · rw [pointsOf, if_neg vertex] at made
        rw [if_neg vertex]
        cases made
        rfl

theorem Line.readRows {e : Element} (complete : Complete e) {rows : List String} {found : List (List (Point α))}
    (h : List.Forall₂ (Line p maxPoints p.shows e) rows found) : readRows p maxPoints e rows.length (rows ++ rest) = .ok (found.flatten, rest) := by
  induction h with
  | nil => rfl
  | @cons line points rows found one _ ih =>
    obtain ⟨values, row, rfl⟩ := one
    refine bind_of_ok row.read (bind_of_ok ?_ (bind_of_ok ih rfl))
    by_cases vertex : e.isVertex = true
    · obtain ⟨point, known⟩ := pointOf_known fun name wanted => row.known vertex wanted (complete vertex name wanted)
      rw [pointsOf, if_pos vertex, if_pos vertex, known]
      rfl
    · rw [pointsOf, if_neg vertex, if_neg vertex]

variable {elements : List Element}

theorem readElements_body (complete : ∀ e ∈ elements, Complete e) :
    (∃ rest, readElements p maxPoints elements lines = .ok (points, rest) ∧ ∀ line ∈ rest, strip line = "") ↔
      Body p maxPoints p.shows elements lines points := by
  constructor
  · rintro ⟨rest, read, blank⟩
    induction elements generalizing lines points with
    | nil =>
      cases read
      exact .blank blank
    | cons e elements ih =>
      obtain ⟨⟨first, between⟩, mine, read⟩ := bind_eq_ok read
      obtain ⟨⟨more, rest'⟩, later, read⟩ := bind_eq_ok read
      cases read
      obtain ⟨rows, found, count, each, rfl, rfl⟩ := readRows_lines mine
      exact .element count each (ih (fun e there => complete e (List.mem_cons_of_mem _ there)) later)
  · intro h
    induction h with
    | @blank lines blank => exact ⟨lines, rfl, blank⟩
    | element count each _ ih =>
      obtain ⟨rest, read, blank⟩ := ih fun e there => complete e (List.mem_cons_of_mem _ there)
      refine ⟨rest, bind_of_ok (count ▸ Line.readRows (complete _ List.mem_cons_self) each) (bind_of_ok read rfl), blank⟩

theorem acceptHeader_complete (h : acceptHeader p maxPoints lines = .ok (elements, rest)) :
    ∀ e ∈ elements, Complete e := by
  cases lines with
  | nil => cases h
  | cons first lines =>
    unfold acceptHeader at h
    simp only [bind_eq_ok_iff] at h
    obtain ⟨_, -, ⟨s, rest'⟩, -, _, -, h⟩ := h
    split at h
    next vertex only =>
      obtain ⟨_, _, h⟩ := bind_eq_ok h
      obtain ⟨_, named, h⟩ := bind_eq_ok h
      cases h
      intro e there isVertex name wanted
      have same : e ∈ s.elements.filter (·.isVertex) := List.mem_filter.mpr ⟨there, isVertex⟩
      rw [only, List.mem_singleton] at same
      obtain ⟨prop, member, rfl⟩ := List.mem_map.mp (require_ok named name wanted)
      have scalar := List.mem_filter.mp member
      exact ⟨prop, same ▸ scalar.1, rfl, by simpa using scalar.2⟩
    next => cases h

theorem Body.mono {shows shows' : String → α → Prop} (imp : ∀ token value, shows token value → shows' token value)
    (h : Body p maxPoints shows elements lines points) : Body p maxPoints shows' elements lines points := by
  have row {vertex : Bool} {props : List Property} {fields : List String} {values : List (String × α)}
      (h : Row p maxPoints shows vertex props fields values) : Row p maxPoints shows' vertex props fields values := by
    induction h with
    | done => exact .done
    | list listed length small _ ih => exact .list listed length small ih
    | other scalar other _ ih => exact .other scalar other ih
    | coordinate scalar wanted shown _ ih => exact .coordinate scalar wanted (imp _ _ shown) ih
  induction h with
  | blank blank => exact .blank blank
  | element count each _ ih => exact .element count (each.imp fun line points => Exists.imp fun _ => And.imp_left row) ih

theorem readPly_iff (h : acceptHeader p maxPoints lines = .ok (elements, rest))
    (points : List (Point α)) : readPly p maxPoints lines = .ok (points, elements) ↔ Body p maxPoints p.shows elements rest points := by
  rw [← readElements_body (acceptHeader_complete h)]
  constructor
  · intro read
    obtain ⟨⟨elements', rest'⟩, header, read⟩ := bind_eq_ok read
    rw [h] at header
    cases header
    obtain ⟨⟨found, left⟩, body, read⟩ := bind_eq_ok read
    obtain ⟨_, blank, read⟩ := bind_eq_ok read
    cases read
    exact ⟨left, body, fun line there => not_not.mp fun some_ => refuse_ok blank ⟨line, there, some_⟩⟩
  · rintro ⟨left, body, blank⟩
    exact bind_of_ok h (bind_of_ok body (bind_of_ok (refuse_of_not fun ⟨line, there, some_⟩ => some_ (blank line there)) rfl))

end Smartwheel.AsciiCloud
