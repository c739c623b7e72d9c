import Mathlib.Algebra.BigOperators.Group.List.Basic
import Mathlib.Algebra.Order.Ring.Rat
import Smartwheel.Effect.History

/-! `MapStore`: immutable map packages, and the goal annotations of their versions in files of their own. A call takes the
lock of the store first, so that calls follow each other. -/
namespace Smartwheel.Maps

/-- A path below the root of the store. -/
abbrev Path := List String

def isNameChar (c : Char) : Bool := c.isAlphanum || c = '_' || c = '.' || c = '-'

/-- `_NAME.fullmatch`. -/
def validName (name : String) : Bool :=
  match name.toList with
  | [] => false
  | c :: rest => c.isAlphanum && decide (rest.length ≤ 63) && rest.all isNameChar

/-- `str.isspace` of one character. -/
def isSpace (c : Char) : Bool :=
  let n := c.toNat
  (9 ≤ n && n ≤ 13) || (28 ≤ n && n ≤ 32) || n = 133 || n = 160 || n = 5760 || (8192 ≤ n && n ≤ 8202) || n = 8232 ||
    n = 8233 || n = 8239 || n = 8287 || n = 12288

/-- A goal as a caller gives it: what is of another type, or no finite number, is `none`. -/
structure Given where
  name : Option String
  position : Option (List (Option ℚ))
  orientation : Option (List (Option ℚ))
deriving DecidableEq

/-- A goal that `_validate_goal` has accepted. -/
structure Shape where
  name : String
  position : List ℚ
  orientation : List ℚ
  named : name.toList.all isSpace = false ∧ name.length ≤ 128
  posed : position.length = 3 ∧ orientation.length = 4
  normal : |(orientation.map (· ^ 2)).sum - 1| ≤ 1 / 1000000
deriving DecidableEq

def finite : List (Option ℚ) → Option (List ℚ)
  | [] => some []
  | none :: _ => none
  | some q :: rest => (finite rest).map (q :: ·)

theorem finite_length {values : List (Option ℚ)} {numbers : List ℚ} (h : finite values = some numbers) :
    numbers.length = values.length := by
  induction values generalizing numbers with
  | nil =>
    cases h
    rfl
  | cons value rest ih =>
    cases value with
    | none => cases h
    | some q =>
      obtain ⟨tail, found, same⟩ := Option.map_eq_some_iff.mp h
      rw [← same, List.length_cons, List.length_cons, ih found]

/-- `_validate_goal`. -/
def Given.validate (given : Given) : Except String Shape :=
  match given.name with
  | none => .error "goal name must be a nonempty UTF-8 string of at most 128 characters"
  | some name =>
    if named : name.toList.all isSpace = false ∧ name.length ≤ 128 then
      match given.position, given.orientation with
      | some position, some orientation =>
        if posed : position.length = 3 ∧ orientation.length = 4 then
          match place : finite position, turn : finite orientation with
          | some p, some q =>
            if normal : |(q.map (· ^ 2)).sum - 1| ≤ 1 / 1000000 then
              .ok ⟨name, p, q, named, ⟨(finite_length place).trans posed.1, (finite_length turn).trans posed.2⟩, normal⟩
            else .error "goal quaternion must be normalized"
          | _, _ => .error "goal position/quaternion must be finite numbers"
        else .error "goal requires position xyz and orientation_xyzw"
      | _, _ => .error "goal requires position xyz and orientation_xyzw"
    else .error "goal name must be a nonempty UTF-8 string of at most 128 characters"

inductive Review where
  | unverified | verified
deriving DecidableEq, Repr

structure Goal where
  shape : Shape
  mapId : String
  version : String
  frameId : String
  reviewState : Review
  reviewReason : String
  inheritedFrom : Option (String × String)
deriving DecidableEq

def Goal.name (goal : Goal) : String := goal.shape.name

structure Document where
  mapId : String
  version : String
  goals : List Goal
deriving DecidableEq

inductive Content where
  | goals (document : Document)
  | manifest (frameId : String)
  | bytes (data : List UInt8)
deriving DecidableEq

abbrev Files := Path → Option Content

def annotationPath (mapId version : String) : Path := [".annotations", mapId, version, "goals.json"]
def goalsPath (mapId version : String) : Path := [mapId, version, "goals.json"]
def manifestPath (mapId version : String) : Path := [mapId, version, "manifest.json"]

def Files.put (files : Files) (path : Path) (content : Content) : Files :=
  fun p => if p = path then some content else files p

inductive Edit where
  | set (mapId version name : String)
  | review (mapId version name : String) (verified : Bool)
  | migrate (mapId oldVersion newVersion : String)
  | save (mapId version : String)
deriving DecidableEq

def Edit.touches (mapId version name : String) : Edit → Bool
  | .set m v n | .review m v n _ => m = mapId && v = version && n = name
  | .migrate m _ v | .save m v => m = mapId && v = version

structure World where
  files : Files
  log : List Edit

/-- The step of `_write_annotations` that fails. -/
inductive Fault where
  | mkdir | mkstemp | dump | check | replace | sync
deriving DecidableEq, Repr

/-- What goes wrong in a call: before it writes, or while it does; the name of the temporary file, what is in it after
a dump that fails, and whether it can be removed. -/
structure Io where
  early : Option String
  fault : Option (Fault × String)
  suffix : String
  dumped : Content
  unlinked : Bool

def Io.fine : Io := ⟨none, none, "", .bytes [], true⟩

/-- `_name`. -/
def checkName (value label : String) : Except String Unit :=
  if validName value then .ok ()
  else .error (label ++ ": use 1-64 ASCII letters, digits, underscore, dot or hyphen, starting with a letter/digit")

def World.annotations (w : World) (mapId version : String) : Option Document :=
  match (w.files (annotationPath mapId version)).or (w.files (goalsPath mapId version)) with
  | some (.goals document) => some document
  | _ => none

/-- `get_goals`. Stored goals have passed `_validate_goal`. -/
def World.getGoals (w : World) (mapId version : String) : Except String Document :=
  match w.annotations mapId version with
  | none => .error "invalid strict UTF-8 JSON"
  | some document =>
    if document.mapId ≠ mapId ∨ document.version ≠ version then
      .error "goal annotations bound to a different map/version"
    else if document.goals.any fun goal => decide (goal.mapId ≠ mapId ∨ goal.version ≠ version) then
      .error "goal identity/review state mismatch"
    else .ok document

/-- `verify`, with the frame; what it finds wrong with the bytes of a package is an early failure of the call. -/
def World.verify (w : World) (mapId version : String) : Except String String := do
  checkName mapId "map_id"
  checkName version "version"
  match w.files (manifestPath mapId version) with
  | some (.manifest frameId) => return frameId
  | _ => .error "No such file or directory"

def early {α : Type} (io : Io) (gathered : Except String α) : Except String α :=
  match io.early with
  | some text => .error text
  | none => gathered

/-- `_write_annotations`, and the edit that it is. -/
def World.writeAnnotations (w : World) (mapId version : String) (document : Document) (edit : Edit) (io : Io) :
    Except String Unit × World :=
  let temporary := [".annotations", mapId, version, ".goals-" ++ io.suffix]
  let written : World := ⟨w.files.put (annotationPath mapId version) (.goals document), edit :: w.log⟩
  match io.fault with
  | none => (.ok (), written)
  | some (.sync, text) => (.error text, written)
  | some (.mkdir, text) | some (.mkstemp, text) => (.error text, w)
  | some (.dump, text) => (.error text, if io.unlinked then w else { w with files := w.files.put temporary io.dumped })
  | some (.check, text) | some (.replace, text) =>
    (.error text, if io.unlinked then w else { w with files := w.files.put temporary (.goals document) })

def Document.set (document : Document) (goal : Goal) : Document :=
  { document with goals := document.goals.filter (·.name ≠ goal.name) ++ [goal] }

def Document.review (document : Document) (name : String) (verified : Bool) : Document :=
  { document with
    goals := document.goals.map fun goal =>
      if goal.name = name then
        { goal with
          reviewState := if verified then .verified else .unverified
          reviewReason := "explicit_operator_review" }
      else goal }

def Document.migrated (source : Document) (mapId oldVersion newVersion frameId : String) : Document where
  mapId := mapId
  version := newVersion
  goals := source.goals.map fun goal =>
    { goal with
      version := newVersion
      frameId := frameId
      reviewState := .unverified
      reviewReason := "map_version_changed"
      inheritedFrom := some (mapId, oldVersion) }

/-- `set_goal`. -/
def World.setGoal (w : World) (mapId version : String) (given : Given) (io : Io) : Except String Unit × World :=
  match given.validate with
  | .error e => (.error e, w)
  | .ok shape =>
    match early io (do return (← w.verify mapId version, ← w.getGoals mapId version)) with
    | .error e => (.error e, w)
    | .ok (frameId, document) =>
      let clean : Goal := ⟨shape, mapId, version, frameId, .unverified, "new_or_edited_annotation", none⟩
      w.writeAnnotations mapId version (document.set clean) (.set mapId version shape.name) io

/-- `review_goal`; `verified` is `none` for what is no boolean. -/
def World.reviewGoal (w : World) (mapId version name : String) (verified : Option Bool) (io : Io) :
    Except String Unit × World :=
  match verified with
  | none => (.error "verified must be a boolean", w)
  | some verified =>
    match early io (do return (← w.verify mapId version, ← w.getGoals mapId version)) with
    | .error e => (.error e, w)
    | .ok (_, document) =>
      if (document.goals.filter (·.name = name)).length ≠ 1 then (.error "goal name not found or ambiguous", w)
      else w.writeAnnotations mapId version (document.review name verified) (.review mapId version name verified) io

/-- `migrate_goals`. -/
def World.migrateGoals (w : World) (mapId oldVersion newVersion : String) (io : Io) : Except String Unit × World :=
  if oldVersion = newVersion then (.error "goal migration requires a distinct map version", w)
  else
    match early io (do
      let oldFrame ← w.verify mapId oldVersion
      let source ← w.getGoals mapId oldVersion
      return (oldFrame, source, ← w.verify mapId newVersion)) with
    | .error e => (.error e, w)
    | .ok (oldFrame, source, frameId) =>
      if oldFrame ≠ frameId then
        (.error "coordinate frame changed; explicit transformed annotation input is required", w)
      else
        w.writeAnnotations mapId newVersion (source.migrated mapId oldVersion newVersion frameId)
          (.migrate mapId oldVersion newVersion) io

structure Snapshot where
  built : Except String (String × List (Path × List UInt8))
  goals : Except String (List Given)

/-- The step of `save_snapshot` that fails. -/
inductive SaveFault where
  | before | staging | sync
deriving DecidableEq, Repr

/-- What goes wrong in a save: before the staging directory is made, up to its publication, or after that; and what is
left of the directory. -/
structure SaveIo where
  fault : Option (SaveFault × String)
  suffix : String
  left : List (Path × Content)

def freshGoals (mapId version frameId : String) : List Given → List Goal → Except String (List Goal)
  | [], goals => .ok goals
  | given :: rest, goals =>
    match given.validate with
    | .error e => .error e
    | .ok shape =>
      if goals.any (·.name = shape.name) then .error "duplicate goal names"
      else freshGoals mapId version frameId rest
        (goals ++ [⟨shape, mapId, version, frameId, .unverified, "new_map_version_requires_review", none⟩])

def World.abandon (w : World) (mapId : String) (io : SaveIo) : World :=
  let staging (files : Files) (entry : Path × Content) : Files :=
    files.put (mapId :: (".pending-" ++ io.suffix) :: entry.1) entry.2
  { w with files := io.left.foldl staging w.files }

def World.publish (w : World) (mapId version frameId : String) (goals : List Goal) (files : List (Path × List UInt8)) : World :=
  let package : List (Path × Content) := (["goals.json"], .goals ⟨mapId, version, goals⟩) ::
    (["manifest.json"], .manifest frameId) :: files.map fun (path, data) => (path, .bytes data)
  { files := fun path =>
      match path with
      | m :: v :: rest => if m = mapId ∧ v = version then package.lookup rest else w.files path
      | _ => w.files path
    log := .save mapId version :: w.log }

/-- `save_snapshot`. A version exists where it has a manifest. -/
def World.saveSnapshot (w : World) (mapId version : String) (snapshot : Snapshot) (io : SaveIo) : Except String Unit × World :=
  match (do checkName mapId "map_id"; checkName version "version") with
  | .error e => (.error e, w)
  | .ok () =>
    match io.fault with
    | some (.before, text) => (.error text, w)
    | fault =>
      if (w.files (manifestPath mapId version)).isSome then
        (.error "map version already exists and is immutable", w)
      else
        match snapshot.built with
        | .error e => (.error e, w)
        | .ok (frameId, files) =>
          match (do freshGoals mapId version frameId (← snapshot.goals) []) with
          | .error e => (.error e, w.abandon mapId io)
          | .ok goals =>
            match fault with
            | none => (.ok (), w.publish mapId version frameId goals files)
            | some (.sync, text) => (.error text, w.publish mapId version frameId goals files)
            | some (_, text) => (.error text, w.abandon mapId io)

inductive Call where
  | set (mapId version : String) (given : Given) (io : Io)
  | review (mapId version name : String) (verified : Option Bool) (io : Io)
  | migrate (mapId oldVersion newVersion : String) (io : Io)
  | save (mapId version : String) (snapshot : Snapshot) (io : SaveIo)

def World.call (w : World) : Call → Except String Unit × World
  | .set mapId version given io => w.setGoal mapId version given io
  | .review mapId version name verified io => w.reviewGoal mapId version name verified io
  | .migrate mapId oldVersion newVersion io => w.migrateGoals mapId oldVersion newVersion io
  | .save mapId version snapshot io => w.saveSnapshot mapId version snapshot io

def initial : World := ⟨fun _ => none, []⟩

def run (calls : List Call) : World := calls.foldl (fun w call => (w.call call).2) initial

end Smartwheel.Maps
