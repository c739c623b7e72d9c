import Mathlib.Data.List.Nodup
import Smartwheel.Effect.Check
import Smartwheel.Maps.Goals

/-! What every run of the map store keeps of its goals. -/
namespace Smartwheel.Maps
open Effect

variable {w w' : World} {m v name : String} {d : Document} {log : List Edit} {result : Except String Unit}

def Aside (p : Path) : Prop :=
  (∃ m v suffix, p = [".annotations", m, v, ".goals-" ++ suffix]) ∨
    ∃ m suffix rest, validName m = true ∧ p = m :: (".pending-" ++ suffix) :: rest

structure Idle (w w' : World) : Prop where
  files : ∀ p, w'.files p = w.files p ∨ Aside p
  log : w'.log = w.log

structure Wrote (w w' : World) (m v : String) (d : Document) (e : Edit) : Prop where
  written : w'.files (annotationPath m v) = some (.goals d)
  others : ∀ p, p ≠ annotationPath m v → w'.files p = w.files p
  log : w'.log = e :: w.log

def Vouched (log : List Edit) (m v : String) (d : Document) : Prop :=
  ∀ goal ∈ d.goals, goal.reviewState = .verified →
    ∃ earlier, Latest (Edit.touches m v goal.name) (.review m v goal.name true) earlier log

structure Fine (log : List Edit) (m v : String) (d : Document) : Prop where
  names : (d.goals.map Goal.name).Nodup
  vouched : Vouched log m v d

structure Fresh (d : Document) : Prop where
  names : (d.goals.map Goal.name).Nodup
  unverified : ∀ goal ∈ d.goals, goal.reviewState = .unverified

structure Sound (w : World) : Prop where
  notes : ∀ m v c, w.files (annotationPath m v) = some c →
    (validName m = true ∧ validName v = true ∧ (w.files (manifestPath m v)).isSome = true) ∧
      ∃ d, c = .goals d ∧ Fine w.log m v d
  packages : ∀ m v c, validName m = true → validName v = true → w.files (goalsPath m v) = some c →
    ∃ d, c = .goals d ∧ Fresh d

/-! Names and paths. -/

theorem valid_head (valid : validName m = true) : m ≠ ".annotations" := by
  intro same
  rw [same] at valid
  exact absurd valid (by decide)

theorem valid_pending (valid : validName v = true) (suffix : String) : v ≠ ".pending-" ++ suffix := by
  intro same
  rw [same] at valid
  unfold validName at valid
  rw [String.toList_append] at valid
  exact absurd valid (by simp [show ".pending-".toList = '.' :: "pending-".toList from rfl])

theorem checkName_ok {label : String} {u : Unit} (h : checkName name label = .ok u) : validName name = true := by
  unfold checkName at h
  split at h
  · assumption
  · cases h

theorem annotation_plain (m v : String) : ¬Aside (annotationPath m v) := by
  rintro (⟨m', v', suffix, same⟩ | ⟨m', suffix, rest, valid, same⟩)
  · have last : "goals.json" = ".goals-" ++ suffix := by
      injection same with _ same
      injection same with _ same
      injection same with _ same
      injection same
    have chars := congrArg String.toList last
    rw [String.toList_append] at chars
    exact absurd chars (by simp [show ".goals-".toList = '.' :: "goals-".toList from rfl, show "goals.json".toList = 'g' :: "oals.json".toList from rfl])
  · injection same with head
    exact valid_head valid head.symm

theorem version_plain (validMap : validName m = true) (valid : validName v = true) (rest : Path) :
    ¬Aside (m :: v :: rest) := by
  rintro (⟨m', v', suffix, same⟩ | ⟨m', suffix, rest', -, same⟩)
  · injection same with head
    exact valid_head validMap head
  · injection same with _ same
    injection same with second
    exact valid_pending valid suffix second

variable {m' v' : String}

theorem annotationPath_inj (h : annotationPath m v = annotationPath m' v') : m = m' ∧ v = v' := by
  injection h with _ h
  injection h with first h
  injection h with second
  exact ⟨first, second⟩

theorem annotation_elsewhere (valid : validName m = true) (rest : Path) (m' v' : String) :
    m :: rest ≠ annotationPath m' v' := by
  intro same
  injection same with head
  exact valid_head valid head

/-! The goals of a document. -/

variable {e : Edit}

theorem Vouched.cons {goal : Goal} (h : Vouched log m v d) (mem : goal ∈ d.goals)
    (verified : goal.reviewState = .verified) (apart : e.touches m v goal.name = false) :
    ∃ earlier, Latest (Edit.touches m v goal.name) (.review m v goal.name true) earlier (e :: log) := by
  obtain ⟨earlier, latest⟩ := h goal mem verified
  exact ⟨earlier, latest.cons apart⟩

theorem Fine.apart (h : Fine log m v d) (apart : ∀ name, e.touches m v name = false) : Fine (e :: log) m v d :=
  ⟨h.names, fun goal mem verified => h.vouched.cons mem verified (apart goal.name)⟩

theorem Fresh.fine (h : Fresh d) (log : List Edit) (m v : String) : Fine log m v d := by
  refine ⟨h.names, fun goal mem verified => ?_⟩
  rw [h.unverified goal mem] at verified
  cases verified

theorem getGoals_ok (h : w.getGoals m v = .ok d) : w.annotations m v = some d := by
  unfold World.getGoals at h
  split at h
  · cases h
  · rename_i document found
    split at h
    · cases h
    · split at h
      · cases h
      · cases h
        exact found

variable {frameId : String}

theorem verify_ok (h : w.verify m v = .ok frameId) :
    validName m = true ∧ validName v = true ∧ w.files (manifestPath m v) = some (.manifest frameId) := by
  unfold World.verify at h
  cases mapId : checkName m "map_id" with
  | error e =>
    rw [mapId] at h
    cases h
  | ok u =>
    cases version : checkName v "version" with
    | error e =>
      rw [mapId, version] at h
      cases h
    | ok u' =>
      rw [mapId, version] at h
      refine ⟨checkName_ok mapId, checkName_ok version, ?_⟩
      dsimp only [bind, Except.bind] at h
      split at h
      · rename_i frame there
        cases h
        exact there
      · cases h

theorem Sound.goals (h : Sound w) (validMap : validName m = true) (valid : validName v = true)
    (found : w.annotations m v = some d) : Fine w.log m v d := by
  unfold World.annotations at found
  cases note : w.files (annotationPath m v) with
  | some c =>
    obtain ⟨-, d', same, fine⟩ := h.notes m v c note
    rw [note, Option.some_or, same] at found
    cases found
    exact fine
  | none =>
    rw [note, Option.none_or] at found
    cases package : w.files (goalsPath m v) with
    | none =>
      rw [package] at found
      cases found
    | some c =>
      obtain ⟨d', same, fresh⟩ := h.packages m v c validMap valid package
      rw [package, same] at found
      cases found
      exact fresh.fine _ _ _

/-! What the calls do. -/

theorem Idle.refl (w : World) : Idle w w := ⟨fun _ => .inl rfl, rfl⟩

theorem Idle.put (w : World) {p : Path} (aside : Aside p) (content : Content) :
    Idle w { w with files := w.files.put p content } := by
  refine ⟨fun p' => ?_, rfl⟩
  by_cases same : p' = p
  · rw [same]
    exact .inr aside
  · exact .inl (if_neg same)

inductive Ended (w w' : World) (m v : String) (d : Document) (e : Edit) (io : Io) : Except String Unit → Prop
  | failed (text : String) (idle : Idle w w') : Ended w w' m v d e io (.error text)
  | done (wrote : Wrote w w' m v d e) : Ended w w' m v d e io (.ok ())
  | unsynced (text : String) (wrote : Wrote w w' m v d e) (fault : io.fault = some (.sync, text)) :
    Ended w w' m v d e io (.error text)

theorem early_ok {α : Type} {io : Io} {gathered : Except String α} {a : α} (h : early io gathered = .ok a) :
    gathered = .ok a := by
  unfold early at h
  split at h
  · cases h
  · exact h

structure Read (w : World) (m v : String) (d : Document) : Prop where
  validMap : validName m = true
  valid : validName v = true
  packaged : (w.files (manifestPath m v)).isSome = true
  found : w.annotations m v = some d

theorem read_ok {io : Io}
    (h : early io (do return (← w.verify m v, ← w.getGoals m v)) = .ok (frameId, d)) : Read w m v d := by
  obtain ⟨frame, verify, gathered⟩ := bind_eq_ok (early_ok h)
  obtain ⟨document, goals, gathered⟩ := bind_eq_ok gathered
  cases gathered
  obtain ⟨validMap, valid, manifest⟩ := verify_ok verify
  exact ⟨validMap, valid, by rw [manifest]; rfl, getGoals_ok goals⟩

variable {goals : List Goal}

theorem Idle.version (h : Idle w w') (validMap : validName m = true) (valid : validName v = true) (rest : Path) :
    w'.files (m :: v :: rest) = w.files (m :: v :: rest) :=
  (h.files _).resolve_right (version_plain validMap valid rest)

theorem Idle.annotation (h : Idle w w') (m v : String) : w'.files (annotationPath m v) = w.files (annotationPath m v) :=
  (h.files _).resolve_right (annotation_plain m v)

theorem Idle.sound (h : Idle w w') (sound : Sound w) : Sound w' := by
  constructor
  · intro m v c note
    rw [h.annotation] at note
    obtain ⟨⟨validMap, valid, packaged⟩, d, same, fine⟩ := sound.notes m v c note
    refine ⟨⟨validMap, valid, ?_⟩, d, same, ?_⟩
    · rw [show w'.files (manifestPath m v) = w.files (manifestPath m v) from h.version validMap valid _]
      exact packaged
    · rw [h.log]
      exact fine
  · intro m v c validMap valid package
    rw [show w'.files (goalsPath m v) = w.files (goalsPath m v) from h.version validMap valid _] at package
    exact sound.packages m v c validMap valid package

theorem Wrote.version (h : Wrote w w' m v d e) (validMap : validName m' = true) (rest : Path) :
    w'.files (m' :: rest) = w.files (m' :: rest) :=
  h.others _ (annotation_elsewhere validMap rest m v)

theorem Wrote.sound (h : Wrote w w' m v d e) (sound : Sound w) (validMap : validName m = true)
    (valid : validName v = true) (packaged : (w.files (manifestPath m v)).isSome = true) (fine : Fine (e :: w.log) m v d)
    (apart : ∀ m' v' name, e.touches m' v' name = true → m' = m ∧ v' = v) : Sound w' := by
  constructor
  · intro m' v' c note
    by_cases same : annotationPath m' v' = annotationPath m v
    · obtain ⟨rfl, rfl⟩ := annotationPath_inj same
      rw [h.written] at note
      cases note
      refine ⟨⟨validMap, valid, ?_⟩, d, rfl, ?_⟩
      · rw [show w'.files (manifestPath m' v') = w.files (manifestPath m' v') from h.version validMap _]
        exact packaged
      · rw [h.log]
        exact fine
    · rw [h.others _ same] at note
      obtain ⟨⟨validMap', valid', packaged'⟩, d', eq, fine'⟩ := sound.notes m' v' c note
      refine ⟨⟨validMap', valid', ?_⟩, d', eq, ?_⟩
      · rw [show w'.files (manifestPath m' v') = w.files (manifestPath m' v') from h.version validMap' _]
        exact packaged'
      · rw [h.log]
        refine fine'.apart fun name => Bool.eq_false_iff.mpr fun touched => same ?_
        obtain ⟨rfl, rfl⟩ := apart m' v' name touched
        rfl
  · intro m' v' c validMap' valid' package
    rw [show w'.files (goalsPath m' v') = w.files (goalsPath m' v') from h.version validMap' _] at package
    exact sound.packages m' v' c validMap' valid' package

theorem Ended.sound {io : Io} (h : Ended w w' m v d e io result) (sound : Sound w)
    (validMap : validName m = true) (valid : validName v = true) (packaged : (w.files (manifestPath m v)).isSome = true)
    (fine : Fine (e :: w.log) m v d) (apart : ∀ m' v' name, e.touches m' v' name = true → m' = m ∧ v' = v) : Sound w' := by
  cases h with
  | failed text idle => exact idle.sound sound
  | done wrote => exact wrote.sound sound validMap valid packaged fine apart
  | unsynced text wrote fault => exact wrote.sound sound validMap valid packaged fine apart

def Call.target : Call → String × String
  | .set m v _ _ | .review m v _ _ _ | .migrate m _ v _ | .save m v _ _ => (m, v)

def Call.Unsynced : Call → Prop
  | .set _ _ _ io | .review _ _ _ _ io | .migrate _ _ _ io => ∃ text, io.fault = some (.sync, text)
  | .save _ _ _ io => ∃ text, io.fault = some (.sync, text)

theorem annotations_eq (note : w'.files (annotationPath m' v') = w.files (annotationPath m' v'))
    (goals : w'.files (goalsPath m' v') = w.files (goalsPath m' v')) : w'.annotations m' v' = w.annotations m' v' := by
  unfold World.annotations
  rw [note, goals]

theorem Idle.annotations (h : Idle w w') (validMap : validName m = true) (valid : validName v = true) :
    w'.annotations m v = w.annotations m v :=
  annotations_eq (h.annotation m v) (h.version validMap valid _)

theorem Wrote.annotations (h : Wrote w w' m v d e) : w'.annotations m v = some d := by
  unfold World.annotations
  rw [h.written]
  rfl

theorem Wrote.apart (h : Wrote w w' m v d e) (validMap : validName m' = true)
    (other : (m', v') ≠ (m, v)) : w'.annotations m' v' = w.annotations m' v' := by
  refine annotations_eq (h.others _ fun same => other ?_) (h.version validMap _)
  obtain ⟨rfl, rfl⟩ := annotationPath_inj same
  rfl

structure Leaves (w : World) (call : Call) (result : Except String Unit) (w' : World) : Prop where
  packages : ∀ m v rest, validName m = true → validName v = true → (w.files (manifestPath m v)).isSome = true →
    w'.files (m :: v :: rest) = w.files (m :: v :: rest)
  others : ∀ m v, validName m = true → validName v = true → (m, v) ≠ call.target →
    w'.annotations m v = w.annotations m v
  failed : ∀ text, result = .error text →
    (∀ m v, validName m = true → validName v = true → w'.annotations m v = w.annotations m v) ∨ call.Unsynced

def Bench.goal (name : String) : Given :=
  ⟨some name, some [some 0, some 0, some 0], some [some 0, some 0, some 0, some 1]⟩

def Bench.snapshot : Snapshot := ⟨.ok ("map", []), .ok []⟩

def Bench.calls : List Call :=
  [.save "ward" "v1" Bench.snapshot ⟨none, "a", []⟩, .save "ward" "v2" Bench.snapshot ⟨none, "b", []⟩,
    .set "ward" "v1" (Bench.goal "desk") Io.fine, .set "ward" "v2" (Bench.goal "dock") Io.fine,
    .review "ward" "v1" "desk" (some true) Io.fine]

def Bench.names (w : World) (version : String) : Option (List (String × Review)) :=
  (w.annotations "ward" version).map fun d => d.goals.map fun goal => (goal.name, goal.reviewState)

end Smartwheel.Maps
