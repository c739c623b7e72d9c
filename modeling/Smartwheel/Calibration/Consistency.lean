import Mathlib.Data.List.Forall2
import Mathlib.Data.List.Perm.Basic
import Smartwheel.Calibration.Search

/-! What the records declare are edges between the frames. `resolve_data_graph` raises for its paths where a cycle of
these is not the identity, and else its values are those along any path. -/
namespace Smartwheel.Calibration
open Gain

inductive RotationEdge (listed : Record → Prop) : Frame → Frame → Rotation → Prop
  | forward {r : Record} {R : Rotation} : listed r → r.rotation = some R → RotationEdge listed r.parent r.child R
  | backward {r : Record} {R : Rotation} : listed r → r.rotation = some R →
      RotationEdge listed r.child r.parent R.transpose

inductive CompleteEdge (listed : Record → Prop) : Frame → Frame → Transform → Prop
  | forward {r : Record} {R : Rotation} {t : Vector} : listed r → r.rotation = some R → r.translation = some t →
      CompleteEdge listed r.parent r.child (homogeneous R t)
  | backward {r : Record} {R : Rotation} {t : Vector} : listed r → r.rotation = some R → r.translation = some t →
      CompleteEdge listed r.child r.parent (inverse (homogeneous R t))

section
variable {listed listed' : Record → Prop} {a b : Frame}

theorem RotationEdge.reversible : Reversible (RotationEdge listed)
  | _, _, _, .forward hr hR => ⟨_, .backward hr hR⟩
  | _, _, _, .backward hr hR => ⟨_, .forward hr hR⟩

theorem CompleteEdge.reversible : Reversible (CompleteEdge listed)
  | _, _, _, .forward hr hR ht => ⟨_, .backward hr hR ht⟩
  | _, _, _, .backward hr hR ht => ⟨_, .forward hr hR ht⟩

theorem RotationEdge.mono {R : Rotation} (h : ∀ r, listed r → listed' r) (he : RotationEdge listed a b R) :
    RotationEdge listed' a b R := by
  cases he with
  | forward hr hR => exact .forward (h _ hr) hR
  | backward hr hR => exact .backward (h _ hr) hR

theorem CompleteEdge.mono {m : Transform} (h : ∀ r, listed r → listed' r) (he : CompleteEdge listed a b m) :
    CompleteEdge listed' a b m := by
  cases he with
  | forward hr hR ht => exact .forward (h _ hr) hR ht
  | backward hr hR ht => exact .backward (h _ hr) hR ht

theorem CompleteEdge.block {m : Transform} (bal : Balanced (RotationEdge listed)) (he : CompleteEdge listed a b m) :
    ∃ R t, m = homogeneous R t ∧ RotationEdge listed a b R := by
  cases he with
  | @forward r R t hr hR ht => exact ⟨R, t, rfl, .forward hr hR⟩
  | @backward r R t hr hR ht =>
    have turn : R * R.transpose = 1 :=
      bal.mul_eq_one (.single (.forward hr hR)) (.single (.backward hr hR))
    have unit : IsUnit R := (Matrix.isUnit_iff_isUnit_det R).mpr (Matrix.isUnit_det_of_right_inverse turn)
    obtain ⟨s, hs⟩ := inverse_homogeneous t unit
    rw [Matrix.inv_eq_right_inv turn] at hs
    exact ⟨R.transpose, s, hs, .backward hr hR⟩

theorem walk_block {m : Transform} (bal : Balanced (RotationEdge listed)) (h : Walk (CompleteEdge listed) a b m) :
    ∃ R t, m = homogeneous R t ∧ Walk (RotationEdge listed) a b R := by
  induction h with
  | nil => exact ⟨1, 0, by simp [homogeneous, ← Matrix.fromBlocks_one]; rfl, .nil⟩
  | snoc _ he ih =>
    obtain ⟨R, t, rfl, hR⟩ := ih
    obtain ⟨S, s, rfl, hS⟩ := he.block bal
    obtain ⟨r, hr⟩ := homogeneous_mul R S t s
    exact ⟨R * S, r, hr, hR.snoc hS⟩

end

/-! The loop over the records. -/

/-- `r` is what one of the rows says. -/
def Listed (sources : Sources) (assemblyRevision : String) (rows : List Value) (r : Record) : Prop :=
  ∃ row ∈ rows, record sources assemblyRevision [] row = .ok r

variable {sources : Sources} {assemblyRevision : String} {rows rows' : List Value} {declared : Declared}

variable {r : Record}

theorem recordAfterId_id {row : Fields} {key : String}
    (h : recordAfterId sources assemblyRevision row key = .ok r) : r.id = key := by
  simp only [recordAfterId, bind_eq_ok] at h
  obtain ⟨ends, -, u, -, note, -, translation, -, rotation, -, done⟩ := h
  cases done
  rfl

theorem record_eq_ok {seen : List String} {value : Value} : record sources assemblyRevision seen value = .ok r ↔
      record sources assemblyRevision [] value = .ok r ∧ r.id ∉ seen := by
  simp only [record, bind_eq_ok]
  constructor
  · rintro ⟨row, hrow, key, hkey, u, new, rest⟩
    have new : key ∉ seen := by simpa using require_eq_ok new
    exact ⟨⟨row, hrow, key, hkey, (), rfl, rest⟩, recordAfterId_id rest ▸ new⟩
  · rintro ⟨⟨row, hrow, key, hkey, u, -, rest⟩, new⟩
    rw [recordAfterId_id rest] at new
    exact ⟨row, hrow, key, hkey, (), by simp [require, new], rest⟩

theorem declare_eq_ok {declared' : Declared} {row : Value} :
    declare sources assemblyRevision declared row = .ok declared' ↔
      ∃ r, record sources assemblyRevision [] row = .ok r ∧ r.id ∉ declared.seen ∧ declared.add r = declared' := by
  rw [declare, bind_eq_ok]
  refine exists_congr fun r => ?_
  rw [record_eq_ok, and_assoc]
  refine and_congr_right fun _ => and_congr_right fun _ => ?_
  exact ⟨Except.ok.inj, congrArg Except.ok⟩

structure Read (sources : Sources) (assemblyRevision : String) (rows : List Value) (records : List Record) : Prop where
  said : List.Forall₂ (fun row r => record sources assemblyRevision [] row = .ok r) rows records
  once : (records.map Record.id).Nodup

theorem foldlM_declare {declared' : Declared} :
    rows.foldlM (declare sources assemblyRevision) declared = .ok declared' ↔
      ∃ records, Read sources assemblyRevision rows records ∧ (∀ r ∈ records, r.id ∉ declared.seen) ∧
        records.foldl Declared.add declared = declared' := by
  induction rows generalizing declared with
  | nil =>
    constructor
    · intro h
      exact ⟨[], ⟨.nil, List.nodup_nil⟩, by simp, Except.ok.inj h⟩
    · rintro ⟨records, ⟨said, -⟩, -, same⟩
      cases said
      exact congrArg Except.ok same
  | cons row rows ih =>
    rw [List.foldlM_cons, bind_eq_ok]
    constructor
    · rintro ⟨next, first, rest⟩
      obtain ⟨r, hr, new, rfl⟩ := declare_eq_ok.mp first
      obtain ⟨records, ⟨said, once⟩, others, same⟩ := ih.mp rest
      have apart : ∀ q ∈ records, q.id ∉ declared.seen ∧ q.id ≠ r.id := by
        simpa [Declared.add, not_or] using others
      refine ⟨r :: records, ⟨.cons hr said, ?_⟩, ?_, same⟩
      · rw [List.map_cons, List.nodup_cons]
        refine ⟨fun twice => ?_, once⟩
        obtain ⟨q, hq, hid⟩ := List.mem_map.mp twice
        exact (apart q hq).2 hid
      · intro q hq
        rcases List.mem_cons.mp hq with rfl | hq
        · exact new
        · exact (apart q hq).1
    · rintro ⟨records, ⟨said, once⟩, apart, same⟩
      cases said with
      | @cons _ r _ records hr said =>
        rw [List.map_cons, List.nodup_cons] at once
        refine ⟨declared.add r, declare_eq_ok.mpr ⟨r, hr, apart r (by simp), rfl⟩, ih.mpr ⟨records, ⟨said, once.2⟩, ?_, same⟩⟩
        intro q hq
        have other : q.id ≠ r.id := fun hid => once.1 (List.mem_map.mpr ⟨q, hq, hid⟩)
        simpa [Declared.add, other] using apart q (List.mem_cons_of_mem _ hq)

variable {v w : Frame}

theorem CompleteEdge.one {m : Transform} :
    CompleteEdge (· = r) v w m ↔ ∃ R t, r.rotation = some R ∧ r.translation = some t ∧
      (v = r.parent ∧ w = r.child ∧ m = homogeneous R t ∨ v = r.child ∧ w = r.parent ∧ m = inverse (homogeneous R t)) := by
  constructor
  · rintro (⟨rfl, hR, ht⟩ | ⟨rfl, hR, ht⟩)
    · exact ⟨_, _, hR, ht, .inl ⟨rfl, rfl, rfl⟩⟩
    · exact ⟨_, _, hR, ht, .inr ⟨rfl, rfl, rfl⟩⟩
  · rintro ⟨R, t, hR, ht, ⟨rfl, rfl, rfl⟩ | ⟨rfl, rfl, rfl⟩⟩
    · exact .forward rfl hR ht
    · exact .backward rfl hR ht

theorem RotationEdge.one {R : Rotation} : RotationEdge (· = r) v w R ↔ ∃ S, r.rotation = some S ∧
      (v = r.parent ∧ w = r.child ∧ R = S ∨ v = r.child ∧ w = r.parent ∧ R = S.transpose) := by
  constructor
  · rintro (⟨rfl, hR⟩ | ⟨rfl, hR⟩)
    · exact ⟨_, hR, .inl ⟨rfl, rfl, rfl⟩⟩
    · exact ⟨_, hR, .inr ⟨rfl, rfl, rfl⟩⟩
  · rintro ⟨S, hR, ⟨rfl, rfl, rfl⟩ | ⟨rfl, rfl, rfl⟩⟩
    · exact .forward rfl hR
    · exact .backward rfl hR

theorem full_add (r : Record) (v w : Frame) (m : Transform) :
    (declared.add r).full.Edge v w m ↔ declared.full.Edge v w m ∨ CompleteEdge (· = r) v w m := by
  rw [CompleteEdge.one]
  cases hR : r.rotation with
  | none => simp [Declared.add, hR]
  | some R =>
    cases ht : r.translation with
    | none => simp [Declared.add, hR, ht]
    | some t => simp [Declared.add, hR, ht, Graph.edge_append, or_assoc]

theorem rotations_add (r : Record) (v w : Frame) (R : Rotation) :
    (declared.add r).rotations.Edge v w R ↔ declared.rotations.Edge v w R ∨ RotationEdge (· = r) v w R := by
  rw [RotationEdge.one]
  cases hR : r.rotation with
  | none => simp [Declared.add, hR]
  | some S => simp [Declared.add, hR, Graph.edge_append, or_assoc]

variable {records : List Record}

theorem CompleteEdge.cons {m : Transform} :
    CompleteEdge (· ∈ r :: records) v w m ↔ CompleteEdge (· = r) v w m ∨ CompleteEdge (· ∈ records) v w m := by
  constructor
  · rintro (⟨hr, hR, ht⟩ | ⟨hr, hR, ht⟩) <;> rcases List.mem_cons.mp hr with hr | hr
    · exact .inl (.forward hr hR ht)
    · exact .inr (.forward hr hR ht)
    · exact .inl (.backward hr hR ht)
    · exact .inr (.backward hr hR ht)
  · rintro (h | h)
    · exact h.mono fun q hq => List.mem_cons.mpr (.inl hq)
    · exact h.mono fun q hq => List.mem_cons_of_mem _ hq

theorem RotationEdge.cons {R : Rotation} :
    RotationEdge (· ∈ r :: records) v w R ↔ RotationEdge (· = r) v w R ∨ RotationEdge (· ∈ records) v w R := by
  constructor
  · rintro (⟨hr, hR⟩ | ⟨hr, hR⟩) <;> rcases List.mem_cons.mp hr with hr | hr
    · exact .inl (.forward hr hR)
    · exact .inr (.forward hr hR)
    · exact .inl (.backward hr hR)
    · exact .inr (.backward hr hR)
  · rintro (h | h)
    · exact h.mono fun q hq => List.mem_cons.mpr (.inl hq)
    · exact h.mono fun q hq => List.mem_cons_of_mem _ hq

theorem full_foldl (records : List Record) (v w : Frame) (m : Transform) :
    (records.foldl Declared.add declared).full.Edge v w m ↔
      declared.full.Edge v w m ∨ CompleteEdge (· ∈ records) v w m := by
  induction records generalizing declared with
  | nil =>
    refine ⟨.inl, fun h => h.resolve_right fun none => ?_⟩
    cases none with
    | forward hr => cases hr
    | backward hr => cases hr
  | cons r records ih => rw [List.foldl_cons, ih, full_add, CompleteEdge.cons, or_assoc]

theorem rotations_foldl (records : List Record) (v w : Frame) (R : Rotation) :
    (records.foldl Declared.add declared).rotations.Edge v w R ↔
      declared.rotations.Edge v w R ∨ RotationEdge (· ∈ records) v w R := by
  induction records generalizing declared with
  | nil =>
    refine ⟨.inl, fun h => h.resolve_right fun none => ?_⟩
    cases none with
    | forward hr => cases hr
    | backward hr => cases hr
  | cons r records ih => rw [List.foldl_cons, ih, rotations_add, RotationEdge.cons, or_assoc]

theorem framesSeen_foldl (records : List Record) (frame : Frame) :
    frame ∈ (records.foldl Declared.add declared).framesSeen ↔
      frame ∈ declared.framesSeen ∨ ∃ r ∈ records, frame = r.parent ∨ frame = r.child := by
  induction records generalizing declared with
  | nil => simp
  | cons r records ih =>
    rw [List.foldl_cons, ih]
    simp [Declared.add, or_assoc]

structure Passed (sources : Sources) (assemblyRevision : String) (rows : List Value) (records : List Record) : Prop
    extends Read sources assemblyRevision rows records where
  sizes : rows ≠ [] ∧ rows.length ≤ 128
  covered : ∀ frame, ∃ r ∈ records, frame = r.parent ∨ frame = r.child

theorem declaredTransforms_eq_ok :
    declaredTransforms (.list rows) sources assemblyRevision = .ok declared ↔
      ∃ records, Passed sources assemblyRevision rows records ∧ records.foldl Declared.add .empty = declared := by
  by_cases sizes : rows ≠ [] ∧ rows.length ≤ 128
  · have fits : (rows.isEmpty || decide (128 < rows.length)) = false := by simpa using sizes
    simp only [declaredTransforms, fits, Bool.false_eq_true, if_false, bind_eq_ok]
    constructor
    · rintro ⟨built, loop, u, covered, same⟩
      obtain rfl := Except.ok.inj same
      obtain ⟨records, read, -, rfl⟩ := foldlM_declare.mp loop
      refine ⟨records, ⟨read, sizes, fun frame => ?_⟩, rfl⟩
      have all := List.all_eq_true.mp (require_eq_ok covered) frame (mem_FRAMES frame)
      simpa [Declared.empty] using (framesSeen_foldl records frame).mp (of_decide_eq_true all)
    · rintro ⟨records, passed, rfl⟩
      refine ⟨_, foldlM_declare.mpr ⟨records, passed.toRead, by simp [Declared.empty], rfl⟩, (), ?_, rfl⟩
      have all : FRAMES.all (· ∈ (records.foldl Declared.add .empty).framesSeen) = true := by
        refine List.all_eq_true.mpr fun frame _ => decide_eq_true ?_
        exact (framesSeen_foldl records frame).mpr (.inr (passed.covered frame))
      simp [require, all]
  · have above : (rows.isEmpty || decide (128 < rows.length)) = true := by
      simpa [or_iff_not_imp_left] using sizes
    simp only [declaredTransforms, above, if_true]
    constructor
    · intro h
      cases h
    · rintro ⟨records, passed, -⟩
      exact absurd passed.sizes sizes

theorem Passed.listed (passed : Passed sources assemblyRevision rows records) (r : Record) :
    Listed sources assemblyRevision rows r ↔ r ∈ records := by
  constructor
  · rintro ⟨row, hrow, hr⟩
    obtain ⟨i, hi, rfl⟩ := List.getElem_of_mem hrow
    have same := (List.forall₂_iff_get.mp passed.said).2 i hi (passed.said.length_eq ▸ hi)
    simp only [List.get_eq_getElem] at same
    rw [hr] at same
    exact Except.ok.inj same ▸ List.getElem_mem _
  · intro hr
    obtain ⟨i, hi, rfl⟩ := List.getElem_of_mem hr
    have here : i < rows.length := passed.said.length_eq ▸ hi
    have said := (List.forall₂_iff_get.mp passed.said).2 i here hi
    exact ⟨rows[i], List.getElem_mem _, by simpa using said⟩

theorem Passed.perm (passed : Passed sources assemblyRevision rows records)
    (perm : rows'.Perm rows) : ∃ records', Passed sources assemblyRevision rows' records' := by
  obtain ⟨records', said, same⟩ := List.perm_comp_forall₂ perm passed.said
  refine ⟨records', ⟨said, (same.map Record.id).nodup_iff.mpr passed.once⟩, ?_, fun frame => ?_⟩
  · exact ⟨fun none => passed.sizes.1 (by simpa [none] using perm), perm.length_eq ▸ passed.sizes.2⟩
  · obtain ⟨r, hr, named⟩ := passed.covered frame
    exact ⟨r, same.mem_iff.mpr hr, named⟩

/-! The values. -/

namespace Resolved

def transform (resolved : Resolved) : Frame → Frame → Option Transform := valueAt resolved.full

def rotation (resolved : Resolved) : Frame → Frame → Option Rotation := valueAt resolved.rotations

end Resolved

/-- The products along all walks, as a function of the ends. -/
abbrev Walked {M : Type} [Monoid M] (E : Frame → Frame → M → Prop) (value : Frame → Frame → Option M) : Prop :=
  ∀ a b m, value a b = some m ↔ Walk E a b m

theorem Walked.unique {M : Type} [Monoid M] {E : Frame → Frame → M → Prop} {value value' : Frame → Frame → Option M}
    (h : Walked E value) (h' : Walked E value') : value = value' := by
  funext a b
  exact Option.ext fun m => (h a b m).trans (h' a b m).symm

theorem Walked.balanced {M : Type} [Monoid M] {E : Frame → Frame → M → Prop} {value : Frame → Frame → Option M}
    (h : Walked E value) : Balanced E := fun a m cycle =>
  Option.some.inj (((h a a m).mpr cycle).symm.trans ((h a a 1).mpr .nil))

theorem resolveDataGraph_spec (order : Enumeration) (passed : Passed sources assemblyRevision rows records) :
    Searched (¬Balanced (CompleteEdge (· ∈ records)) ∨ ¬Balanced (RotationEdge (· ∈ records)))
      (fun resolved => Walked (CompleteEdge (· ∈ records)) resolved.transform ∧
        Walked (RotationEdge (· ∈ records)) resolved.rotation)
      (resolveDataGraph order (.list rows) sources assemblyRevision) := by
  have loop := declaredTransforms_eq_ok.mpr ⟨records, passed, rfl⟩
  generalize hd : records.foldl Declared.add .empty = declared at loop
  have hfull : declared.full.Edge = CompleteEdge (· ∈ records) := by
    funext v w m
    rw [← hd, full_foldl]
    simp [Declared.empty, Graph.Edge]
  have hrot : declared.rotations.Edge = RotationEdge (· ∈ records) := by
    funext v w R
    rw [← hd, rotations_foldl]
    simp [Declared.empty, Graph.Edge]
  have revFull : Reversible declared.full.Edge := hfull ▸ CompleteEdge.reversible
  have revRot : Reversible declared.rotations.Edge := hrot ▸ RotationEdge.reversible
  rw [resolveDataGraph, loop, ← hfull, ← hrot]
  refine ((checkComponents_spec revFull order.frames).mono .inl).bind fun _ _ => ?_
  refine ((checkComponents_spec revRot order.frames).mono .inr).bind fun _ _ => ?_
  refine ((resolveAll_spec revFull order.frames).mono .inl).bind fun full values => ?_
  refine ((resolveAll_spec revRot order.frames).mono .inr).bind fun rotations turns => ?_
  exact ⟨fun a => values a (order.complete a), fun a => turns a (order.complete a)⟩

structure Consistent {M : Type} [Monoid M] (E : Frame → Frame → M → Prop) (value : Frame → Frame → Option M) : Prop where
  connected : ∀ a b, (value a b).isSome ↔ ∃ m, Walk E a b m
  path : ∀ a b m, Walk E a b m → value a b = some m
  itself : ∀ a, value a a = some 1
  composed : ∀ a b c g h, value a b = some g → value b c = some h → value a c = some (g * h)
  inverse : ∀ a b g, value a b = some g → ∃ h, value b a = some h ∧ g * h = 1 ∧ h * g = 1

theorem Consistent.of_walks {M : Type} [Monoid M] {E : Frame → Frame → M → Prop} {value : Frame → Frame → Option M}
    (rev : Reversible E) (h : Walked E value) : Consistent E value where
  connected a b := by simp only [Option.isSome_iff_exists, h]
  path a b m hm := (h a b m).mpr hm
  itself a := (h a a 1).mpr .nil
  composed a b c g k hg hk := (h a c _).mpr (((h a b g).mp hg).trans ((h b c k).mp hk))
  inverse a b g hg := by
    have there := (h a b g).mp hg
    obtain ⟨k, back⟩ := there.back rev
    exact ⟨k, (h b a k).mpr back, h.balanced.mul_eq_one there back, h.balanced.mul_eq_one back there⟩

def Twisted (listed : Record → Prop) : Prop :=
  (∃ frame m, Walk (CompleteEdge listed) frame frame m ∧ m ≠ 1) ∨
    ∃ frame R, Walk (RotationEdge listed) frame frame R ∧ R ≠ 1

theorem twisted_iff {listed : Record → Prop} :
    Twisted listed ↔ ¬Balanced (CompleteEdge listed) ∨ ¬Balanced (RotationEdge listed) := by
  simp only [Twisted, Gain.Balanced, not_forall, exists_prop]

theorem rotation_block {listed : Record → Prop} {full : Frame → Frame → Option Transform}
    {rotations : Frame → Frame → Option Rotation} (values : Walked (CompleteEdge listed) full)
    (turns : Walked (RotationEdge listed) rotations) {a b : Frame} {m : Transform} (hm : full a b = some m) :
    rotations a b = some m.toBlocks₁₁ := by
  obtain ⟨R, t, rfl, hR⟩ := walk_block turns.balanced ((values a b m).mp hm)
  have block : (homogeneous R t).toBlocks₁₁ = R := Matrix.toBlocks_fromBlocks₁₁ _ _ _ _
  rw [block]
  exact (turns a b R).mpr hR

theorem resolveDataGraph_perm {resolved : Resolved} (order' : Enumeration)
    (passed : Passed sources assemblyRevision rows records) (perm : rows'.Perm rows)
    (values : Walked (CompleteEdge (· ∈ records)) resolved.transform)
    (turns : Walked (RotationEdge (· ∈ records)) resolved.rotation) :
    ∃ resolved', resolveDataGraph order' (.list rows') sources assemblyRevision = .ok resolved' ∧
      resolved'.transform = resolved.transform ∧ resolved'.rotation = resolved.rotation := by
  obtain ⟨records', passed'⟩ := passed.perm perm
  have same : (· ∈ records') = (· ∈ records) := by
    funext r
    rw [← passed'.listed r, ← passed.listed r]
    simp only [Listed, perm.mem_iff]
  have spec := resolveDataGraph_spec order' passed'
  rw [same] at spec
  cases run : resolveDataGraph order' (.list rows') sources assemblyRevision with
  | error failure =>
    rw [run] at spec
    rcases spec.2 with wrong | wrong
    · exact absurd values.balanced wrong
    · exact absurd turns.balanced wrong
  | ok resolved' =>
    rw [run] at spec
    exact ⟨resolved', rfl, Walked.unique spec.1 values, Walked.unique spec.2 turns⟩

/-- `resolve_data_graph` raises for inconsistent paths exactly where a cycle of usable edges is not the identity; else
all its values are those along any walk, in whatever order the records are given. -/
theorem transforms_consistent (order : Enumeration) (sources : Sources) (assemblyRevision : String) (rows : List Value)
    (passed : (declaredTransforms (.list rows) sources assemblyRevision).isOk) :
    ((∃ origin neighbor,
        resolveDataGraph order (.list rows) sources assemblyRevision = .error (.inconsistent origin neighbor)) ↔
      Twisted (Listed sources assemblyRevision rows)) ∧
    ((∃ origin neighbor,
        resolveDataGraph order (.list rows) sources assemblyRevision = .error (.inconsistent origin neighbor)) ∨
      ∃ resolved, resolveDataGraph order (.list rows) sources assemblyRevision = .ok resolved ∧
        Consistent (CompleteEdge (Listed sources assemblyRevision rows)) resolved.transform ∧
        Consistent (RotationEdge (Listed sources assemblyRevision rows)) resolved.rotation ∧
        (∀ a b m, resolved.transform a b = some m → resolved.rotation a b = some m.toBlocks₁₁) ∧
        ∀ (order' : Enumeration) (rows' : List Value), rows'.Perm rows →
          ∃ resolved', resolveDataGraph order' (.list rows') sources assemblyRevision = .ok resolved' ∧
            resolved'.transform = resolved.transform ∧ resolved'.rotation = resolved.rotation) := by
  obtain ⟨declared, loop⟩ : ∃ declared, declaredTransforms (.list rows) sources assemblyRevision = .ok declared := by
    cases h : declaredTransforms (.list rows) sources assemblyRevision with
    | error failure => simp [h, Except.isOk, Except.toBool] at passed
    | ok declared => exact ⟨declared, rfl⟩
  obtain ⟨records, passed, -⟩ := declaredTransforms_eq_ok.mp loop
  have said : Listed sources assemblyRevision rows = (· ∈ records) := funext fun r => propext (passed.listed r)
  have spec := resolveDataGraph_spec order passed
  rw [said, twisted_iff]
  cases run : resolveDataGraph order (.list rows) sources assemblyRevision with
  | error failure =>
    rw [run] at spec
    obtain ⟨⟨origin, neighbor, rfl⟩, wrong⟩ := spec
    exact ⟨⟨fun _ => wrong, fun _ => ⟨origin, neighbor, rfl⟩⟩, .inl ⟨origin, neighbor, rfl⟩⟩
  | ok resolved =>
    rw [run] at spec
    obtain ⟨values, turns⟩ := spec
    refine ⟨⟨?_, ?_⟩, .inr ⟨resolved, rfl, .of_walks CompleteEdge.reversible values,
      .of_walks RotationEdge.reversible turns, fun a b m => rotation_block values turns, fun order' rows' perm =>
        resolveDataGraph_perm order' passed perm values turns⟩⟩
    · rintro ⟨_, _, h⟩
      cases h
    · rintro (wrong | wrong)
      · exact absurd (Walked.balanced values) wrong
      · exact absurd (Walked.balanced turns) wrong

/-! Records of a lidar that is measured, and of the rest that is not. -/

def benchSources : Sources := [("survey", ⟨"GEOMETRY_MEASUREMENT", "r1"⟩)]

def benchComponent (part : Part) (status : String) (value : Value) : Value :=
  .object [(part.field, value), ("status", .text status), ("reference_kind", .text part.expected),
    ("evidence", .list [.object [("source_id", .text "survey")]]), ("note", .text "bench")]

def benchRow (id : String) (parent child : Frame) (translation rotation : Value) : Value :=
  .object [("id", .text id), ("parent_frame", .text parent.name), ("child_frame", .text child.name),
    ("direction", .text "child_to_parent"), ("unit", .text "m"), ("translation", translation), ("rotation", rotation),
    ("note", .text "bench")]

def benchKnown (id : String) (parent child : Frame) (t : List ℤ) (R : List (List ℤ)) : Value :=
  benchRow id parent child
    (benchComponent .translation "USER_MEASURED_EXPERIMENT" (.list (t.map .int)))
    (benchComponent .rotation "USER_MEASURED_EXPERIMENT" (.list (R.map fun row => .list (row.map .int))))

def benchUnknown (id : String) (parent child : Frame) : Value :=
  benchRow id parent child (benchComponent .translation "UNKNOWN" .null) (benchComponent .rotation "UNKNOWN" .null)

def bench : List Value :=
  [benchKnown "axle left" .axle .lidarLeft [1, 0, 0] [[0, -1, 0], [1, 0, 0], [0, 0, 1]],
    benchUnknown "right" .axle .lidarRight,
    benchUnknown "mounting" .axle .mountingM,
    benchUnknown "front" .cameraLeftFrontOptical .cameraRightFrontOptical,
    benchUnknown "side" .cameraLeftSideOptical .cameraRightSideOptical,
    benchUnknown "imu" .axle .imuNative,
    benchUnknown "front holes" .doubleHoleLeftFrontUnbound .doubleHoleRightFrontUnbound,
    benchUnknown "side holes" .doubleHoleLeftSideUnbound .doubleHoleRightSideUnbound]

def benchOrder : Enumeration := ⟨FRAMES, by decide, mem_FRAMES⟩

theorem bench_resolves : (resolveDataGraph benchOrder (.list bench) benchSources "r1").isOk := by decide +kernel

theorem bench_transforms_consistent :
    ∃ resolved, resolveDataGraph benchOrder (.list bench) benchSources "r1" = .ok resolved ∧
      Consistent (CompleteEdge (Listed benchSources "r1" bench)) resolved.transform ∧
      ∀ a b m, resolved.transform a b = some m → resolved.rotation a b = some m.toBlocks₁₁ := by
  have passed : (declaredTransforms (.list bench) benchSources "r1").isOk := by decide +kernel
  rcases (transforms_consistent benchOrder benchSources "r1" bench passed).2 with ⟨_, _, raised⟩ | found
  · have resolves := bench_resolves
    rw [raised] at resolves
    cases resolves
  · obtain ⟨resolved, run, complete, -, block, -⟩ := found
    exact ⟨resolved, run, complete, block⟩

end Smartwheel.Calibration
