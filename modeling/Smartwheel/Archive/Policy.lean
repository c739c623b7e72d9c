import Mathlib.Order.Lattice
import Smartwheel.Effect.Check

/-! `StoragePolicy`: where the data of a project lies, and the name that a place has in the project. -/
namespace Smartwheel.StoragePolicy
open Effect

inductive Root where
  | relative | slash | slashes
deriving DecidableEq, Repr

/-- A path as `pathlib` keeps it. -/
@[ext] structure Path where
  root : Root
  parts : List (List Char)
  plain : ∀ part ∈ parts, part ≠ [] ∧ part ≠ ['.'] ∧ '/' ∉ part
deriving DecidableEq

theorem not_mem_of_splitOn {text part : List Char} (h : part ∈ text.splitOn '/') : '/' ∉ part := by
  induction text generalizing part with
  | nil =>
    rw [List.splitOn_nil, List.mem_singleton] at h
    rw [h]
    exact List.not_mem_nil
  | cons c text ih =>
    rw [List.splitOn_cons_eq_if_modifyHead] at h
    split at h
    · rcases List.mem_cons.mp h with rfl | later
      · exact List.not_mem_nil
      · exact ih later
    · next other =>
      obtain ⟨first, rest, split⟩ := List.exists_cons_of_ne_nil (List.splitOn_ne_nil '/' text)
      rw [split, List.modifyHead_cons] at h
      rcases List.mem_cons.mp h with rfl | later
      · have inside : '/' ∉ first := ih (split ▸ List.mem_cons_self)
        simp only [List.mem_cons, not_or]
        exact ⟨fun same => other (beq_iff_eq.mpr same.symm), inside⟩
      · exact ih (split ▸ List.mem_cons_of_mem _ later)

namespace Path

def rootOf : List Char → Root
  | '/' :: '/' :: '/' :: _ => .slash
  | '/' :: '/' :: _ => .slashes
  | '/' :: _ => .slash
  | _ => .relative

/-- `Path(value)`. -/
def ofText (text : List Char) : Path where
  root := rootOf text
  parts := (text.splitOn '/').filter fun part => part ≠ [] ∧ part ≠ ['.']
  plain part inside := by
    obtain ⟨here, kept⟩ := List.mem_filter.mp inside
    obtain ⟨some_, other⟩ := of_decide_eq_true kept
    exact ⟨some_, other, not_mem_of_splitOn here⟩

/-- `as_posix` of a relative path. -/
def asPosix (p : Path) : List Char := if p.parts = [] then ['.'] else ['/'].intercalate p.parts

def text (p : Path) : String :=
  match p.root with
  | .relative => String.ofList p.asPosix
  | .slash => "/" ++ String.ofList (['/'].intercalate p.parts)
  | .slashes => "//" ++ String.ofList (['/'].intercalate p.parts)

def isRelativeTo (p q : Path) : Prop := p.root = q.root ∧ q.parts <+: p.parts

instance (p q : Path) : Decidable (p.isRelativeTo q) := inferInstanceAs (Decidable (_ ∧ _))

def relativeTo (p q : Path) : Path :=
  ⟨.relative, p.parts.drop q.parts.length, fun part inside => p.plain part (List.mem_of_mem_drop inside)⟩

def join (p q : Path) : Path :=
  ⟨p.root, p.parts ++ q.parts, fun part inside => (List.mem_append.mp inside).elim (p.plain part) (q.plain part)⟩

def upward (p : Path) : List Path :=
  (List.range (p.parts.length + 1)).reverse.map fun n =>
    ⟨p.root, p.parts.take n, fun part inside => p.plain part (List.mem_of_mem_take inside)⟩

theorem intercalate_cons_ne (part : List Char) (rest : List (List Char)) : ∃ more, ['/'].intercalate (part :: rest) = part ++ more := by
  cases rest with
  | nil => exact ⟨[], by simp⟩
  | cons next rest => exact ⟨_, by rw [List.intercalate_cons_cons, List.append_assoc]⟩

theorem ofText_asPosix (p : Path) (h : p.root = .relative) : ofText p.asPosix = p := by
  obtain ⟨root, parts, plain⟩ := p
  subst h
  cases parts with
  | nil => rfl
  | cons part rest =>
    have inside : ∀ q ∈ part :: rest, '/' ∉ q := fun q here => (plain q here).2.2
    have text : asPosix ⟨.relative, part :: rest, plain⟩ = ['/'].intercalate (part :: rest) := if_neg (List.cons_ne_nil _ _)
    rw [text]
    ext1
    · obtain ⟨more, split⟩ := intercalate_cons_ne part rest
      obtain ⟨some_, -, free⟩ := plain part List.mem_cons_self
      obtain ⟨c, chars, rfl⟩ := List.exists_cons_of_ne_nil some_
      have first : c ≠ '/' := fun same => free (same ▸ List.mem_cons_self)
      show rootOf _ = _
      rw [split, List.cons_append]
      unfold rootOf
      split <;> simp_all
    · show ((['/'].intercalate (part :: rest)).splitOn '/').filter _ = part :: rest
      rw [List.splitOn_intercalate _ inside (List.cons_ne_nil _ _), List.filter_eq_self]
      exact fun q here => decide_eq_true ⟨(plain q here).1, (plain q here).2.1⟩

theorem isRelativeTo_or {p q r : Path} (first : p.isRelativeTo q) (second : p.isRelativeTo r) : q.isRelativeTo r ∨ r.isRelativeTo q := by
  have root : q.root = r.root := first.1.symm.trans second.1
  exact (List.prefix_or_prefix_of_prefix first.2 second.2).symm.imp (fun inside => ⟨root, inside⟩) fun inside => ⟨root.symm, inside⟩

theorem join_relativeTo {p q : Path} (h : p.isRelativeTo q) : q.join (p.relativeTo q) = p := by
  obtain ⟨root, rest, split⟩ := h
  ext1
  · exact root.symm
  · show q.parts ++ p.parts.drop q.parts.length = p.parts
    rw [← split, List.drop_left]

theorem isRelativeTo_join (p q : Path) : (p.join q).isRelativeTo p := ⟨rfl, List.prefix_append _ _⟩

theorem relativeTo_join {p q : Path} (h : q.root = .relative) : (p.join q).relativeTo p = q := by
  ext1
  · exact h.symm
  · exact List.drop_left

end Path

structure World where
  /-- `self.check()`. -/
  check : Except String Unit
  /-- A symlink or a junction. -/
  linked : Path → Bool
  present : Path → Bool
  device : Path → ℕ
  /-- The device of the mount. -/
  mount : ℕ

/-- What `__init__` has made of the roots; with an archive the policy is enabled. -/
structure Policy where
  project : Path
  original : Path
  archive : Option Path
  absolute : project.root ≠ .relative ∧ original.root ≠ .relative ∧ ∀ a ∈ archive, a.root ≠ .relative
  legacy : archive = none → original = project
  apart : ∀ a ∈ archive, ¬a.isRelativeTo project ∧ ¬project.isRelativeTo a

def DATA_NAMES : List String := ["data", "reports", "maps"]

def redirects (relative : Path) : Bool := relative.parts.head?.any ((DATA_NAMES ++ ["dev_archive"]).map String.toList).contains

section
variable (w : World) (policy : Policy)

/-- `_ordinary`. -/
def ordinary (p : Path) : Except String Path := do
  refuse (['.', '.'] ∈ p.parts) "STORAGE_PATH_INVALID: parent traversal is not allowed"
  match p.upward.find? w.linked with
  | some parent => .error ("STORAGE_PATH_INVALID: symlinks or junctions are not allowed: " ++ parent.text)
  | none => return p

/-- `_external`. -/
def external (p : Path) : Except String Path := do
  w.check
  let p ← ordinary w p
  let existing := (p.upward.find? w.present).getD p
  refuse (w.device existing ≠ w.mount) "STORAGE_PATH_INVALID: data path crosses another mounted filesystem"
  return p

def located (value : Path) : Path := if value.root = .relative then policy.project.join value else value

def relativePart (path : Path) : Except String Path :=
  if path.isRelativeTo policy.project then .ok (path.relativeTo policy.project)
  else if path.isRelativeTo policy.original then .ok (path.relativeTo policy.original)
  else .error ("STORAGE_PATH_OUTSIDE_ALLOWED_ROOTS: " ++ path.text)

def resolve (value : Path) : Except String Path := do
  refuse (['.', '.'] ∈ value.parts) "STORAGE_PATH_INVALID: parent traversal is not allowed"
  let path := located policy value
  match policy.archive with
  | some archive =>
    if path.isRelativeTo archive then external w path
    else
      let relative ← relativePart policy path
      if redirects relative then external w (archive.join relative) else ordinary w (policy.project.join relative)
  | none =>
    let relative ← relativePart policy path
    ordinary w (policy.project.join relative)

def base (path : Path) : Path :=
  match policy.archive with
  | some archive => if path.isRelativeTo archive then archive else policy.project
  | none => policy.project

def logical (value : Path) : Except String (List Char) := do
  let path ← resolve w policy value
  return (path.relativeTo (base policy path)).asPosix

end

variable {w : World} {policy : Policy} {value p : Path}

/-! ### What is accepted -/

theorem ordinary_ok (h : ordinary w value = .ok p) : p = value ∧ ['.', '.'] ∉ p.parts := by
  obtain ⟨_, plain, h⟩ := bind_eq_ok h
  split at h
  · cases h
  · cases h
    exact ⟨rfl, refuse_ok plain⟩

theorem external_ok (h : external w value = .ok p) : p = value ∧ ['.', '.'] ∉ p.parts := by
  unfold external at h
  simp only [bind_eq_ok_iff] at h
  obtain ⟨_, -, q, plain, _, -, h⟩ := h
  cases h
  exact ordinary_ok plain

theorem relativePart_relative {path relative : Path} (h : relativePart policy path = .ok relative) : relative.root = .relative := by
  unfold relativePart at h
  split at h
  · cases h
    rfl
  · split at h
    · cases h
      rfl
    · cases h

inductive Placed (w : World) (policy : Policy) (p : Path) : Prop
  | archived {archive : Path} (enabled : policy.archive = some archive) (under : p.isRelativeTo archive) (accepted : external w p = .ok p)
  | kept (under : p.isRelativeTo policy.project) (stays : policy.archive ≠ none → redirects (p.relativeTo policy.project) = false)
      (accepted : ordinary w p = .ok p)

def Stray (policy : Policy) (p : Path) : Prop :=
  ∃ archive, policy.archive = some archive ∧ p.isRelativeTo archive ∧ redirects (p.relativeTo archive) = false

theorem not_both {archive : Path} (enabled : policy.archive = some archive) (first : p.isRelativeTo archive) :
    ¬p.isRelativeTo policy.project := fun second =>
  (Path.isRelativeTo_or first second).elim (policy.apart archive enabled).1 (policy.apart archive enabled).2

theorem resolve_placed (h : resolve w policy value = .ok p) :
    Placed w policy p ∧ (Stray policy p ↔ Stray policy (located policy value)) := by
  obtain ⟨_, -, h⟩ := bind_eq_ok h
  dsimp only at h
  have outside {relative : Path} : ¬Stray policy (policy.project.join relative) := by
    rintro ⟨archive, enabled, under, -⟩
    exact not_both enabled under (Path.isRelativeTo_join _ _)
  split at h
  · next archive enabled =>
    split at h
    · next under =>
      obtain ⟨rfl, -⟩ := external_ok h
      exact ⟨.archived enabled under h, Iff.rfl⟩
    · next elsewhere =>
      have fine : ¬Stray policy (located policy value) := by
        rintro ⟨other, enabled', under, -⟩
        rw [enabled] at enabled'
        cases enabled'
        exact elsewhere under
      obtain ⟨relative, part, h⟩ := bind_eq_ok h
      have root := relativePart_relative part
      split at h
      · next leads =>
        obtain ⟨rfl, -⟩ := external_ok h
        refine ⟨.archived enabled (Path.isRelativeTo_join _ _) h, iff_of_false ?_ fine⟩
        rintro ⟨other, enabled', -, stays⟩
        rw [enabled] at enabled'
        cases enabled'
        rw [Path.relativeTo_join root, leads] at stays
        cases stays
      · next stays =>
        obtain ⟨rfl, -⟩ := ordinary_ok h
        refine ⟨.kept (Path.isRelativeTo_join _ _) (fun _ => ?_) h, iff_of_false outside fine⟩
        rw [Path.relativeTo_join root]
        exact Bool.eq_false_iff.mpr stays
  · next disabled =>
    obtain ⟨relative, part, h⟩ := bind_eq_ok h
    obtain ⟨rfl, -⟩ := ordinary_ok h
    refine ⟨.kept (Path.isRelativeTo_join _ _) (fun enabled => absurd disabled enabled) h, iff_of_false outside ?_⟩
    rintro ⟨archive, enabled, -⟩
    rw [disabled] at enabled
    cases enabled

theorem Placed.plain (h : Placed w policy p) : ['.', '.'] ∉ p.parts := by
  cases h with
  | archived _ _ accepted => exact (external_ok accepted).2
  | kept _ _ accepted => exact (ordinary_ok accepted).2

theorem resolve_of_plain (plain : ['.', '.'] ∉ value.parts) :
    resolve w policy value =
      match policy.archive with
      | some archive =>
        if (located policy value).isRelativeTo archive then external w (located policy value)
        else relativePart policy (located policy value) >>= fun relative =>
          if redirects relative then external w (archive.join relative) else ordinary w (policy.project.join relative)
      | none => relativePart policy (located policy value) >>= fun relative => ordinary w (policy.project.join relative) := by
  rw [resolve, refuse_of_not plain]
  rfl

theorem Placed.again (h : Placed w policy p) : resolve w policy p = .ok p := by
  have absolute : located policy p = p := by
    refine if_neg fun relative => ?_
    cases h with
    | archived enabled under _ => exact policy.absolute.2.2 _ enabled (under.1.symm.trans relative)
    | kept under _ _ => exact policy.absolute.1 (under.1.symm.trans relative)
  rw [resolve_of_plain h.plain, absolute]
  cases h with
  | archived enabled under accepted =>
    rw [enabled]
    dsimp only
    rw [if_pos under, accepted]
  | kept under stays accepted =>
    have part : relativePart policy p = .ok (p.relativeTo policy.project) := if_pos under
    have there := Path.join_relativeTo under
    cases enabled : policy.archive with
    | none =>
      rw [part]
      exact (congrArg (ordinary w) there).trans accepted
    | some archive =>
      dsimp only
      rw [if_neg fun inside => not_both enabled inside under, part]
      show (if redirects (p.relativeTo policy.project) then _ else _) = _
      rw [stays (by simp [enabled]), there]
      exact accepted

theorem Placed.named (h : Placed w policy p) :
    resolve w policy (Path.ofText (p.relativeTo (base policy p)).asPosix) = .ok p ↔ ¬Stray policy p := by
  rw [Path.ofText_asPosix _ rfl]
  have plain : ['.', '.'] ∉ (p.relativeTo (base policy p)).parts := fun inside => h.plain (List.mem_of_mem_drop inside)
  have place (q : Path) (relative : q.root = .relative) : located policy q = policy.project.join q := if_pos relative
  have part (q : Path) (relative : q.root = .relative) : relativePart policy (policy.project.join q) = .ok q :=
    (if_pos (Path.isRelativeTo_join _ _)).trans (congrArg Except.ok (Path.relativeTo_join relative))
  rw [resolve_of_plain plain, place _ rfl, part _ rfl]
  cases h with
  | @archived archive enabled under accepted =>
    have root : base policy p = archive := by simp only [base, enabled, if_pos under]
    rw [root, enabled]
    dsimp only
    rw [if_neg fun inside => not_both enabled inside (Path.isRelativeTo_join _ _)]
    show (if redirects (p.relativeTo archive) then _ else _) = _ ↔ _
    by_cases leads : redirects (p.relativeTo archive) = true
    · rw [if_pos leads, Path.join_relativeTo under]
      refine iff_of_true accepted ?_
      rintro ⟨other, enabled', -, stays⟩
      rw [enabled] at enabled'
      cases enabled'
      exact absurd leads (Bool.eq_false_iff.mp stays)
    · rw [if_neg leads]
      refine iff_of_false (fun same => ?_) (not_not.mpr ⟨archive, enabled, under, Bool.eq_false_iff.mpr leads⟩)
      have there := (ordinary_ok same).1
      exact not_both enabled under (there ▸ Path.isRelativeTo_join _ _)
  | kept under stays accepted =>
    have fine : ¬Stray policy p := fun ⟨archive, enabled, inside, _⟩ => not_both enabled inside under
    have there := Path.join_relativeTo under
    refine iff_of_true ?_ fine
    cases enabled : policy.archive with
    | none =>
      have root : base policy p = policy.project := by simp only [base, enabled]
      rw [root]
      exact (congrArg (ordinary w) there).trans accepted
    | some archive =>
      have elsewhere : ¬p.isRelativeTo archive := fun inside => not_both enabled inside under
      have root : base policy p = policy.project := by simp only [base, enabled, if_neg elsewhere]
      rw [root]
      dsimp only
      rw [there, if_neg elsewhere]
      show (if redirects (p.relativeTo policy.project) then _ else _) = _
      rw [stays (by simp [enabled]), there]
      exact accepted

/-! ### Names and places -/

structure Promised (w : World) (policy : Policy) (value other p q : Path) : Prop where
  inside : p.isRelativeTo policy.project ∨ ∃ archive, policy.archive = some archive ∧ p.isRelativeTo archive
  again : resolve w policy p = .ok p
  named : ∀ name, logical w policy value = .ok name → resolve w policy (Path.ofText name) = .ok p
  namedOther : ∀ name, logical w policy other = .ok name → resolve w policy (Path.ofText name) = .ok q
  same : logical w policy value = logical w policy other ↔ p = q

theorem logical_of_ok (h : resolve w policy value = .ok p) : logical w policy value = .ok (p.relativeTo (base policy p)).asPosix := by
  rw [logical, h]
  rfl

theorem resolve_again (h : resolve w policy value = .ok p) :
    resolve w policy p = .ok p ∧ (p.isRelativeTo policy.project ∨ ∃ archive, policy.archive = some archive ∧ p.isRelativeTo archive) := by
  obtain ⟨placed, -⟩ := resolve_placed h
  refine ⟨placed.again, ?_⟩
  cases placed with
  | archived enabled under _ => exact .inr ⟨_, enabled, under⟩
  | kept under _ _ => exact .inl under

/-- Names and places are inverse to each other exactly where no value is a stray path of the archive. -/
theorem promised_iff {other q : Path} (first : resolve w policy value = .ok p) (second : resolve w policy other = .ok q) :
    Promised w policy value other p q ↔ ¬Stray policy (located policy value) ∧ ¬Stray policy (located policy other) := by
  obtain ⟨placed, stray⟩ := resolve_placed first
  obtain ⟨placed', stray'⟩ := resolve_placed second
  have name := logical_of_ok first
  have name' := logical_of_ok second
  rw [← stray, ← stray']
  constructor
  · intro h
    exact ⟨placed.named.mp (h.named _ name), placed'.named.mp (h.namedOther _ name')⟩
  · rintro ⟨fine, fine'⟩
    have back := placed.named.mpr fine
    have back' := placed'.named.mpr fine'
    refine ⟨(resolve_again first).2, placed.again, fun text same => ?_, fun text same => ?_, ?_⟩
    · rw [name] at same
      cases same
      exact back
    · rw [name'] at same
      cases same
      exact back'
    · rw [name, name']
      constructor
      · intro same
        rw [Except.ok.inj same, back'] at back
        exact (Except.ok.inj back).symm
      · rintro rfl
        rfl

namespace Bench

def path (text : String) : Path := .ofText text.toList

def world : World := ⟨.ok (), fun _ => false, fun _ => true, fun _ => 0, 0⟩

def enabled : Policy := ⟨path "/p", path "/home", some (path "/a"), by decide, by decide, by decide⟩

end Bench

theorem promised_iff_bench : Promised Bench.world Bench.enabled (Bench.path "data/x") (Bench.path "src/x") (Bench.path "/a/data/x")
    (Bench.path "/p/src/x") ↔ ¬Stray Bench.enabled (located Bench.enabled (Bench.path "data/x")) ∧
      ¬Stray Bench.enabled (located Bench.enabled (Bench.path "src/x")) := promised_iff (by decide +kernel) (by decide +kernel)

/-- A path of the archive that has the name of one of the project. -/
theorem archive_src : resolve Bench.world Bench.enabled (Bench.path "/a/src/x") = .ok (Bench.path "/a/src/x") ∧
    logical Bench.world Bench.enabled (Bench.path "/a/src/x") = .ok "src/x".toList ∧
    logical Bench.world Bench.enabled (Bench.path "/p/src/x") = .ok "src/x".toList ∧
    resolve Bench.world Bench.enabled (Path.ofText "src/x".toList) = .ok (Bench.path "/p/src/x") ∧
    ¬Promised Bench.world Bench.enabled (Bench.path "/a/src/x") (Bench.path "/p/src/x") (Bench.path "/a/src/x") (Bench.path "/p/src/x") := by
  have name : logical Bench.world Bench.enabled (Bench.path "/a/src/x") = .ok "src/x".toList := by decide +kernel
  have back : resolve Bench.world Bench.enabled (Path.ofText "src/x".toList) = .ok (Bench.path "/p/src/x") := by decide +kernel
  refine ⟨by decide +kernel, name, by decide +kernel, back, fun promised => ?_⟩
  have same := back.symm.trans (promised.named _ name)
  exact absurd same (by decide +kernel)

end Smartwheel.StoragePolicy
