import Mathlib.Data.List.Basic
import Smartwheel.Instances

/-! A tree of regular files as one process sees it: what a path has, which directories were made, and the tables that a
listing of it gives. -/
namespace Disk

/-- The parts of a path. -/
abbrev Path := List String

/-- A name beside another: `path.with_name(path.name+'.tmp')`. -/
def temporary (p : Path) : Path := p.dropLast ++ [p.getLast?.getD "" ++ ".tmp"]

/-- By paths; the first entry of a path counts. -/
abbrev Table (α : Type*) := List (Path × α)

namespace Table
variable {α β : Type*}

def Agree (t t' : Table α) : Prop := ∀ p, t.lookup p = t'.lookup p

variable {p : Path} {t : Table α}

theorem lookup_mem {a : α} (found : t.lookup p = some a) : (p, a) ∈ t := by
  obtain ⟨before, after, rfl, -⟩ := List.lookup_eq_some_iff.mp found
  simp

theorem lookup_cons_ne {q : Path} {a : α} (different : p ≠ q) : List.lookup p ((q, a) :: t) = t.lookup p := by
  rw [List.lookup_cons, beq_eq_false_iff_ne.mpr different]

theorem agree_iff {t' : Table α} :
    Agree t t' ↔ (∀ e ∈ t, t.lookup e.1 = t'.lookup e.1) ∧ ∀ e ∈ t', t.lookup e.1 = t'.lookup e.1 := by
  constructor
  · intro h
    exact ⟨fun e _ => h e.1, fun e _ => h e.1⟩
  · rintro ⟨first, second⟩ p
    cases here : t.lookup p with
    | some a => rw [← first _ (lookup_mem here), here]
    | none =>
      cases there : t'.lookup p with
      | none => rfl
      | some a => rw [← there, ← second _ (lookup_mem there), here]

instance [DecidableEq α] (t t' : Table α) : Decidable (Agree t t') := decidable_of_iff _ agree_iff.symm

/-- The paths that `key` has, under the names it gives them. -/
def select (key : Path → Option Path) (f : α → β) (t : Table α) : Table β :=
  t.filterMap fun e => (key e.1).map fun q => (q, f e.2)

variable {f : α → β}

theorem select_lookup {key : Path → Option Path} {q : Path}
    (only : ∀ p', key p' = some q ↔ p' = p) : (t.select key f).lookup q = (t.lookup p).map f := by
  induction t with
  | nil => rfl
  | cons e t ih =>
    obtain ⟨p', a⟩ := e
    by_cases same : p' = p
    · subst same
      have found : key p' = some q := (only p').mpr rfl
      have first : select key f ((p', a) :: t) = (q, f a) :: select key f t := List.filterMap_cons_some (by simp [found])
      rw [first, List.lookup_cons_self, List.lookup_cons_self]
      rfl
    · rw [lookup_cons_ne (Ne.symm same), ← ih]
      cases here : key p' with
      | none =>
        have skip : select key f ((p', a) :: t) = select key f t := List.filterMap_cons_none (by simp [here])
        rw [skip]
      | some q' =>
        have first : select key f ((p', a) :: t) = (q', f a) :: select key f t := List.filterMap_cons_some (by simp [here])
        have different : q ≠ q' := fun equal => same ((only p').mp (here.trans (congrArg some equal.symm)))
        rw [first, lookup_cons_ne different]

/-- The paths of `keep`, under their own names. -/
def among (keep : Path → Prop) [DecidablePred keep] (f : α → β) (t : Table α) : Table β :=
  t.select (fun p => if keep p then some p else none) f

theorem among_lookup {keep : Path → Prop} [DecidablePred keep] (kept : keep p) :
    (t.among keep f).lookup p = (t.lookup p).map f := by
  refine select_lookup fun p' => ?_
  constructor
  · intro here
    by_cases h : keep p' <;> simp_all
  · rintro rfl
    simp [kept]

theorem among_lookup_none {keep : Path → Prop} [DecidablePred keep] (out : ¬keep p) :
    (t.among keep f).lookup p = none := by
  rw [List.lookup_eq_none_iff]
  intro e there
  obtain ⟨e', -, here⟩ := List.mem_filterMap.mp there
  by_cases h : keep e'.1
  · have same : e.1 = e'.1 := by
      simp only [if_pos h, Option.map_some, Option.some.injEq] at here
      exact (congrArg Prod.fst here).symm
    have different : p ≠ e.1 := fun equal => out (equal ▸ same ▸ h)
    simpa using different
  · simp [h] at here

def below (dir : Path) (f : α → β) (t : Table α) : Table β := t.select (fun p => p.dropPrefix? dir) f

theorem below_lookup {dir : Path} (q : Path) : (t.below dir f).lookup q = (t.lookup (dir ++ q)).map f := by
  refine select_lookup fun p' => ?_
  rw [List.dropPrefix?_eq_some_iff]
  constructor
  · rintro ⟨dir', rfl, same⟩
    rw [eq_of_beq same]
  · rintro rfl
    exact ⟨dir, rfl, by simp⟩

end Table

structure Tree (α : Type*) where
  files : Table α
  dirs : List Path
deriving DecidableEq, Repr

namespace Tree
variable {α : Type*}

def empty : Tree α := ⟨[], []⟩

def file (t : Tree α) (p : Path) : Option α := t.files.lookup p

def put (p : Path) (a : α) (t : Tree α) : Tree α := { t with files := (p, a) :: t.files.filter fun e => e.1 ≠ p }

def remove (p : Path) (t : Tree α) : Tree α := { t with files := t.files.filter fun e => e.1 ≠ p }

/-- What `a` has, `b` has instead. -/
def rename (a b : Path) (t : Tree α) : Tree α :=
  match t.file a with
  | some c => (t.remove a).put b c
  | none => t

def mkdir (d : Path) (t : Tree α) : Tree α := { t with dirs := d :: t.dirs }

variable {t : Tree α} {a b p q d : Path} {c : α}

theorem lookup_filter {l : Table α} (p q : Path) :
    (l.filter fun e => e.1 ≠ p).lookup q = if q = p then none else l.lookup q := by
  induction l with
  | nil => simp
  | cons e l ih =>
    obtain ⟨p', a⟩ := e
    by_cases here : p' = p
    · rw [List.filter_cons_of_neg (by simpa using here), ih]
      by_cases there : q = p
      · simp [there]
      · rw [if_neg there, if_neg there, Table.lookup_cons_ne (here ▸ there)]
    · rw [List.filter_cons_of_pos (by simpa using here)]
      by_cases same : q = p'
      · simp [same, here]
      · rw [Table.lookup_cons_ne same, Table.lookup_cons_ne same, ih]

@[simp] theorem file_empty : (empty : Tree α).file p = none := rfl

@[simp] theorem file_put : (t.put p c).file q = if q = p then some c else t.file q := by
  unfold put file
  by_cases same : q = p
  · simp [same]
  · rw [Table.lookup_cons_ne same, lookup_filter, if_neg same, if_neg same]

@[simp] theorem file_remove : (t.remove p).file q = if q = p then none else t.file q := lookup_filter p q

@[simp] theorem file_mkdir : (t.mkdir d).file q = t.file q := rfl

theorem file_rename (here : t.file a = some c) : (t.rename a b).file q = if q = b then some c else if q = a then none else t.file q := by
  unfold rename
  rw [here]
  simp

theorem file_rename_of_ne (first : q ≠ a) (second : q ≠ b) : (t.rename a b).file q = t.file q := by
  cases here : t.file a with
  | none => simp [rename, here]
  | some c => simp [file_rename here, first, second]

def replace (a b : Path) (c : α) (t : Tree α) : Tree α := (t.put a c).rename a b

theorem file_replace : (t.replace a b c).file q = if q = b then some c else if q = a then none else t.file q := by
  unfold replace
  rw [file_rename (c := c) (by simp)]
  by_cases first : q = a <;> simp [first]

theorem file_replace_of_ne (first : q ≠ a) (second : q ≠ b) : (t.replace a b c).file q = t.file q := by
  simp [file_replace, first, second]

end Tree
end Disk
