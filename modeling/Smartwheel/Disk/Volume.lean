import Mathlib.Logic.Function.Basic
import Mathlib.Data.List.Basic

/-! A volume as the processes see it, with what a loss of power may leave of it: a file that was not synced has any
contents afterwards, and a name has any of the files it was given since its directory was synced. A file is written
once, where it is made. -/
namespace Disk

/-- A file: contents of `α`, attributes of `μ`, and which of them are synced. -/
structure Inode (α μ : Type*) where
  content : α
  attributes : μ
  synced : Bool
  kept : Bool
deriving DecidableEq, Repr

structure Inode.Same {α μ : Type*} (f f' : Inode α μ) : Prop where
  content : f'.content = f.content
  attributes : f'.attributes = f.attributes
  synced : f.synced = true → f'.synced = true
  kept : f.kept = true → f'.kept = true

theorem Inode.Same.refl {α μ : Type*} (f : Inode α μ) : f.Same f := ⟨rfl, rfl, id, id⟩

theorem Inode.Same.trans {α μ : Type*} {f f' f'' : Inode α μ} (h : f.Same f') (h' : f'.Same f'') : f.Same f'' :=
  ⟨h'.content.trans h.content, h'.attributes.trans h.attributes, fun synced => h'.synced (h.synced synced),
    fun kept => h'.kept (h.kept kept)⟩

/-- Names of `ν` in directories of `δ`. `now` is what the processes see, `disk` what a loss of power may leave, and a
directory is `linked` where all directories on the way to it are synced. -/
structure Volume (ν δ α μ : Type*) where
  now : ν → Option Nat
  disk : ν → List (Option Nat)
  inode : Nat → Inode α μ
  next : Nat
  linked : δ → Bool

namespace Volume
variable {ν δ α μ : Type*}

def file (v : Volume ν δ α μ) (name : ν) : Option (Inode α μ) := (v.now name).map v.inode

def present (v : Volume ν δ α μ) (name : ν) : Bool := (v.now name).isSome

structure Valid (v : Volume ν δ α μ) : Prop where
  now : ∀ name, v.now name ∈ v.disk name
  bound : ∀ name i, some i ∈ v.disk name → i < v.next

/-- Every file that a name can have after a loss of power is synced, with contents of `P`. -/
def Only (v : Volume ν δ α μ) (name : ν) (P : α → Prop) : Prop :=
  ∀ i, some i ∈ v.disk name → (v.inode i).synced = true ∧ P (v.inode i).content

/-- A name has contents of `P`, and keeps them. -/
structure Solid (dir : ν → δ) (v : Volume ν δ α μ) (name : ν) (P : α → Prop) : Prop where
  linked : v.linked (dir name) = true
  there : none ∉ v.disk name
  only : v.Only name P

structure Lost (dir : ν → δ) (v v' : Volume ν δ α μ) : Prop where
  next : v'.next = v.next
  linked : ∀ d, v.linked d = true → v'.linked d = true
  content : ∀ i, (v.inode i).synced = true → (v'.inode i).content = (v.inode i).content
  attributes : ∀ i, (v.inode i).kept = true → (v'.inode i).attributes = (v.inode i).attributes
  synced : ∀ i, (v'.inode i).synced = true ∧ (v'.inode i).kept = true
  name : ∀ n, v'.now n ∈ v.disk n ∨ v'.now n = none ∧ v.linked (dir n) = false
  disk : ∀ n, v'.disk n = [v'.now n]

section
variable [DecidableEq ν] [DecidableEq δ]

def write (name : ν) (content : α) (attributes : μ) (v : Volume ν δ α μ) : Volume ν δ α μ :=
  { v with
    now := Function.update v.now name (some v.next)
    disk := Function.update v.disk name (some v.next :: v.disk name)
    inode := Function.update v.inode v.next ⟨content, attributes, false, false⟩
    next := v.next + 1 }

def setAttributes (name : ν) (attributes : μ) (v : Volume ν δ α μ) : Volume ν δ α μ :=
  match v.now name with
  | some i => { v with inode := Function.update v.inode i { v.inode i with attributes, kept := false } }
  | none => v

def syncFile (name : ν) (v : Volume ν δ α μ) : Volume ν δ α μ :=
  match v.now name with
  | some i => { v with inode := Function.update v.inode i { v.inode i with synced := true, kept := true } }
  | none => v

/-- What `a` has, `b` has instead. -/
def rename (a b : ν) (v : Volume ν δ α μ) : Volume ν δ α μ :=
  { v with
    now := Function.update (Function.update v.now b (v.now a)) a none
    disk := Function.update (Function.update v.disk b (v.now a :: v.disk b)) a (none :: v.disk a) }

def unlink (name : ν) (v : Volume ν δ α μ) : Volume ν δ α μ :=
  { v with
    now := Function.update v.now name none
    disk := Function.update v.disk name (none :: v.disk name) }

def syncDir (dir : ν → δ) (d : δ) (v : Volume ν δ α μ) : Volume ν δ α μ :=
  { v with disk := fun name => if dir name = d then [v.now name] else v.disk name }

def syncWay (dir : ν → δ) (d : δ) (v : Volume ν δ α μ) : Volume ν δ α μ :=
  { v.syncDir dir d with linked := Function.update v.linked d true }

end

variable {v v' : Volume ν δ α μ} {dir : ν → δ} {name other a b : ν} {P Q : α → Prop} {d : δ}

theorem Only.mono (h : v.Only name P) (hPQ : ∀ c, P c → Q c) : v.Only name Q :=
  fun i there => ⟨(h i there).1, hPQ _ (h i there).2⟩

theorem Solid.mono (h : v.Solid dir name P) (hPQ : ∀ c, P c → Q c) : v.Solid dir name Q :=
  ⟨h.linked, h.there, h.only.mono hPQ⟩

theorem present_of_file {f : Inode α μ} (found : v.file name = some f) : v.present name = true := by
  cases here : v.now name with
  | none => simp [Volume.file, here] at found
  | some i => simp [Volume.present, here]

/-- What a name has that can have nothing but `P`. -/
theorem Only.file (h : v.Only name P) (valid : v.Valid) {f : Inode α μ} (here : v.file name = some f) : P f.content := by
  unfold Volume.file at here
  cases at_ : v.now name with
  | none => simp [at_] at here
  | some i =>
    simp only [at_, Option.map_some, Option.some.injEq] at here
    exact here ▸ (h i (at_ ▸ valid.now name)).2

theorem Solid.file (h : v.Solid dir name P) (valid : v.Valid) : ∃ f, v.file name = some f ∧ P f.content := by
  cases at_ : v.now name with
  | none => exact absurd (at_ ▸ valid.now name) h.there
  | some i => exact ⟨v.inode i, by simp [Volume.file, at_], (h.only i (at_ ▸ valid.now name)).2⟩

/-! What a loss of power leaves. -/

theorem Lost.valid (lost : Lost dir v v') (valid : v.Valid) : v'.Valid := by
  refine ⟨fun n => by simp [lost.disk], fun n i there => ?_⟩
  rw [lost.next]
  simp only [lost.disk, List.mem_singleton] at there
  obtain before | ⟨none_, -⟩ := lost.name n
  · exact valid.bound n i (there ▸ before)
  · simp [none_] at there

theorem Lost.only (lost : Lost dir v v') (h : v.Only name P) : v'.Only name P := by
  intro i there
  simp only [lost.disk, List.mem_singleton] at there
  obtain before | ⟨none_, -⟩ := lost.name name
  · obtain ⟨synced, holds⟩ := h i (there ▸ before)
    exact ⟨(lost.synced i).1, (lost.content i synced) ▸ holds⟩
  · simp [none_] at there

theorem Lost.solid (lost : Lost dir v v') (h : v.Solid dir name P) : v'.Solid dir name P := by
  refine ⟨lost.linked _ h.linked, fun there => ?_, lost.only h.only⟩
  simp only [lost.disk, List.mem_singleton] at there
  obtain before | ⟨-, unlinked⟩ := lost.name name
  · exact h.there (there ▸ before)
  · simp [h.linked] at unlinked

/-! What an operation leaves of a name that it is not about. -/

structure Frame (v v' : Volume ν δ α μ) (name : ν) : Prop where
  now : v'.now name = v.now name
  disk : ∀ e ∈ v'.disk name, e ∈ v.disk name
  inode : ∀ i, some i ∈ v'.disk name → (v.inode i).Same (v'.inode i)
  linked : ∀ d, v.linked d = true → v'.linked d = true

theorem Frame.refl (v : Volume ν δ α μ) (name : ν) : Frame v v name :=
  ⟨rfl, fun _ there => there, fun _ _ => .refl _, fun _ there => there⟩

theorem Frame.trans {v'' : Volume ν δ α μ} (h : Frame v v' name) (h' : Frame v' v'' name) : Frame v v'' name :=
  ⟨h'.now.trans h.now, fun e there => h.disk e (h'.disk e there),
    fun i there => (h.inode i (h'.disk _ there)).trans (h'.inode i there),
    fun d linked => h'.linked d (h.linked d linked)⟩

theorem Frame.present (frame : Frame v v' name) : v'.present name = v.present name := by rw [Volume.present, frame.now]; rfl

theorem Only.frame (h : v.Only name P) (frame : Frame v v' name) : v'.Only name P := by
  intro i there
  have before := frame.disk _ there
  obtain ⟨synced, holds⟩ := h i before
  have same := frame.inode i there
  exact ⟨same.synced synced, same.content ▸ holds⟩

theorem Solid.frame (h : v.Solid dir name P) (frame : Frame v v' name) : v'.Solid dir name P :=
  ⟨frame.linked _ h.linked, fun there => h.there (frame.disk _ there), h.only.frame frame⟩

section
variable [DecidableEq ν] {content : α} {attributes : μ}

theorem write_valid (valid : v.Valid) : (v.write name content attributes).Valid := by
  refine ⟨fun n => ?_, fun n i there => ?_⟩
  · by_cases same : n = name
    · simp [write, same]
    · simpa [write, same] using valid.now n
  · show i < v.next + 1
    by_cases same : n = name
    · subst same
      simp only [write, Function.update_self, List.mem_cons, Option.some.injEq] at there
      obtain rfl | old := there
      · omega
      · exact Nat.lt_succ_of_lt (valid.bound n i old)
    · simp only [write, Function.update_of_ne same] at there
      exact Nat.lt_succ_of_lt (valid.bound n i there)

theorem write_frame (valid : v.Valid) (different : other ≠ name) : Frame v (v.write name content attributes) other := by
  refine ⟨by simp [write, different], fun e there => by simpa [write, different] using there, fun i there => ?_, fun _ h => h⟩
  have old := valid.bound other i (by simpa [write, different] using there)
  simpa [write, Nat.ne_of_lt old] using Inode.Same.refl _

theorem write_file : (v.write name content attributes).file name = some ⟨content, attributes, false, false⟩ := by
  simp [write, Volume.file]

theorem rename_valid (valid : v.Valid) : (v.rename a b).Valid := by
  refine ⟨fun n => ?_, fun n i there => ?_⟩
  · by_cases first : n = a
    · simp [rename, first]
    · by_cases second : n = b
      · subst second
        simp [rename, first]
      · simpa [rename, first, second] using valid.now n
  · show i < v.next
    by_cases first : n = a
    · subst first
      simp only [rename, Function.update_self, List.mem_cons, reduceCtorEq, false_or] at there
      exact valid.bound n i there
    · by_cases second : n = b
      · subst second
        simp only [rename, Function.update_of_ne first, Function.update_self, List.mem_cons] at there
        obtain new | old := there
        · exact valid.bound a i (new ▸ valid.now a)
        · exact valid.bound n i old
      · simp only [rename, Function.update_of_ne first, Function.update_of_ne second] at there
        exact valid.bound n i there

theorem rename_frame (first : other ≠ a) (second : other ≠ b) : Frame v (v.rename a b) other :=
  ⟨by simp [rename, first, second], fun e there => by simpa [rename, first, second] using there, fun _ _ => .refl _,
    fun _ h => h⟩

theorem rename_only (different : a ≠ b) (h : v.Only b P) {i : Nat} (here : v.now a = some i) (synced : (v.inode i).synced = true)
    (holds : P (v.inode i).content) : (v.rename a b).Only b P := by
  intro k there
  simp only [rename, Function.update_of_ne different.symm, Function.update_self, List.mem_cons, here, Option.some.injEq] at there
  obtain rfl | old := there
  · exact ⟨synced, holds⟩
  · exact h k old

theorem rename_solid (different : a ≠ b) (h : v.Solid dir b P) {i : Nat} (here : v.now a = some i)
    (synced : (v.inode i).synced = true) (holds : P (v.inode i).content) : (v.rename a b).Solid dir b P := by
  refine ⟨h.linked, fun there => ?_, rename_only different h.only here synced holds⟩
  simp only [rename, Function.update_of_ne different.symm, Function.update_self, List.mem_cons, here, reduceCtorEq,
    false_or] at there
  exact h.there there

theorem unlink_valid (valid : v.Valid) : (v.unlink name).Valid := by
  refine ⟨fun n => ?_, fun n i there => ?_⟩
  · by_cases same : n = name
    · simp [unlink, same]
    · simpa [unlink, same] using valid.now n
  · show i < v.next
    by_cases same : n = name
    · subst same
      simp only [unlink, Function.update_self, List.mem_cons, reduceCtorEq, false_or] at there
      exact valid.bound n i there
    · simp only [unlink, Function.update_of_ne same] at there
      exact valid.bound n i there

theorem unlink_frame (different : other ≠ name) : Frame v (v.unlink name) other :=
  ⟨by simp [unlink, different], fun e there => by simpa [unlink, different] using there, fun _ _ => .refl _, fun _ h => h⟩

end

section
variable {attributes : μ}

theorem syncFile_inode (i : Nat) : (v.inode i).Same ((v.syncFile name).inode i) := by
  unfold syncFile
  split
  · rename_i k _
    by_cases same : i = k
    · subst same
      exact ⟨by simp, by simp, by simp, by simp⟩
    · simpa [same] using Inode.Same.refl _
  · exact .refl _

theorem syncFile_rest (v : Volume ν δ α μ) (name : ν) : (v.syncFile name).now = v.now ∧
    (v.syncFile name).disk = v.disk ∧ (v.syncFile name).next = v.next ∧ (v.syncFile name).linked = v.linked := by
  unfold syncFile
  split <;> exact ⟨rfl, rfl, rfl, rfl⟩

theorem syncFile_valid (valid : v.Valid) : (v.syncFile name).Valid := by
  obtain ⟨now, disk, next, -⟩ := syncFile_rest v name
  exact ⟨fun n => by rw [now, disk]; exact valid.now n, fun n i => by rw [disk, next]; exact valid.bound n i⟩

theorem syncFile_frame : Frame v (v.syncFile name) other := by
  obtain ⟨now, disk, -, linked⟩ := syncFile_rest v name
  exact ⟨by rw [now], fun e there => by rwa [disk] at there, fun i _ => syncFile_inode i, fun d h => by rwa [linked]⟩

theorem syncFile_synced {i : Nat} (here : v.now name = some i) : ((v.syncFile name).inode i).synced = true := by
  simp [syncFile, here]

theorem setAttributes_rest (v : Volume ν δ α μ) (name : ν) (attributes : μ) :
    (v.setAttributes name attributes).now = v.now ∧ (v.setAttributes name attributes).disk = v.disk ∧
    (v.setAttributes name attributes).next = v.next ∧ (v.setAttributes name attributes).linked = v.linked := by
  unfold setAttributes
  split <;> exact ⟨rfl, rfl, rfl, rfl⟩

theorem setAttributes_valid (valid : v.Valid) : (v.setAttributes name attributes).Valid := by
  obtain ⟨now, disk, next, -⟩ := setAttributes_rest v name attributes
  exact ⟨fun n => by rw [now, disk]; exact valid.now n, fun n i => by rw [disk, next]; exact valid.bound n i⟩

theorem setAttributes_frame {i : Nat} (here : v.now name = some i) (apart : some i ∉ v.disk other) :
    Frame v (v.setAttributes name attributes) other := by
  obtain ⟨now, disk, -, linked⟩ := setAttributes_rest v name attributes
  refine ⟨by rw [now], fun e there => by rwa [disk] at there, fun k there => ?_, fun d h => by rwa [linked]⟩
  have different : k ≠ i := fun same => apart (same ▸ disk ▸ there)
  simpa [setAttributes, here, different] using Inode.Same.refl _

end

section
variable [DecidableEq δ]

theorem syncDir_valid (valid : v.Valid) : (v.syncDir dir d).Valid := by
  refine ⟨fun n => ?_, fun n i there => ?_⟩
  · show v.now n ∈ if dir n = d then [v.now n] else v.disk n
    split
    · exact List.mem_singleton_self _
    · exact valid.now n
  · refine valid.bound n i ?_
    simp only [syncDir] at there
    split at there
    · rw [List.mem_singleton.mp there]
      exact valid.now n
    · exact there

theorem syncDir_frame (valid : v.Valid) : Frame v (v.syncDir dir d) other := by
  refine ⟨rfl, fun e there => ?_, fun _ _ => .refl _, fun _ h => h⟩
  simp only [syncDir] at there
  split at there
  · rw [List.mem_singleton.mp there]
    exact valid.now other
  · exact there

theorem syncWay_valid (valid : v.Valid) : (v.syncWay dir d).Valid :=
  ⟨(syncDir_valid valid).now, fun n i there => (syncDir_valid valid).bound n i there⟩

theorem syncWay_frame (valid : v.Valid) : Frame v (v.syncWay dir d) other := by
  have frame : Frame v (v.syncDir dir d) other := syncDir_frame valid
  refine ⟨frame.now, frame.disk, frame.inode, fun e linked => ?_⟩
  by_cases same : e = d
  · simp [syncWay, same]
  · simpa [syncWay, same] using linked

theorem syncWay_solid (valid : v.Valid) (h : v.Only name P) (present : v.present name = true) (inside : dir name = d) :
    (v.syncWay dir d).Solid dir name P := by
  refine ⟨by simp [syncWay, inside], fun there => ?_, h.frame (syncWay_frame valid)⟩
  simp only [syncWay, syncDir, inside, if_true, List.mem_singleton] at there
  simp [Volume.present, ← there] at present

theorem syncWay_here {i : Nat} (here : v.now name = some i) (synced : (v.inode i).synced = true) (holds : P (v.inode i).content)
    (inside : dir name = d) : (v.syncWay dir d).Solid dir name P := by
  have only : (v.syncWay dir d).disk name = [some i] := by simp [syncWay, syncDir, inside, here]
  refine ⟨by simp [syncWay, inside], by simp [only], fun k there => ?_⟩
  obtain rfl : k = i := by simpa [only] using there
  exact ⟨synced, holds⟩

theorem syncDir_here {i : Nat} (here : v.now name = some i) (synced : (v.inode i).synced = true) (holds : P (v.inode i).content)
    (linked : v.linked d = true) (inside : dir name = d) : (v.syncDir dir d).Solid dir name P := by
  have only : (v.syncDir dir d).disk name = [some i] := by simp [syncDir, inside, here]
  refine ⟨inside ▸ linked, by simp [only], fun k there => ?_⟩
  obtain rfl : k = i := by simpa [only] using there
  exact ⟨synced, holds⟩

end

/-! What operations leave of the names that they are not about. -/

/-- Nothing but `names` has anything else than it had. -/
structure Apart (names : List ν) (v v' : Volume ν δ α μ) : Prop where
  valid : v'.Valid
  linked : ∀ d, v.linked d = true → v'.linked d = true
  frame : ∀ n ∉ names, Frame v v' n

namespace Apart
variable {names names' : List ν} {v'' : Volume ν δ α μ}

theorem refl (valid : v.Valid) : Apart names v v := ⟨valid, fun _ h => h, fun n _ => Frame.refl v n⟩

theorem trans (h : Apart names v v') (h' : Apart names v' v'') : Apart names v v'' :=
  ⟨h'.valid, fun d linked => h'.linked d (h.linked d linked), fun n out => (h.frame n out).trans (h'.frame n out)⟩

theorem mono (h : Apart names v v') (sub : ∀ n ∈ names, n ∈ names') : Apart names' v v' :=
  ⟨h.valid, h.linked, fun n out => h.frame n fun there => out (sub n there)⟩

section
variable [DecidableEq ν] {content : α} {attributes : μ}

theorem write (valid : v.Valid) : Apart [name] v (v.write name content attributes) :=
  ⟨write_valid valid, fun _ h => h, fun _ out => write_frame valid (by simpa using out)⟩

theorem rename (valid : v.Valid) : Apart [a, b] v (v.rename a b) :=
  ⟨rename_valid valid, fun _ h => h, fun n out => by
    simp only [List.mem_cons, List.not_mem_nil, or_false, not_or] at out
    exact rename_frame out.1 out.2⟩

theorem unlink (valid : v.Valid) : Apart [name] v (v.unlink name) :=
  ⟨unlink_valid valid, fun _ h => h, fun _ out => unlink_frame (by simpa using out)⟩

end

theorem syncFile (valid : v.Valid) : Apart [] v (v.syncFile name) :=
  ⟨syncFile_valid valid, fun d h => by rwa [(syncFile_rest v _).2.2.2], fun _ _ => syncFile_frame⟩

theorem syncDir [DecidableEq δ] (valid : v.Valid) : Apart [] v (v.syncDir dir d) :=
  ⟨syncDir_valid valid, fun _ h => h, fun _ _ => syncDir_frame valid⟩

end Apart

/-! The contents that the processes see. -/

def holds (v : Volume ν δ α μ) (name : ν) : Option α := (v.file name).map Inode.content

theorem Frame.holds (frame : Frame v v' name) (valid : v'.Valid) : v'.holds name = v.holds name := by
  unfold Volume.holds Volume.file
  rw [frame.now]
  cases here : v.now name with
  | none => rfl
  | some i =>
    have there : some i ∈ v'.disk name := by
      rw [← here, ← frame.now]
      exact valid.now name
    simpa using (frame.inode i there).content

theorem Apart.holds {names : List ν} (apart : Apart names v v') (out : name ∉ names) : v'.holds name = v.holds name :=
  (apart.frame name out).holds apart.valid

section
variable [DecidableEq ν] {content : α} {attributes : μ}

theorem write_holds : (v.write name content attributes).holds name = some content := by simp [holds, write_file]

theorem rename_holds (different : a ≠ b) : (v.rename a b).holds b = v.holds a := by
  simp [holds, file, rename, different.symm]

end

/-- A loss of power that spoils all contents that were not synced, and else leaves what the processes saw. -/
def crash (spoil : α) (v : Volume ν δ α μ) : Volume ν δ α μ :=
  { v with
    disk := fun n => [v.now n]
    inode := fun i => ⟨if (v.inode i).synced then (v.inode i).content else spoil, (v.inode i).attributes, true, true⟩ }

theorem crash_lost (valid : v.Valid) (spoil : α) : Lost dir v (v.crash spoil) :=
  ⟨rfl, fun _ h => h, fun i synced => by simp [crash, synced], fun _ _ => rfl, fun _ => ⟨rfl, rfl⟩,
    fun n => .inl (valid.now n), fun _ => rfl⟩

end Volume
end Disk
