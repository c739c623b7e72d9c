import Smartwheel.Profiles.Transaction
import Mathlib.Data.List.Basic

/-! What the files stand for: the contents that a recovery leaves. Every operation of a transaction and of its
recovery keeps them, but the one that records COMPLETE. -/
namespace Smartwheel.Profiles
open Effect.Program hiding pure bind

variable {β κ π : Type} {c : Store β κ π} {calm : Prop}

namespace Disk
variable {d d' : Disk β κ π} {id k : Nat} {name : Name} {raw : β} {j : Journal β κ π}

def journal (d : Disk β κ π) (id : Nat) : Option (Journal β κ π) := (d.backups[id]?).bind Backup.journal

def Committed (d : Disk β κ π) (id : Nat) : Prop := ∃ j, d.journal id = some j ∧ j.state = .complete

def settled (d : Disk β κ π) : (Name → β) × Option β :=
  match d.pointer with
  | none => (d.config, d.active)
  | some id =>
    match d.backups[id]? with
    | some ⟨original, some j⟩ =>
      if j.state = .prepared ∨ j.state = .rollingBack then (fun name => (original name).getD (d.config name), j.activeBefore)
      else (d.config, d.active)
    | _ => (d.config, d.active)

theorem backup_writeJournal :
    (d.writeJournal id j).backups[k]? = if id = k then (d.backups[k]?).map fun b => { b with journal := some j } else d.backups[k]? := by
  unfold writeJournal
  rw [List.getElem?_modify]
  split
  · rfl
  · cases d.backups[k]? <;> rfl

@[simp] theorem length_writeJournal : (d.writeJournal id j).backups.length = d.backups.length := by simp [writeJournal]

@[simp] theorem length_writeOriginal : (d.writeOriginal id name raw).backups.length = d.backups.length := by
  simp [writeOriginal]

end Disk

structure Tx (β κ : Type) where
  id : Nat
  before : Name → β
  after : Name → κ
  active : Option β

namespace Tx
variable {t : Tx β κ} {s s' : State} {d d' : Disk β κ π}

def journal (c : Store β κ π) (t : Tx β κ) (s : State) : Journal β κ π :=
  ⟨s, c.sha ∘ t.before, t.after, t.active, c.paths⟩

def Recorded (c : Store β κ π) (t : Tx β κ) (s : State) (d : Disk β κ π) : Prop :=
  d.backups[t.id]? = some ⟨fun name => some (t.before name), some (t.journal c s)⟩

def Mixed (c : Store β κ π) (t : Tx β κ) (d : Disk β κ π) : Prop :=
  ∀ name, c.sha (d.config name) = c.sha (t.before name) ∨ c.sha (d.config name) = t.after name

structure Open (c : Store β κ π) (t : Tx β κ) (d : Disk β κ π) : Prop where
  pointer : d.pointer = some t.id
  recorded : t.Recorded c .prepared d ∨ t.Recorded c .rollingBack d
  mixed : t.Mixed c d

structure Ended (c : Store β κ π) (t : Tx β κ) (d : Disk β κ π) : Prop where
  pointer : d.pointer = some t.id
  recorded : (t.Recorded c .complete d ∧ ∀ name, c.sha (d.config name) = t.after name) ∨
    (t.Recorded c .rolledBack d ∧ ∀ name, c.sha (d.config name) = c.sha (t.before name))

theorem Open.settled (h : t.Open c d) : d.settled = (t.before, t.active) := by
  unfold Disk.settled
  rw [h.pointer]
  obtain recorded | recorded := h.recorded <;> unfold Recorded at recorded <;> simp [recorded, journal]

theorem Ended.settled (h : t.Ended c d) : d.settled = (d.config, d.active) := by
  unfold Disk.settled
  rw [h.pointer]
  obtain ⟨recorded, -⟩ | ⟨recorded, -⟩ := h.recorded <;> unfold Recorded at recorded <;> simp [recorded, journal]

theorem Recorded.committed_iff (h : t.Recorded c s d) : d.Committed t.id ↔ s = .complete := by
  unfold Recorded at h
  simp [Disk.Committed, Disk.journal, h, journal]

theorem Recorded.writeJournal (h : t.Recorded c s d) (s' : State) :
    t.Recorded c s' (d.writeJournal t.id (t.journal c s')) := by
  unfold Recorded at *
  simp [Disk.backup_writeJournal, h]

theorem Recorded.committed_writeJournal (h : t.Recorded c s d) (s' : State) (k : Nat) :
    (d.writeJournal t.id (t.journal c s')).Committed k ↔ if k = t.id then s' = .complete else d.Committed k := by
  split
  · rename_i own
    subst own
    exact (h.writeJournal s').committed_iff
  · rename_i other
    simp [Disk.Committed, Disk.journal, Disk.backup_writeJournal, Ne.symm other]

end Tx

def Consistent (c : Store β κ π) (d : Disk β κ π) : Prop :=
  d.pointer = none ∨ (∃ t : Tx β κ, t.Open c d) ∨ ∃ t : Tx β κ, t.Ended c d

/-- The disk stands for `v`, has `n` directories, and the transactions of `P` have been committed. -/
structure Holds (c : Store β κ π) (v : (Name → β) × Option β) (n : Nat) (P : Nat → Prop) (d : Disk β κ π) : Prop where
  consistent : Consistent c d
  settled : d.settled = v
  length : d.backups.length = n
  committed : ∀ id, d.Committed id ↔ P id

namespace Tx
variable {t : Tx β κ} {s : State} {d : Disk β κ π} {v : (Name → β) × Option β} {n : Nat} {P : Nat → Prop}

structure Rolls (c : Store β κ π) (t : Tx β κ) (n : Nat) (P : Nat → Prop) (d : Disk β κ π) : Prop where
  is_open : t.Open c d
  length : d.backups.length = n
  committed : ∀ id, d.Committed id ↔ P id

theorem Rolls.holds (h : t.Rolls c n P d) : Holds c (t.before, t.active) n P d :=
  ⟨.inr (.inl ⟨t, h.is_open⟩), h.is_open.settled, h.length, h.committed⟩

theorem Rolls.recorded (h : t.Rolls c n P d) : ∃ s, t.Recorded c s d ∧ s ≠ .complete := by
  obtain recorded | recorded := h.is_open.recorded
  · exact ⟨_, recorded, nofun⟩
  · exact ⟨_, recorded, nofun⟩

theorem Rolls.not_committed (h : t.Rolls c n P d) : ¬P t.id := by
  obtain ⟨s, recorded, incomplete⟩ := h.recorded
  rw [← h.committed, recorded.committed_iff]
  exact incomplete

theorem Rolls.write (h : t.Rolls c n P d) {name : Name} {raw : β}
    (known : c.sha raw = c.sha (t.before name) ∨ c.sha raw = t.after name) : t.Rolls c n P (d.write name raw) := by
  refine ⟨⟨h.is_open.pointer, h.is_open.recorded, fun other => ?_⟩, h.length, h.committed⟩
  by_cases same : other = name
  · subst same
    simpa [Disk.write] using known
  · simpa [Disk.write, same] using h.is_open.mixed other

theorem Rolls.active (h : t.Rolls c n P d) (active : Option β) : t.Rolls c n P { d with active } :=
  ⟨⟨h.is_open.pointer, h.is_open.recorded, h.is_open.mixed⟩, h.length, h.committed⟩

theorem Rolls.rollingBack (h : t.Rolls c n P d) : t.Rolls c n P (d.writeJournal t.id (t.journal c .rollingBack)) := by
  obtain ⟨s, recorded, -⟩ := h.recorded
  refine ⟨⟨h.is_open.pointer, .inr (recorded.writeJournal _), h.is_open.mixed⟩, by simp [h.length], fun k => ?_⟩
  rw [recorded.committed_writeJournal]
  split
  · rename_i own
    simp [own, h.not_committed]
  · exact h.committed k

theorem Rolls.rolledBack (h : t.Rolls c n P d) (config : d.config = t.before) (active : d.active = t.active) :
    t.Ended c (d.writeJournal t.id (t.journal c .rolledBack)) ∧
      Holds c (t.before, t.active) n P (d.writeJournal t.id (t.journal c .rolledBack)) := by
  obtain ⟨s, recorded, -⟩ := h.recorded
  have ended : t.Ended c (d.writeJournal t.id (t.journal c .rolledBack)) :=
    ⟨h.is_open.pointer, .inr ⟨recorded.writeJournal _, fun name => by rw [← config]; rfl⟩⟩
  refine ⟨ended, .inr (.inr ⟨t, ended⟩), ended.settled.trans (Prod.ext config active), by simp [h.length], fun k => ?_⟩
  rw [recorded.committed_writeJournal]
  split
  · rename_i own
    simp [own, h.not_committed]
  · exact h.committed k

theorem Ended.forget (ended : t.Ended c d) (h : Holds c v n P d) : Holds c v n P { d with pointer := none } :=
  ⟨.inl rfl, ended.settled.symm.trans h.settled, h.length, h.committed⟩

end Tx

variable {t : Tx β κ} {d : Disk β κ π} {v : (Name → β) × Option β} {n : Nat} {P : Nat → Prop}

theorem unlinkPointer_runs (ended : t.Ended c d) (h : Holds c v n P d) :
    (unlinkPointer : Part β κ π Unit).Runs calm (Holds c v n P) (fun _ d' => Holds c v n P d' ∧ d'.pointer = none)
      (fun _ d' => Holds c v n P d' ∧ ¬calm) d := by
  have fails : ¬calm → Holds c v n P d ∧ ¬calm := fun rough => ⟨h, rough⟩
  refine Runs.view_bind ?_ fails h
  refine Runs.raiseIf_bind (fun none_ => ?_) fun _ => ?_
  · simp [ended.pointer] at none_
  · exact Runs.atomic ⟨ended.forget h, rfl⟩ fails h

variable [DecidableEq κ]

theorem originals_runs (h : t.Rolls c n P d) (s : State) (list : List Name) :
    (originals c t.id (t.journal c s) list).Runs calm (t.Rolls c n P)
      (fun found d' => d' = d ∧ found = list.map fun name => (name, t.before name)) (fun _ d' => t.Rolls c n P d' ∧ ¬calm) d := by
  obtain ⟨s', recorded, -⟩ := h.recorded
  have fails : ¬calm → t.Rolls c n P d ∧ ¬calm := fun rough => ⟨h, rough⟩
  induction list with
  | nil => exact Runs.pure ⟨rfl, rfl⟩
  | cons name rest ih =>
    refine Runs.view_bind ?_ fails h
    refine Runs.need_bind (a := t.before name) ?_ ?_
    · unfold Tx.Recorded at recorded
      simp [recorded]
    refine Runs.raiseIf_bind (fun differs => absurd rfl differs) fun _ => ?_
    refine Runs.view_bind ?_ fails h
    refine Runs.raiseIf_bind (fun differs => ?_) fun _ => ?_
    · obtain before | after := h.is_open.mixed name
      · exact absurd before differs.1
      · exact absurd after differs.2
    refine ih.bind ?_
    rintro _ _ ⟨rfl, rfl⟩
    exact Runs.pure ⟨rfl, rfl⟩

theorem restore_runs (h : t.Rolls c n P d) (s : State) :
    (restore c (t.journal c s) (files.map fun name => (name, t.before name))).Runs calm (t.Rolls c n P)
      (fun _ d' => t.Rolls c n P d' ∧ d'.config = t.before) (fun _ d' => t.Rolls c n P d' ∧ ¬calm) d := by
  let inv (rest : List (Name × β)) (d' : Disk β κ π) : Prop := t.Rolls c n P d' ∧ (∀ p ∈ rest, p.2 = t.before p.1) ∧
    ∀ name, name ∉ rest.map Prod.fst → d'.config name = t.before name
  have start : inv (files.map fun name => (name, t.before name)) d := by
    refine ⟨h, fun p inside => ?_, fun name outside => ?_⟩
    · obtain ⟨name, -, rfl⟩ := List.mem_map.mp inside
      rfl
    · exact absurd (mem_files name) (by simpa using outside)
  have loop : (restore c (t.journal c s) (files.map fun name => (name, t.before name))).Runs calm (t.Rolls c n P)
      (fun _ => inv []) (fun _ d' => t.Rolls c n P d' ∧ ¬calm) d := by
    refine Runs.each start ?_
    rintro ⟨name, raw⟩ rest d' ⟨rolls, known, done⟩
    obtain rfl : raw = t.before name := known (name, raw) (by simp)
    have fails : ¬calm → t.Rolls c n P d' ∧ ¬calm := fun rough => ⟨rolls, rough⟩
    refine Runs.view_bind ?_ fails rolls
    refine Runs.raiseIf_bind (fun differs => ?_) fun _ => ?_
    · obtain before | after := rolls.is_open.mixed name
      · exact absurd before differs.1
      · exact absurd after differs.2
    refine Runs.atomic ⟨rolls.write (.inl rfl), fun p inside => known p (by simp [inside]), fun other outside => ?_⟩
      fails rolls
    by_cases same : other = name
    · simp [Disk.write, same]
    · simpa [Disk.write, same] using done other (by simpa [same] using outside)
  exact loop.weaken (fun _ h => h) (fun _ d' last => ⟨last.1, funext fun name => last.2.2 name (by simp)⟩) fun _ _ h => h

theorem forget_runs (ended : t.Ended c d) (h : Holds c v n P d) {expected : Name → κ}
    (same : ∀ name, c.sha (d.config name) = expected name) :
    (forget c expected).Runs calm (Holds c v n P) (fun _ d' => Holds c v n P d' ∧ d'.pointer = none)
      (fun _ d' => Holds c v n P d' ∧ ¬calm) d := by
  refine Runs.view_bind ?_ (fun rough => ⟨h, rough⟩) h
  refine Runs.raiseIf_bind (fun differs => ?_) fun _ => unlinkPointer_runs ended h
  obtain ⟨name, -, differs⟩ := differs
  exact absurd (same name) differs

variable [DecidableEq π]

theorem rollback_runs (h : t.Rolls c n P d) (s : State) :
    (rollback c t.id (t.journal c s)).Runs calm (Holds c (t.before, t.active) n P)
      (fun _ d' => Holds c (t.before, t.active) n P d' ∧ d'.pointer = none)
      (fun _ d' => Holds c (t.before, t.active) n P d' ∧ ¬calm) d := by
  refine Runs.raiseIf_bind (fun differs => absurd rfl differs) fun _ => ?_
  refine ((originals_runs h s files).weaken (fun _ h => h.holds) (fun _ _ h => h) fun _ _ h => ⟨h.1.holds, h.2⟩).bind ?_
  rintro _ _ ⟨rfl, rfl⟩
  refine Runs.handle (G := fun _ d' => Holds c (t.before, t.active) n P d' ∧ ¬calm) ?_ fun _ _ last => Runs.raise last
  refine Runs.atomic_bind ?_ (fun rough => ⟨h.holds, rough⟩) h.holds
  have rolling := h.rollingBack
  refine ((restore_runs rolling s).weaken (fun _ h => h.holds) (fun _ _ h => h) fun _ _ h => ⟨h.1.holds, h.2⟩).bind ?_
  rintro - d' ⟨rolling, config⟩
  refine Runs.atomic_bind ?_ (fun rough => ⟨rolling.holds, rough⟩) rolling.holds
  have active := rolling.active t.active
  refine Runs.atomic_bind ?_ (fun rough => ⟨active.holds, rough⟩) active.holds
  obtain ⟨ended, holds⟩ := active.rolledBack config rfl
  exact unlinkPointer_runs ended holds

theorem recover_runs (h : Holds c v n P d) :
    (recover c).Runs calm (Holds c v n P) (fun _ d' => Holds c v n P d' ∧ d'.pointer = none)
      (fun _ d' => Holds c v n P d' ∧ ¬calm) d := by
  have fails : ¬calm → Holds c v n P d ∧ ¬calm := fun rough => ⟨h, rough⟩
  refine Runs.view_bind ?_ fails h
  -- the journal is read and accepted
  have read {t : Tx β κ} {s : State} (recorded : t.Recorded c s d) :
      ((d.backups[t.id]?).bind Backup.journal) = some (t.journal c s) := by
    unfold Tx.Recorded at recorded
    simp [recorded]
  obtain none_ | ⟨t, is_open⟩ | ⟨t, ended⟩ := h.consistent
  · rw [none_]
    exact Runs.pure ⟨h, none_⟩
  · have rolls : t.Rolls c n P d := ⟨is_open, h.length, h.committed⟩
    have same : v = (t.before, t.active) := h.settled.symm.trans is_open.settled
    subst same
    rw [is_open.pointer]
    refine Runs.view_bind ?_ fails h
    obtain recorded | recorded := is_open.recorded
    · refine Runs.need_bind (read recorded) ?_
      exact Runs.raiseIf_bind (fun differs => absurd rfl differs) fun _ => rollback_runs rolls _
    · refine Runs.need_bind (read recorded) ?_
      exact Runs.raiseIf_bind (fun differs => absurd rfl differs) fun _ => rollback_runs rolls _
  · rw [ended.pointer]
    refine Runs.view_bind ?_ fails h
    obtain ⟨recorded, same⟩ | ⟨recorded, same⟩ := ended.recorded
    · refine Runs.need_bind (read recorded) ?_
      exact Runs.raiseIf_bind (fun differs => absurd rfl differs) fun _ => forget_runs ended h same
    · refine Runs.need_bind (read recorded) ?_
      exact Runs.raiseIf_bind (fun differs => absurd rfl differs) fun _ => forget_runs ended h same

end Smartwheel.Profiles
