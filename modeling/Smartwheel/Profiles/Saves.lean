import Smartwheel.Profiles.Settled

/-! A switch of the profile changes what the disk stands for in one operation, where it records COMPLETE, whatever
fails and wherever it is killed. -/
namespace Smartwheel.Profiles
open Effect
open Effect.Program hiding pure bind

variable {β κ π : Type} {c : Store β κ π} {calm : Prop}
  {t : Tx β κ} {d : Disk β κ π} {v : (Name → β) × Option β} {n : Nat} {P : Nat → Prop} {r : Request β}

theorem committed_makeBackup (d : Disk β κ π) (id : Nat) : d.makeBackup.Committed id ↔ d.Committed id := by
  unfold Disk.Committed Disk.journal Disk.makeBackup
  rw [List.getElem?_append]
  split
  · rfl
  · rename_i past
    have none_ : d.backups[id]? = none := List.getElem?_eq_none (by omega)
    rw [none_]
    cases found : [(⟨fun _ => none, none⟩ : Backup β κ π)][id - d.backups.length]? with
    | none => simp
    | some b =>
      have new := List.mem_of_getElem? found
      simp only [List.mem_singleton] at new
      simp [new]

/-- A directory whose originals are written, but those of `rest`. -/
structure Fills (c : Store β κ π) (v : (Name → β) × Option β) (n : Nat) (P : Nat → Prop) (rest : List Name)
    (d : Disk β κ π) : Prop where
  holds : Holds c v (n + 1) P d
  pointer : d.pointer = none
  config : d.config = v.1
  active : d.active = v.2
  original : ∃ original : Name → Option β, d.backups[n]? = some ⟨original, none⟩ ∧
    ∀ name, name ∉ rest → original name = some (v.1 name)

theorem Fills.start (h : Holds c v n P d) (pointer : d.pointer = none) : Fills c v n P files d.makeBackup := by
  have settled : (d.config, d.active) = v := by
    rw [← h.settled]
    simp [Disk.settled, pointer]
  refine ⟨⟨.inl pointer, ?_, ?_, fun k => ?_⟩, pointer, congrArg Prod.fst settled, congrArg Prod.snd settled, fun _ => none, ?_,
    fun name outside => absurd (mem_files name) outside⟩
  · show Disk.settled _ = v
    simpa [Disk.settled, Disk.makeBackup, pointer] using settled
  · simp [Disk.makeBackup, h.length]
  · rw [committed_makeBackup, h.committed]
  · simp [Disk.makeBackup, ← h.length]

theorem Fills.write {name : Name} {rest : List Name} (h : Fills c v n P (name :: rest) d) :
    Fills c v n P rest (d.writeOriginal n name (v.1 name)) := by
  obtain ⟨original, found, known⟩ := h.original
  have look (k : Nat) : (d.writeOriginal n name (v.1 name)).backups[k]? =
      if n = k then some ⟨Function.update original name (some (v.1 name)), none⟩ else d.backups[k]? := by
    unfold Disk.writeOriginal
    rw [List.getElem?_modify]
    split
    · rename_i own
      subst own
      rw [found]
      rfl
    · cases d.backups[k]? <;> rfl
  refine ⟨⟨.inl h.pointer, ?_, ?_, fun k => ?_⟩, h.pointer, h.config, h.active, _, by rw [look, if_pos rfl],
    fun other outside => ?_⟩
  · rw [← h.holds.settled]
    simp [Disk.settled, Disk.writeOriginal, h.pointer]
  · simp [h.holds.length]
  · rw [← h.holds.committed]
    unfold Disk.Committed Disk.journal
    rw [look]
    split
    · rename_i own
      subst own
      simp [found]
    · rfl
  · by_cases same : other = name
    · simp [same]
    · simpa [same] using known other (by simpa [same] using outside)

/-- The transaction of a switch from `v` to `encoded`. -/
def switchTx (c : Store β κ π) (v : (Name → β) × Option β) (n : Nat) (encoded : Name → β) : Tx β κ :=
  ⟨n, v.1, c.sha ∘ encoded, v.2⟩

theorem Fills.record (h : Fills c v n P [] d) (encoded : Name → β) (fresh : ¬P n) :
    (switchTx c v n encoded).Recorded c .prepared (d.writeJournal n ((switchTx c v n encoded).journal c .prepared)) ∧
      Holds c v (n + 1) P (d.writeJournal n ((switchTx c v n encoded).journal c .prepared)) := by
  obtain ⟨original, found, known⟩ := h.original
  have all : original = fun name => some (v.1 name) := funext fun name => known name (by simp)
  have recorded : (switchTx c v n encoded).Recorded c .prepared
      (d.writeJournal n ((switchTx c v n encoded).journal c .prepared)) := by
    unfold Tx.Recorded
    simp [Disk.backup_writeJournal, switchTx, found, all]
  refine ⟨recorded, .inl h.pointer, ?_, by simp [h.holds.length], fun k => ?_⟩
  · rw [← h.holds.settled]
    simp [Disk.settled, Disk.writeJournal, h.pointer]
  · by_cases own : n = k
    · subst own
      rw [show (d.writeJournal n _).Committed n ↔ _ from recorded.committed_iff]
      simp [fresh]
    · rw [← h.holds.committed]
      simp [Disk.Committed, Disk.journal, Disk.backup_writeJournal, own]

theorem prepare_runs (encoded : Name → β) (h : Holds c v n P d) (pointer : d.pointer = none) (fresh : ¬P n) :
    (prepare n v.1 ((switchTx c v n encoded).journal c .prepared)).Runs calm (fun d' => ∃ m, Holds c v m P d')
      (fun _ d' => (switchTx c v n encoded).Rolls c (n + 1) P d' ∧ d'.config = v.1)
      (fun _ d' => (∃ m, Holds c v m P d') ∧ ¬calm) d := by
  refine Runs.atomic_bind ?_ (fun rough => ⟨⟨n, h⟩, rough⟩) ⟨n, h⟩
  refine (Runs.each (K := fun rest d' => Fills c v n P rest d') (Fills.start h pointer) fun name rest d' fills => ?_).bind ?_
  · exact Runs.atomic fills.write (fun rough => ⟨⟨_, fills.holds⟩, rough⟩) ⟨_, fills.holds⟩
  rintro - d' fills
  refine Runs.atomic_bind ?_ (fun rough => ⟨⟨_, fills.holds⟩, rough⟩) ⟨_, fills.holds⟩
  obtain ⟨recorded, holds⟩ := fills.record encoded fresh
  refine Runs.atomic ⟨⟨⟨rfl, .inl recorded, fun name => .inl ?_⟩, holds.length, holds.committed⟩, fills.config⟩
    (fun rough => ⟨⟨_, holds⟩, rough⟩) ⟨_, holds⟩
  show c.sha (d'.config name) = _
  rw [fills.config]
  rfl

theorem Consistent.holds (h : Consistent c d) : Holds c d.settled d.backups.length d.Committed d := ⟨h, rfl, rfl, fun _ => Iff.rfl⟩

theorem not_committed_length (d : Disk β κ π) : ¬d.Committed d.backups.length := by
  rintro ⟨j, found, -⟩
  simp [Disk.journal] at found

def Switched (c : Store β κ π) (n : Nat) (P : Nat → Prop) (r : Request β) (encoded : Name → β)
    (d : Disk β κ π) : Prop :=
  Holds c (encoded, some (r.marker encoded)) (n + 1) (fun id => P id ∨ id = n) d

theorem Tx.Rolls.complete {encoded : Name → β} (h : (switchTx c v n encoded).Rolls c (n + 1) P d)
    (config : d.config = encoded) (active : d.active = some (r.marker encoded)) :
    (switchTx c v n encoded).Ended c (d.writeJournal n ((switchTx c v n encoded).journal c .complete)) ∧
      Switched c n P r encoded (d.writeJournal n ((switchTx c v n encoded).journal c .complete)) := by
  obtain ⟨s, recorded, -⟩ := h.recorded
  have ended : (switchTx c v n encoded).Ended c (d.writeJournal n ((switchTx c v n encoded).journal c .complete)) :=
    ⟨h.is_open.pointer, .inl ⟨recorded.writeJournal _, fun name => by rw [← config]; rfl⟩⟩
  refine ⟨ended, .inr (.inr ⟨_, ended⟩), ended.settled.trans (Prod.ext config active), by simp [h.length], fun k => ?_⟩
  rw [show (d.writeJournal n _).Committed k ↔ _ from recorded.committed_writeJournal .complete k]
  by_cases own : k = n
  · simp [own, switchTx]
  · simp [own, switchTx, h.committed]

theorem recover_any [DecidableEq κ] [DecidableEq π] (h : Holds c v n P d) (fates : List Fate) : Holds c v n P (recover c ⟨d, fates⟩).2.state :=
  (recover_runs h).always (fun _ h => h) (fun _ _ h => h.1) (fun _ _ h => h.1) fates

theorem recoveries_hold [DecidableEq κ] [DecidableEq π] (h : Holds c v n P d) (recoveries : List (List Fate)) :
    Holds c v n P (recoveries.foldl (fun d fates => (recover c ⟨d, fates⟩).2.state) d) := by
  induction recoveries generalizing d with
  | nil => exact h
  | cons fates recoveries ih => exact ih (recover_any h fates)

variable [DecidableEq β]

theorem requireBytes_runs {expected : Name → β} (h : t.Rolls c n P d) (config : d.config = expected) :
    (requireBytes expected : Part β κ π Unit).Runs calm (t.Rolls c n P) (fun _ d' => d' = d)
      (fun _ d' => t.Rolls c n P d' ∧ ¬calm) d := by
  refine Runs.view_bind ?_ (fun rough => ⟨h, rough⟩) h
  refine Runs.raiseIf (fun differs => ?_) fun _ => rfl
  obtain ⟨name, -, differs⟩ := differs
  exact absurd (congrFun config name) differs

/-- The files as they are when those of `list` are replaced. -/
theorem replaceFiles_runs {encoded expected : Name → β} {list : List Name} (after : t.after = c.sha ∘ encoded)
    (h : t.Rolls c n P d) (config : d.config = expected) :
    (replaceFiles encoded list expected : Part β κ π Unit).Runs calm (t.Rolls c n P)
      (fun _ d' => t.Rolls c n P d' ∧ ∀ name, d'.config name = if name ∈ list then encoded name else expected name)
      (fun _ d' => t.Rolls c n P d' ∧ ¬calm) d := by
  induction list generalizing d expected with
  | nil =>
    refine (requireBytes_runs h config).weaken (fun _ h => h) ?_ fun _ _ h => h
    rintro - _ rfl
    exact ⟨h, fun name => by simp [config]⟩
  | cons name rest ih =>
    refine (requireBytes_runs h config).bind ?_
    rintro - _ rfl
    have known : c.sha (encoded name) = t.after name := by rw [after]; rfl
    refine Runs.atomic_bind ?_ (fun rough => ⟨h, rough⟩) h
    refine (ih (h.write (.inr known)) (by simp [Disk.write, config])).weaken (fun _ h => h) ?_ fun _ _ h => h
    rintro - d' ⟨rolls, all⟩
    refine ⟨rolls, fun other => ?_⟩
    rw [all]
    by_cases later : other ∈ rest
    · simp [later]
    · by_cases same : other = name <;> simp [later, same]

theorem switch_runs {encoded : Name → β} {j : Journal β κ π} (is_j : j = (switchTx c v n encoded).journal c .prepared)
    (h : (switchTx c v n encoded).Rolls c (n + 1) P d) (config : d.config = v.1) :
    (switch r n v.1 encoded j).Runs calm (fun d' => Holds c v (n + 1) P d' ∨ Switched c n P r encoded d')
      (fun _ d' => (switchTx c v n encoded).Ended c d' ∧ Switched c n P r encoded d')
      (fun _ d' => (switchTx c v n encoded).Rolls c (n + 1) P d' ∧ ¬calm) d := by
  subst is_j
  refine ((replaceFiles_runs rfl h config).weaken (fun _ h => .inl h.holds) (fun _ _ h => h) fun _ _ h => h).bind ?_
  rintro - d' ⟨rolls, all⟩
  have replaced : d'.config = encoded := funext fun name => by rw [all, if_pos (mem_files name)]
  refine Runs.view_bind ?_ (fun rough => ⟨rolls, rough⟩) (.inl rolls.holds)
  refine Runs.atomic_bind ?_ (fun rough => ⟨rolls, rough⟩) (.inl rolls.holds)
  have active := rolls.active (some (r.marker d'.config))
  exact Runs.atomic (active.complete replaced (by rw [replaced])) (fun rough => ⟨active, rough⟩) (.inl active.holds)

variable [DecidableEq κ] [DecidableEq π]

theorem apply_runs (h : Holds c v n P d) (fresh : ¬P n) (r : Request β) :
    (apply c r).Runs calm
      (fun d' => (∃ m, Holds c v m P d') ∨ ∃ encoded, r.candidate v.1 = .ok encoded ∧ Switched c n P r encoded d')
      (fun _ d' => ∃ encoded, r.candidate v.1 = .ok encoded ∧ Switched c n P r encoded d')
      (fun _ d' => ((∃ m, Holds c v m P d') ∨ ∃ encoded, r.candidate v.1 = .ok encoded ∧ Switched c n P r encoded d') ∧
        (calm → ∃ message, r.candidate v.1 = .error message)) d := by
  unfold apply
  refine ((recover_runs h).weaken (fun _ h => .inl ⟨n, h⟩) (fun _ _ h => h) fun _ _ h =>
    ⟨.inl ⟨n, h.1⟩, fun quiet => absurd quiet h.2⟩).bind ?_
  rintro - d₁ ⟨h, pointer⟩
  have settled : (d₁.config, d₁.active) = v := by
    rw [← h.settled]
    simp [Disk.settled, pointer]
  have raw : d₁.config = v.1 := congrArg Prod.fst settled
  have marker : d₁.active = v.2 := congrArg Prod.snd settled
  have fails {m : Nat} {d' : Disk β κ π} (h : Holds c v m P d') (rough : ¬calm) :
      ((∃ m, Holds c v m P d') ∨ ∃ encoded, r.candidate v.1 = .ok encoded ∧ Switched c n P r encoded d') ∧
        (calm → ∃ message, r.candidate v.1 = .error message) := ⟨.inl ⟨m, h⟩, fun quiet => absurd quiet rough⟩
  refine Runs.view_bind ?_ (fails h) (.inl ⟨n, h⟩)
  rw [raw]
  cases made : r.candidate v.1 with
  | error message => exact Runs.raise ⟨.inl ⟨n, h⟩, fun _ => ⟨message, rfl⟩⟩
  | ok encoded =>
    rw [made] at fails
    refine Runs.view_bind ?_ (fails h) (.inl ⟨n, h⟩)
    refine Runs.view_bind ?_ (fails h) (.inl ⟨n, h⟩)
    rw [marker, h.length]
    refine ((prepare_runs encoded h pointer fresh).weaken (fun _ h => .inl h) (fun _ _ h => h) fun _ _ h =>
      fails h.1.choose_spec h.2).bind ?_
    rintro - d₂ ⟨rolls, config⟩
    refine (Runs.handle ((switch_runs rfl rolls config).weaken (fun _ h => h.imp (fun h => ⟨_, h⟩) fun h => ⟨_, rfl, h⟩)
      (fun _ _ h => h) fun _ _ h => h) ?_).bind ?_
    · rintro e d₃ ⟨rolls, rough⟩
      refine ((rollback_runs rolls .prepared).weaken (fun _ h => .inl ⟨_, h⟩) (fun _ _ h => h) fun _ _ h =>
        fails h.1 h.2).bind ?_
      rintro - d₄ ⟨holds, -⟩
      exact Runs.raise (fails holds rough)
    rintro - d₃ ⟨ended, switched⟩
    refine Runs.handle (G := fun _ d' => Switched c n P r encoded d' ∧ ¬calm) ?_ ?_
    · refine ((unlinkPointer_runs ended switched).weaken (fun _ h => .inr ⟨_, rfl, h⟩) (fun _ _ h => h) fun _ _ h => h).bind ?_
      rintro - d₄ ⟨holds, -⟩
      exact Runs.pure ⟨_, rfl, holds⟩
    · rintro e d₄ ⟨switched, rough⟩
      split
      · exact Runs.pure ⟨_, rfl, switched⟩
      · exact Runs.raise ⟨.inr ⟨_, rfl, switched⟩, fun quiet => absurd quiet rough⟩

inductive Operation (β : Type) where
  | apply (r : Request β) (fates : List Fate)
  | recover (fates : List Fate)

def Operation.run (c : Store β κ π) (d : Disk β κ π) : Operation β → Disk β κ π
  | .apply r fates => (Profiles.apply c r ⟨d, fates⟩).2.state
  | .recover fates => (Profiles.recover c ⟨d, fates⟩).2.state

def Disk.untouched (config : Name → β) (active : Option β) : Disk β κ π := ⟨config, active, none, []⟩

theorem apply_any (h : Holds c v n P d) (fresh : ¬P n) (r : Request β) (fates : List Fate) :
    (∃ m, Holds c v m P (apply c r ⟨d, fates⟩).2.state) ∨
      ∃ encoded, r.candidate v.1 = .ok encoded ∧ Switched c n P r encoded (apply c r ⟨d, fates⟩).2.state :=
  (apply_runs h fresh r).always (fun _ h => h) (fun _ _ h => .inr h) (fun _ _ h => h.1) fates

theorem Operation.consistent (h : Consistent c d) (o : Operation β) : Consistent c (o.run c d) := by
  cases o with
  | apply r fates =>
    obtain ⟨m, holds⟩ | ⟨encoded, -, switched⟩ := apply_any h.holds (not_committed_length d) r fates
    · exact holds.consistent
    · exact switched.consistent
  | recover fates => exact (recover_any h.holds fates).consistent

theorem past_consistent (h : Consistent c d) (past : List (Operation β)) : Consistent c (past.foldl (Operation.run c) d) := by
  induction past generalizing d with
  | nil => exact h
  | cons o past ih => exact ih (o.consistent h)

/-- After whatever has happened, an `apply` that ends anywhere, and any recoveries that end anywhere, a recovery that
comes to its end removes the pointer, and leaves the files and active.json as the profile has them if the transaction
has recorded COMPLETE, and else as they were. -/
theorem profile_switch_atomic (c : Store β κ π) (config : Name → β) (active : Option β) (past : List (Operation β))
    (r : Request β) (fates : List Fate) (recoveries : List (List Fate)) :
    let before := past.foldl (Operation.run c) (Disk.untouched config active)
    let ended := (apply c r ⟨before, fates⟩).2.state
    let restarted := recoveries.foldl (fun d fates => (recover c ⟨d, fates⟩).2.state) ended
    let last := recover c ⟨restarted, []⟩
    last.1 = .value () ∧ last.2.state.pointer = none ∧
      (restarted.Committed before.backups.length ↔ ended.Committed before.backups.length) ∧
      (ended.Committed before.backups.length → ∃ encoded, r.candidate before.settled.1 = .ok encoded ∧
        last.2.state.config = encoded ∧ last.2.state.active = some (r.marker encoded)) ∧
      (¬ended.Committed before.backups.length →
        last.2.state.config = before.settled.1 ∧ last.2.state.active = before.settled.2) := by
  intro before ended restarted last
  have kept : Consistent c before := past_consistent (.inl rfl) past
  -- the last recovery, from what the disk stands for
  have final {v : (Name → β) × Option β} {n : Nat} {P : Nat → Prop} (h : Holds c v n P ended) :
      last.1 = .value () ∧ last.2.state.pointer = none ∧ (∀ id, restarted.Committed id ↔ P id) ∧
        last.2.state.config = v.1 ∧ last.2.state.active = v.2 := by
    have holds : Holds c v n P restarted := recoveries_hold h recoveries
    obtain ⟨⟨⟩, value, holds', pointer⟩ | ⟨-, -, -, rough⟩ := Runs.calmly (recover_runs holds)
    · have settled : (last.2.state.config, last.2.state.active) = v := by
        rw [← holds'.settled]
        simp [Disk.settled, last, pointer]
      exact ⟨value, pointer, holds.committed, congrArg Prod.fst settled, congrArg Prod.snd settled⟩
    · exact absurd trivial rough
  obtain ⟨m, holds⟩ | ⟨encoded, made, switched⟩ := apply_any kept.holds (not_committed_length before) r fates
  · obtain ⟨value, pointer, committed, config, active⟩ := final holds
    have not_ : ¬ended.Committed before.backups.length := fun h => not_committed_length before ((holds.committed _).mp h)
    refine ⟨value, pointer, ?_, fun h => absurd h not_, fun _ => ⟨config, active⟩⟩
    rw [committed, holds.committed]
  · obtain ⟨value, pointer, committed, config, active⟩ := final switched
    have yes : ended.Committed before.backups.length := (switched.committed _).mpr (.inr rfl)
    refine ⟨value, pointer, ?_, fun _ => ⟨encoded, made, config, active⟩, fun h => absurd yes h⟩
    rw [committed, switched.committed]

end Smartwheel.Profiles

/-! ### A committed transaction whose pointer is still there, and what becomes of it while parameters are saved: a save
does not know of it, and the next recovery compares the files with those of the transaction. -/
namespace Smartwheel.Profiles
open Effect
open Effect.Program hiding pure bind

variable {β κ π : Type} {c : Store β κ π} {d d' : Disk β κ π} {id : Nat} {j : Journal β κ π}

def Bound (c : Store β κ π) (d : Disk β κ π) : Prop := ∀ id j, d.journal id = some j → j.sourcePaths = c.paths

theorem Bound.backups (h : Bound c d) (same : d'.backups = d.backups) : Bound c d' := by
  unfold Bound Disk.journal at *
  rw [same]
  exact h

theorem Bound.writeJournal (h : Bound c d) (bound : j.sourcePaths = c.paths) (id : Nat) : Bound c (d.writeJournal id j) := by
  intro k j' found
  unfold Disk.journal at found
  rw [Disk.backup_writeJournal] at found
  split at found
  · cases there : d.backups[k]? with
    | none => simp [there] at found
    | some b =>
      simp only [there, Option.map_some, Option.bind_some, Option.some.injEq] at found
      exact found ▸ bound
  · exact h k j' found

theorem Bound.writeOriginal (h : Bound c d) (id : Nat) (name : Name) (raw : β) : Bound c (d.writeOriginal id name raw) := by
  intro k j found
  refine h k j ?_
  unfold Disk.journal Disk.writeOriginal at *
  rw [List.getElem?_modify] at found
  cases there : d.backups[k]? with
  | none => simp [there] at found
  | some b =>
    simp only [there, Option.map_eq_map, Option.map_some, Option.bind_some] at found ⊢
    split at found <;> exact found

theorem Bound.makeBackup (h : Bound c d) : Bound c d.makeBackup := by
  intro k j found
  unfold Disk.journal Disk.makeBackup at found
  rw [List.getElem?_append] at found
  split at found
  · exact h k j found
  · cases there : [(⟨fun _ => none, none⟩ : Backup β κ π)][k - d.backups.length]? with
    | none => simp [there] at found
    | some b =>
      have new := List.mem_of_getElem? there
      simp only [List.mem_singleton] at new
      simp [there, new] at found

theorem unlinkPointer_bound : (unlinkPointer : Part β κ π Unit).Keeps (Bound c) :=
  .bind .view fun _ => .bind .raiseIf fun _ => .atomic fun _ h => h.backups rfl

section
variable [DecidableEq β]

theorem replaceFiles_keeps {J : Disk β κ π → Prop} (write : ∀ d name raw, J d → J (d.write name raw)) (encoded : Name → β)
    (list : List Name) (expected : Name → β) : (replaceFiles encoded list expected : Part β κ π Unit).Keeps J := by
  have require (expected : Name → β) : (requireBytes expected : Part β κ π Unit).Keeps J := .bind .view fun _ => .raiseIf
  induction list generalizing expected with
  | nil => exact require expected
  | cons name rest ih => exact .bind (require expected) fun _ => .bind (.atomic fun d h => write d _ _ h) fun _ => ih _

theorem save_keeps {J : Disk β κ π → Prop} (write : ∀ d name raw, J d → J (d.write name raw)) (e : Edit β) :
    (save e : Part β κ π Unit).Keeps J := by
  refine .bind .view fun raw => ?_
  cases e.candidate raw with
  | error message => exact .raise _
  | ok encoded =>
    refine .bind (.atomic fun _ h => h) fun _ => .bind (.handle (replaceFiles_keeps write _ _ _) fun _ => ?_) fun _ => .atomic fun _ h => h
    refine .bind (.bind (.atomic fun _ h => h) fun _ => .bind (.each fun name => ?_) fun _ => .each fun name => ?_) fun _ => .raise _
    · exact .bind .view fun _ => .raiseIf
    · exact .atomic fun d h => write d _ _ h

theorem saves_rest (edits : List (Edit β × List Fate)) :
    let after := edits.foldl (fun d e => (save e.1 ⟨d, e.2⟩).2.state) d
    after.pointer = d.pointer ∧ after.backups = d.backups := by
  have kept (e : Edit β) (fates : List Fate) (d : Disk β κ π) : (save e ⟨d, fates⟩).2.state.pointer = d.pointer ∧
      (save e ⟨d, fates⟩).2.state.backups = d.backups :=
    (save_keeps (J := fun d' => d'.pointer = d.pointer ∧ d'.backups = d.backups) (fun _ _ _ h => h) e).always ⟨rfl, rfl⟩ fates
  induction edits generalizing d with
  | nil => exact ⟨rfl, rfl⟩
  | cons e edits ih =>
    have first := kept e.1 e.2 d
    have rest := ih (d := (save e.1 ⟨d, e.2⟩).2.state)
    exact ⟨rest.1.trans first.1, rest.2.trans first.2⟩

end

section
variable [DecidableEq κ]

theorem originals_bound (list : List Name) : (originals c id j list).Keeps (Bound c) := by
  induction list with
  | nil => exact .pure _
  | cons name rest ih =>
    exact .bind .view fun _ => .bind .need fun _ => .bind .raiseIf fun _ => .bind .view fun _ =>
      .bind .raiseIf fun _ => .bind ih fun _ => .pure _

theorem forget_bound (expected : Name → κ) : (forget c expected).Keeps (Bound c) :=
  .bind .view fun _ => .bind .raiseIf fun _ => unlinkPointer_bound

variable [DecidableEq π]

theorem rollback_bound : (rollback c id j).Keeps (Bound c) := by
  refine .raiseIf_bind fun same => .bind (originals_bound files) fun _ => .handle ?_ fun _ => .raise _
  have bound (state : State) : ({ j with state } : Journal β κ π).sourcePaths = c.paths := not_not.mp same
  refine .bind (.atomic fun _ h => h.writeJournal (bound _) id) fun _ => .bind (.each fun p => ?_) fun _ => ?_
  · exact .bind .view fun _ => .bind .raiseIf fun _ => .atomic fun _ h => h.backups rfl
  · exact .bind (.atomic fun _ h => h.backups rfl) fun _ =>
      .bind (.atomic fun _ h => h.writeJournal (bound _) id) fun _ => unlinkPointer_bound

theorem recover_bound : (recover c).Keeps (Bound c) := by
  refine .bind .view fun pointer => ?_
  cases pointer with
  | none => exact .pure _
  | some id =>
    refine .bind .view fun journal => .bind .need fun j => .bind .raiseIf fun _ => ?_
    cases j.state with
    | complete | rolledBack => exact forget_bound _
    | prepared | rollingBack => exact rollback_bound

theorem recover_complete (pointer : d.pointer = some id) (journal : d.journal id = some j) (complete : j.state = .complete)
    (bound : j.sourcePaths = c.paths) :
    ((recover c ⟨d, []⟩).1 = .value () ∧ (recover c ⟨d, []⟩).2.state.config = d.config) ↔
      ∀ name, c.sha (d.config name) = j.after name := by
  -- up to the comparison of the files
  have go {F : Unit → Disk β κ π → Prop} {E : Fault → Disk β κ π → Prop}
      (rest : (forget c j.after).Runs True (fun _ => True) F E d) : (recover c).Runs True (fun _ => True) F E d := by
    have quiet {p : Prop} : ¬True → p := fun rough => absurd trivial rough
    refine Runs.view_bind ?_ quiet trivial
    rw [pointer]
    refine Runs.view_bind (Runs.need_bind journal ?_) quiet trivial
    refine Runs.raiseIf_bind (fun differs => absurd bound differs) fun _ => ?_
    rw [complete]
    exact rest
  have quiet {p : Prop} : ¬True → p := fun rough => absurd trivial rough
  by_cases same : ∀ name, c.sha (d.config name) = j.after name
  · have runs : (forget c j.after).Runs True (fun _ => True) (fun _ d' => d'.config = d.config) (fun _ _ => False) d := by
      refine Runs.view_bind ?_ quiet trivial
      refine Runs.raiseIf_bind (fun differs => ?_) fun _ => ?_
      · obtain ⟨name, -, differs⟩ := differs
        exact absurd (same name) differs
      refine Runs.view_bind ?_ quiet trivial
      refine Runs.raiseIf_bind (fun none_ => ?_) fun _ => Runs.atomic rfl quiet trivial
      simp [pointer] at none_
    obtain ⟨⟨⟩, value, config⟩ | ⟨e, -, never⟩ := (go runs).calmly
    · exact ⟨fun _ => same, fun _ => ⟨value, config⟩⟩
    · exact never.elim
  · have runs : (forget c j.after).Runs True (fun _ => True) (fun _ _ => False) (fun _ _ => True) d := by
      refine Runs.view_bind ?_ quiet trivial
      refine Runs.raiseIf_bind (fun _ => trivial) fun equal => ?_
      refine absurd (fun name => ?_) same
      by_contra differs
      exact equal ⟨name, mem_files name, differs⟩
    obtain ⟨⟨⟩, -, never⟩ | ⟨e, raised, -⟩ := (go runs).calmly
    · exact never.elim
    · exact ⟨fun last => by simp [raised] at last, fun h => absurd h same⟩

variable [DecidableEq β]

theorem apply_bound (r : Request β) : (apply c r).Keeps (Bound c) := by
  refine .bind recover_bound fun _ => .bind .view fun raw => ?_
  cases r.candidate raw with
  | error message => exact .raise _
  | ok encoded =>
    refine .bind .view fun active => .bind .view fun id => .bind ?_ fun _ => .bind (.handle ?_ ?_) fun _ => .handle ?_ ?_
    · exact .bind (.atomic fun _ h => h.makeBackup) fun _ => .bind (.each fun name => .atomic fun _ h => h.writeOriginal _ _ _)
        fun _ => .bind (.atomic fun _ h => h.writeJournal rfl _) fun _ => .atomic fun _ h => h.backups rfl
    · exact .bind (replaceFiles_keeps (fun _ _ _ h => h.backups rfl) _ _ _) fun _ => .bind .view fun _ =>
        .bind (.atomic fun _ h => h.backups rfl) fun _ => .atomic fun _ h => h.writeJournal rfl _
    · exact fun _ => .bind rollback_bound fun _ => .raise _
    · exact .bind unlinkPointer_bound fun _ => .pure _
    · intro error
      split
      · exact .pure _
      · exact .raise _

inductive Work (β : Type) where
  | profile (o : Operation β)
  | save (e : Edit β) (fates : List Fate)

def Work.run (c : Store β κ π) (d : Disk β κ π) : Work β → Disk β κ π
  | .profile o => o.run c d
  | .save e fates => (Profiles.save e ⟨d, fates⟩).2.state

theorem past_bound (h : Bound c d) (past : List (Work β)) : Bound c (past.foldl (Work.run c) d) := by
  induction past generalizing d with
  | nil => exact h
  | cons w past ih =>
    refine ih ?_
    cases w with
    | profile o =>
      cases o with
      | apply r fates => exact (apply_bound r).always h fates
      | recover fates => exact recover_bound.always h fates
    | save e fates => exact (save_keeps (fun _ _ _ h => h.backups rfl) e).always h fates

/-- A transaction is committed and its pointer is there. After any saves, what every operation on the profiles begins
with succeeds and keeps them if and only if the files have the hashes that the transaction has left. -/
theorem committed_blocks_iff (c : Store β κ π) (config : Name → β) (active : Option β) (past : List (Work β))
    (edits : List (Edit β × List Fate)) (id : Nat) (j : Journal β κ π)
    (pointer : (past.foldl (Work.run c) (Disk.untouched config active)).pointer = some id)
    (journal : (past.foldl (Work.run c) (Disk.untouched config active)).journal id = some j) (complete : j.state = .complete) :
    let saved := edits.foldl (fun d e => (save e.1 ⟨d, e.2⟩).2.state) (past.foldl (Work.run c) (Disk.untouched config active))
    ((recover c ⟨saved, []⟩).1 = .value () ∧ (recover c ⟨saved, []⟩).2.state.config = saved.config) ↔
      ∀ name, c.sha (saved.config name) = j.after name := by
  intro saved
  have start : Bound c (Disk.untouched config active) := fun id j found => by simp [Disk.journal, Disk.untouched] at found
  have bound := past_bound start past id j journal
  obtain ⟨same, backups⟩ := saves_rest (d := past.foldl (Work.run c) (Disk.untouched config active)) edits
  refine recover_complete (same.trans pointer) ?_ complete bound
  unfold Disk.journal at *
  rw [backups]
  exact journal

/-! A switch whose pointer cannot be removed, and a save after it. -/

namespace Bench

def store : Store Nat Nat Unit := ⟨fun raw => raw, ()⟩

def profile : Request Nat := ⟨fun _ => .ok fun _ => 1, fun _ => 9⟩

/-- The first operations of `apply` are done, and the next one fails. -/
def applied (operations : Nat) : Work Nat :=
  .profile (.apply profile (List.replicate operations .done ++ [.fails 0]))

def pending : Disk Nat Nat Unit := (applied 21).run store (.untouched (fun _ => 0) none)

def wheels (value : Nat) : Edit Nat := ⟨[.setup], fun raw => .ok (Function.update raw .setup value), "20260101_000000_00000000"⟩

end Bench

/-- The save succeeds, and what every operation on the profiles begins with does not. -/
theorem save_blocks : Bench.pending.pointer = some 0 ∧ Bench.pending.Committed 0 ∧
    (save (Bench.wheels 2) ⟨Bench.pending, []⟩).1 = .value () ∧
    (recover Bench.store ⟨(save (Bench.wheels 2) ⟨Bench.pending, []⟩).2.state, []⟩).1 = .raised .ended :=
  ⟨rfl, ⟨_, rfl, rfl⟩, rfl, rfl⟩

theorem same_save_recovers : (recover Bench.store ⟨(save (Bench.wheels 1) ⟨Bench.pending, []⟩).2.state, []⟩).1 = .value () :=
  ((committed_blocks_iff Bench.store (fun _ => 0) none [Bench.applied 21] [(Bench.wheels 1, [])] 0 _ rfl rfl rfl).mpr
    fun name => by cases name <;> rfl).1

end

end Smartwheel.Profiles
