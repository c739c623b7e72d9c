import Smartwheel.Compaction.Run
import Smartwheel.Effect.History

/-! What there is of a cloud after any loss of power: its original, or a compressed file that decodes to it. -/
namespace Smartwheel.Compaction
open Disk

structure Originals where
  content : Relative → Bytes
  mtime : Relative → Int
  inode : Relative → Nat

variable {κ : Type} {c : Config κ} {item : Item κ} {o : Originals} {d d' : Disk κ} {r : Relative} {w w' : World κ}

def Originals.file (o : Originals) (r : Relative) : Inode (Content κ) Int := ⟨.bytes (o.content r), o.mtime r, true, true⟩

structure Planned (o : Originals) (r : Relative) (d : Disk κ) : Prop where
  linked : d.linked r.dropLast = true
  entries : ∀ e ∈ d.disk (.file r), e = none ∨ e = some (o.inode r) ∧ d.inode (o.inode r) = o.file r
  whole : d.now (.file r) ≠ none → none ∉ d.disk (.file r)

def Whole (r : Relative) (d : Disk κ) : Prop := none ∉ d.disk (.file r)

def Decodes (c : Config κ) (o : Originals) (r : Relative) (content : Content κ) : Prop :=
  ∃ x, content = .bytes x ∧ c.unxz x = some (o.content r)

def Archived (c : Config κ) (o : Originals) (r : Relative) (d : Disk κ) : Prop := d.Solid folder (.xz r) (Decodes c o r)

structure Kept (c : Config κ) (item : Item κ) (o : Originals) (d : Disk κ) : Prop where
  valid : d.Valid
  root : d.linked [] = true
  selected : ∀ s ∈ item.selected, Planned o s.path d
  protectedFiles : ∀ p ∈ item.protectedFiles, Planned o p.1 d ∧ Whole p.1 d
  archives : ∀ s ∈ item.clouds, d.Only (.xz s.path) (Decodes c o s.path)
  recoverable : ∀ s ∈ item.clouds, Whole s.path d ∨ Archived c o s.path d

def Removal (c : Config κ) (item : Item κ) (o : Originals) (removal : Relative × Disk κ) : Prop :=
  (removal.2.Solid folder .receipt fun content => ∃ state, content = .receipt state ∧ state.status = .ready) ∧
    ∀ s ∈ item.clouds, Archived c o s.path removal.2 ∨ s.path ≠ removal.1 ∧ Whole s.path removal.2

structure Sound (c : Config κ) (item : Item κ) (o : Originals) (w : World κ) : Prop where
  kept : Kept c item o w.disk
  removals : ∀ removal ∈ w.removals, Removal c item o removal

/-- A compressed file that is seen is there for good, and so are the contents of a `.xz.partial` that would be taken for
one. -/
structure SettledAt (c : Config κ) (s : Selected κ) (d : Disk κ) : Prop where
  xz : d.present (.xz s.path) = true → d.Solid folder (.xz s.path) fun _ => True
  part : d.present (.xz s.path) = false → ∀ f, d.file (.xzPartial s.path) = some f →
    c.decoded f.content = some (s.row.sha, s.row.bytes) → f.content.size < s.row.bytes → f.synced = true

def Settled (c : Config κ) (item : Item κ) (d : Disk κ) : Prop := ∀ s ∈ item.clouds, SettledAt c s d

structure Lost (w w' : World κ) : Prop where
  disk : Volume.Lost folder w.disk w'.disk
  made : w'.made = w.made ∨ w'.made = false ∧ w.disk.linked [metaFolder] = false
  gone : w'.made = false → w'.disk.linked [metaFolder] = false ∧ w'.disk.now .backup = none ∧ w'.disk.now .backupNew = none
  removals : w'.removals = w.removals

theorem mem_clouds {s : Selected κ} : s ∈ item.clouds ↔ s ∈ item.selected ∧ s.action = .losslessXz := by simp [Item.clouds]

theorem Whole.frame (h : Whole r d) (frame : Volume.Frame d d' (.file r)) : Whole r d' := fun there => h (frame.disk _ there)

theorem Planned.frame (h : Planned o r d) (frame : Volume.Frame d d' (.file r)) : Planned o r d' := by
  refine ⟨frame.linked _ h.linked, fun e there => ?_, fun here => ?_⟩
  · obtain gone | ⟨rfl, is_original⟩ := h.entries e (frame.disk e there)
    · exact .inl gone
    · have same := frame.inode _ there
      rw [is_original] at same
      refine .inr ⟨rfl, ?_⟩
      obtain ⟨content, attributes, synced, kept⟩ := same
      cases inode : d'.inode (o.inode r)
      simp_all [Originals.file]
  · exact Whole.frame (h.whole (frame.now ▸ here)) frame

theorem Archived.frame (h : Archived c o r d) (frame : Volume.Frame d d' (.xz r)) : Archived c o r d' := Volume.Solid.frame h frame

theorem Planned.unlink (h : Planned o r d) {other : Relative} : Planned o r (d.unlink (.file other)) := by
  by_cases same : r = other
  · subst same
    refine ⟨h.linked, fun e there => ?_, by simp [Volume.unlink]⟩
    simp only [Volume.unlink, Function.update_self, List.mem_cons] at there
    obtain gone | before := there
    · exact .inl gone
    · exact h.entries e before
  · exact h.frame (Volume.unlink_frame (by simpa using same))

theorem Planned.lost (h : Planned o r d) (lost : Volume.Lost folder d d') : Planned o r d' := by
  have here : d'.now (.file r) ∈ d.disk (.file r) := by
    obtain before | ⟨-, unlinked⟩ := lost.name (.file r)
    · exact before
    · simp [folder, h.linked] at unlinked
  refine ⟨lost.linked _ h.linked, fun e there => ?_, fun now there => ?_⟩
  · simp only [lost.disk, List.mem_singleton] at there
    obtain gone | ⟨same, is_original⟩ := h.entries _ here
    · exact .inl (there.trans gone)
    · refine .inr ⟨there.trans same, ?_⟩
      have content := lost.content (o.inode r) (by rw [is_original]; rfl)
      have kept := lost.attributes (o.inode r) (by rw [is_original]; rfl)
      have synced := lost.synced (o.inode r)
      rw [is_original] at content kept
      cases inode : d'.inode (o.inode r)
      simp_all [Originals.file]
  · simp only [lost.disk, List.mem_singleton] at there
    exact now there.symm

theorem Whole.lost (h : Whole r d) (linked : d.linked r.dropLast = true) (lost : Volume.Lost folder d d') : Whole r d' := by
  intro there
  simp only [lost.disk, List.mem_singleton] at there
  obtain before | ⟨-, unlinked⟩ := lost.name (.file r)
  · exact h (there ▸ before)
  · simp [folder, linked] at unlinked

theorem Kept.lost (h : Kept c item o d) (lost : Volume.Lost folder d d') : Kept c item o d' where
  valid := lost.valid h.valid
  root := lost.linked _ h.root
  selected s member := (h.selected s member).lost lost
  protectedFiles p member :=
    ⟨(h.protectedFiles p member).1.lost lost, (h.protectedFiles p member).2.lost (h.protectedFiles p member).1.linked lost⟩
  archives s member := lost.only (h.archives s member)
  recoverable s member := by
    obtain whole | archived := h.recoverable s member
    · exact .inl (whole.lost (h.selected s (mem_clouds.mp member).1).linked lost)
    · exact .inr (lost.solid archived)

def own : List Name := [.backup, .backupNew, .receipt, .receiptNew, .packed, .packedPartial, .note, .noteNew]

theorem Kept.apart {names : List Name} (h : Kept c item o d) (apart : Volume.Apart names d d')
    (planned : ∀ r, .file r ∉ names) (xz : ∀ r, .xz r ∉ names) : Kept c item o d' where
  valid := apart.valid
  root := apart.linked _ h.root
  selected s member := (h.selected s member).frame (apart.frame _ (planned _))
  protectedFiles p member :=
    ⟨(h.protectedFiles p member).1.frame (apart.frame _ (planned _)), (h.protectedFiles p member).2.frame (apart.frame _ (planned _))⟩
  archives s member := (h.archives s member).frame (apart.frame _ (xz _))
  recoverable s member := (h.recoverable s member).imp (fun h => h.frame (apart.frame _ (planned _)))
    fun h => h.frame (apart.frame _ (xz _))

end Smartwheel.Compaction

/-! ### What the parts of a run keep that only look, and that only write the files of compaction itself. -/
namespace Smartwheel.Compaction
open Disk
open Effect.Program hiding pure bind

variable {κ : Type} {c : Config κ} {item : Item κ} {J : World κ → Prop} {w : World κ} {name temporary : Name}

theorem syncRun_linked {directory : Relative} (linked : w.disk.linked directory = true) :
    (syncRun w).disk.linked directory = true := by
  by_cases same : directory = [metaFolder]
  · subst same
    simpa [syncRun, Volume.syncDir] using .inl linked
  · simpa [syncRun, Volume.syncDir, same] using linked

theorem synced_apart (valid : w.disk.Valid) (directory : Relative) : Volume.Apart [] w.disk (synced directory w).disk := by
  unfold synced
  split
  · have apart : Volume.Apart [] w.disk (w.disk.syncDir folder []) := .syncDir valid
    exact ⟨⟨apart.valid.now, apart.valid.bound⟩, fun _ => syncRun_linked, fun n out =>
      ⟨(apart.frame n out).now, (apart.frame n out).disk, (apart.frame n out).inode, fun _ => syncRun_linked⟩⟩
  · exact Volume.Apart.syncDir valid

@[simp] theorem synced_removals (directory : Relative) : (synced directory w).removals = w.removals := by
  unfold synced
  split <;> rfl

/-! Looking. -/

section
variable {α β : Type}

theorem require_keeps {p : Prop} [Decidable p] {message : String} : (require p message : Part κ Unit).Keeps J := Keeps.raiseIf

theorem outside_keeps (message : String) : (outside message : Part κ Unit).Keeps J := Keeps.atomic fun _ h => h

theorem contents_keeps (name : Name) : (contents name : Part κ (Content κ)).Keeps J :=
  Keeps.view.bind fun _ => Keeps.need.bind fun _ => Keeps.pure _

theorem statRow_keeps (name : Name) : (statRow c name).Keeps J := Keeps.view.bind fun _ => Keeps.need

theorem digest_keeps (name : Name) : (digest c name).Keeps J := (contents_keeps name).bind fun _ => Keeps.pure _

theorem readReceipt_keeps : (readReceipt : Part κ (Receipt κ)).Keeps J := (contents_keeps _).bind fun _ => Keeps.need

theorem readPacked_keeps : (readPacked : Part κ (Manifest κ)).Keeps J := (contents_keeps _).bind fun _ => Keeps.need

theorem decodedHash_keeps (name : Name) : (decodedHash c name).Keeps J := (contents_keeps name).bind fun _ => Keeps.pure _

theorem metadata_keeps : (metadata c item).Keeps J := Keeps.view.bind fun _ => require_keeps

section
variable [DecidableEq κ]

theorem requireDecodes_keeps (name : Name) (row : Row κ) (message : String) : (requireDecodes c name row message).Keeps J :=
  (decodedHash_keeps name).bind fun _ => require_keeps

theorem verifyFile_keeps (name : Name) (row : Row κ) : (verifyFile c name row).Keeps J :=
  (statRow_keeps name).bind fun _ => require_keeps.bind fun _ => (digest_keeps name).bind fun _ => require_keeps

theorem compareInventory_keeps (pruningStarted : Bool) : (compareInventory c item pruningStarted).Keeps J := by
  refine Keeps.view.bind fun _ => require_keeps.bind fun _ => require_keeps.bind fun _ => ?_
  refine (Keeps.each fun p => verifyFile_keeps _ _).bind fun _ => Keeps.each fun s => Keeps.view.bind fun there => ?_
  cases there with
  | true => exact verifyFile_keeps _ _
  | false =>
    exact require_keeps.bind fun _ => Keeps.when (requireDecodes_keeps _ _ _)

theorem archived_keeps (s : Selected κ) : (archived c s).Keeps J :=
  (requireDecodes_keeps _ _ _).bind fun _ => (statRow_keeps _).bind fun _ => (digest_keeps _).bind fun _ => Keeps.pure _

theorem verifyCompacted_keeps (plan : κ) : (verifyCompacted c item plan).Keeps J := by
  refine readReceipt_keeps.bind fun state => require_keeps.bind fun _ => (digest_keeps _).bind fun sha => require_keeps.bind fun _ => ?_
  refine readPacked_keeps.bind fun manifest => require_keeps.bind fun _ => (Keeps.each fun p => verifyFile_keeps _ _).bind fun _ => ?_
  refine (Keeps.each fun s => ?_).bind fun _ => Keeps.each fun k => (digest_keeps _).bind fun _ => require_keeps
  split
  · exact verifyFile_keeps _ _
  · exact Keeps.view.bind fun _ => require_keeps.bind fun _ => Keeps.when (requireDecodes_keeps _ _ _)

theorem recognise_keeps (plan : κ) : (recognise c item plan).Keeps J := by
  refine (outside_keeps _).bind fun _ => (outside_keeps _).bind fun _ => metadata_keeps.bind fun _ => Keeps.view.bind fun there => ?_
  cases there with
  | true => exact readReceipt_keeps.bind fun _ => require_keeps.bind fun _ => (compareInventory_keeps _).bind fun _ => Keeps.pure _
  | false => exact (compareInventory_keeps _).bind fun _ => Keeps.pure _

end

/-! Writing the files of compaction itself. -/

structure Steady (J : World κ → Prop) : Prop where
  valid : ∀ w, J w → w.disk.Valid
  root : ∀ w, J w → w.disk.linked [] = true
  apart : ∀ w w', J w → w'.removals = w.removals → Volume.Apart own w.disk w'.disk → J w'

variable (steady : Steady J)
include steady

theorem change_keeps {f : Disk κ → Disk κ} {names : List Name} (apart : ∀ d : Disk κ, d.Valid → Volume.Apart names d (f d))
    (sub : ∀ n ∈ names, n ∈ own) : (change f).Keeps J :=
  Keeps.atomic fun w h => steady.apart w _ h rfl ((apart _ (steady.valid w h)).mono sub)

theorem syncAt_keeps (directory : Relative) : (syncAt directory : Part κ Unit).Keeps J :=
  Keeps.atomic fun w h => steady.apart w _ h (by simp) ((synced_apart (steady.valid w h) directory).mono (by simp))

theorem unlink_keeps (mine : name ∈ own) : (change (Volume.unlink name) : Part κ Unit).Keeps J :=
  change_keeps steady (fun _ => Volume.Apart.unlink) (by simpa using mine)

theorem create_keeps (mine : name ∈ own) (content : Content κ) : (create name content).Keeps J := by
  have written (content : Content κ) (w : World κ) (h : J w) : J (onDisk (Volume.write name content 0) w) :=
    steady.apart w _ h rfl ((Volume.Apart.write (steady.valid w h)).mono (by simpa using mine))
  exact Keeps.view.bind fun _ => Keeps.raiseIf.bind fun _ => Keeps.attempt (written content) fun way => written (content.part way)

theorem clear_keeps (mine : temporary ∈ own) : (clear temporary : Part κ Unit).Keeps J :=
  Keeps.view.bind fun _ => Keeps.when ((outside_keeps _).bind fun _ => (unlink_keeps steady mine).bind fun _ => syncAt_keeps steady _)

theorem publish_keeps (mine : temporary ∈ own ∧ name ∈ own) (content : Content κ) {check : Part κ Unit} (looks : check.Keeps J) :
    (publish temporary name content check).Keeps J := by
  refine (create_keeps steady mine.1 content).bind fun _ => ?_
  refine (change_keeps steady (fun _ => Volume.Apart.syncFile) (by simp)).bind fun _ => looks.bind fun _ => ?_
  refine (change_keeps steady (fun _ => Volume.Apart.rename) ?_).bind fun _ => syncAt_keeps steady _
  simpa using mine

theorem writeReceipt_keeps (r : Receipt κ) : (writeReceipt r).Keeps J :=
  (clear_keeps steady (by decide)).bind fun _ => publish_keeps steady (by decide) _ (Keeps.pure _)

theorem writeNote_keeps : (writeNote : Part κ Unit).Keeps J :=
  Keeps.view.bind fun _ => Keeps.when ((clear_keeps steady (by decide)).bind fun _ =>
    publish_keeps steady (by decide) _ (outside_keeps _))

variable [DecidableEq κ]

theorem packManifest_keeps (m : Manifest κ) : (packManifest m).Keeps J := by
  refine Keeps.view.bind fun there => ?_
  cases there with
  | true => exact readPacked_keeps.bind fun _ => require_keeps
  | false =>
    refine (clear_keeps steady (by decide)).bind fun _ => publish_keeps steady (by decide) _ ?_
    exact (contents_keeps _).bind fun _ => require_keeps.bind fun _ => outside_keeps _

theorem backupManifest_keeps : (backupManifest c item).Keeps J := by
  have looks (name : Name) (row : Row κ) : (verifyFile c name row).Keeps J := verifyFile_keeps name row
  have made (w : World κ) (h : J w) : J { w with made := true } :=
    steady.apart w _ h rfl ⟨steady.valid w h, fun _ linked => linked, fun n _ => Volume.Frame.refl _ n⟩
  refine Keeps.view.bind fun _ => (Keeps.when ?_).bind fun _ => Keeps.view.bind fun _ => (Keeps.when ?_).bind fun _ => looks _ _
  · exact (outside_keeps _).bind fun _ => (Keeps.atomic made).bind fun _ => syncAt_keeps steady _
  · refine Keeps.view.bind fun _ => (Keeps.when ?_).bind fun _ => (contents_keeps _).bind fun _ => ?_
    · exact (outside_keeps _).bind fun _ => unlink_keeps steady (by decide)
    · exact publish_keeps steady (by decide) _ ((looks _ _).bind fun _ => outside_keeps _)

end
end Smartwheel.Compaction

/-! ### A rule for each way a run looks at its files, and what is there for good once a directory is synced. -/
namespace Smartwheel.Compaction
open Disk
open Effect.Program hiding pure bind

variable {κ β : Type} {c : Config κ} {w : World κ} {name : Name} {calm : Prop} {I : World κ → Prop}
  {E : Fault → World κ → Prop} {F : β → World κ → Prop}

theorem present_rule {k : Bool → Part κ β} (rest : Runs.Rests calm I E w)
    (next : (k (w.disk.present name)).Runs calm I F E w) : (present name >>= k).Runs calm I F E w := rest.view next

variable {k : Unit → Part κ β}

theorem outside_rule {message : String} (rest : Runs.Rests calm I E w)
    (next : (k ()).Runs calm I F E w) : (outside message >>= k).Runs calm I F E w := rest.atomic next

theorem change_rule {f : Disk κ → Disk κ} (rest : Runs.Rests calm I E w)
    (next : (k ()).Runs calm I F E (onDisk f w)) : (change f >>= k).Runs calm I F E w := rest.atomic next

theorem syncAt_rule {directory : Relative} (rest : Runs.Rests calm I E w)
    (next : (k ()).Runs calm I F E (synced directory w)) : (syncAt directory >>= k).Runs calm I F E w := rest.atomic next

theorem require_rule {p : Prop} [Decidable p] {message : String} (error : ¬p → E (.value message) w)
    (next : p → (k ()).Runs calm I F E w) : (require p message >>= k).Runs calm I F E w :=
  Runs.raiseIf_bind error fun passes => next (not_not.mp passes)

theorem contents_rule {k : Content κ → Part κ β} (rest : Runs.Rests calm I E w) (missing : w.disk.file name = none → E .os w)
    (next : ∀ f, w.disk.file name = some f → (k f.content).Runs calm I F E w) : (contents name >>= k).Runs calm I F E w := by
  refine Runs.bind (F := fun content w' => w' = w ∧ ∃ f, w.disk.file name = some f ∧ content = f.content) ?_ ?_
  · refine rest.view ?_
    cases found : w.disk.file name with
    | none => exact Runs.raise (missing found)
    | some f => exact Runs.pure ⟨rfl, f, rfl, rfl⟩
  · rintro _ _ ⟨rfl, f, found, rfl⟩
    exact next f found

theorem decodedHash_rule {k : Option (κ × Nat) → Part κ β} (rest : Runs.Rests calm I E w)
    (missing : w.disk.file name = none → E .os w)
    (next : ∀ f, w.disk.file name = some f → (k (c.decoded f.content)).Runs calm I F E w) :
    (decodedHash c name >>= k).Runs calm I F E w := by
  refine Runs.bind (F := fun decoded w' => w' = w ∧ ∃ f, w.disk.file name = some f ∧ decoded = c.decoded f.content) ?_ ?_
  · exact contents_rule rest missing fun f found => Runs.pure ⟨rfl, f, found, rfl⟩
  · rintro _ _ ⟨rfl, f, found, rfl⟩
    exact next f found

/-- What `stat_row` has of a file. -/
theorem statRow_rule {k : Stat → Part κ β} (rest : Runs.Rests calm I E w) (missing : w.disk.now name = none → E .os w)
    (next : ∀ i, w.disk.now name = some i →
      (k ⟨(w.disk.inode i).content.size, (w.disk.inode i).attributes, i, c.device⟩).Runs calm I F E w) :
    (statRow c name >>= k).Runs calm I F E w := by
  refine Runs.bind (F := fun s w' => w' = w ∧ ∃ i, w.disk.now name = some i ∧
    s = ⟨(w.disk.inode i).content.size, (w.disk.inode i).attributes, i, c.device⟩) ?_ ?_
  · refine rest.view ?_
    unfold statOf
    cases here : w.disk.now name with
    | none => exact Runs.raise (missing here)
    | some i => exact Runs.pure ⟨rfl, i, rfl, rfl⟩
  · rintro _ _ ⟨rfl, i, here, rfl⟩
    exact next i here

theorem readReceipt_rule {k : Receipt κ → Part κ β} (rest : Runs.Rests calm I E w)
    (missing : (∀ f state, w.disk.file .receipt = some f → f.content ≠ .receipt state) → ∀ e, E e w)
    (next : ∀ f state, w.disk.file .receipt = some f → f.content = .receipt state → (k state).Runs calm I F E w) :
    (readReceipt >>= k).Runs calm I F E w := by
  refine Runs.bind (F := fun state w' => w' = w ∧ ∃ f, w.disk.file .receipt = some f ∧ f.content = .receipt state) ?_ ?_
  · refine contents_rule rest (fun gone => missing (by simp [gone]) _) fun f found => ?_
    cases content : f.content with
    | receipt state => exact Runs.pure ⟨rfl, f, found, content⟩
    | _ =>
      refine Runs.raise (missing (fun g state same => ?_) _)
      obtain rfl := Option.some.inj (found.symm.trans same)
      simp [content]
  · rintro state _ ⟨rfl, f, found, content⟩
    exact next f state found content

theorem create_rule {content : Content κ} (rest : Runs.Rests calm I E w) (there : w.disk.present name = true → E .os w)
    (every : ¬calm → ∀ part, Runs.Rests calm I E (onDisk (Volume.write name part 0) w))
    (next : (k ()).Runs calm I F E (onDisk (Volume.write name content 0) w)) : (create name content >>= k).Runs calm I F E w := by
  refine Runs.bind (F := fun _ w' => w' = onDisk (Volume.write name content 0) w) ?_ ?_
  · refine rest.view (Runs.raiseIf_bind there fun _ => ?_)
    exact Runs.attempt rfl (fun rough way => (every rough _).fails rough _) fun rough way => (every rough _).cut
  · rintro - _ rfl
    exact next

section
variable [DecidableEq κ] {row : Row κ} {message : String} {k : Unit → Part κ β}

theorem requireDecodes_rule (rest : Runs.Rests calm I E w) (missing : w.disk.file name = none → E .os w)
    (differs : ∀ f, w.disk.file name = some f → c.decoded f.content ≠ some (row.sha, row.bytes) → E (.value message) w)
    (next : ∀ f, w.disk.file name = some f → c.decoded f.content = some (row.sha, row.bytes) → (k ()).Runs calm I F E w) :
    (requireDecodes c name row message >>= k).Runs calm I F E w := by
  refine Runs.bind (F := fun _ w' => w' = w ∧ ∃ f, w.disk.file name = some f ∧ c.decoded f.content = some (row.sha, row.bytes)) ?_ ?_
  · exact decodedHash_rule rest missing fun f found => Runs.raiseIf (differs f found)
      fun passes => ⟨rfl, f, found, not_not.mp passes⟩
  · rintro _ _ ⟨rfl, f, found, decodes⟩
    exact next f found decodes

end

theorem synced_here {P : Content κ → Prop} {i : Nat} (here : w.disk.now name = some i) (sync : (w.disk.inode i).synced = true)
    (holds : P (w.disk.inode i).content) (linked : w.disk.linked (folder name) = true) :
    (synced (folder name) w).disk.Solid folder name P := by
  have solid : (w.disk.syncDir folder (folder name)).Solid folder name P := Volume.syncDir_here here sync holds linked rfl
  unfold synced
  split
  · rename_i root
    rw [root] at solid
    exact ⟨syncRun_linked linked, solid.there, solid.only⟩
  · exact solid

end Smartwheel.Compaction
