import Smartwheel.HistoryArchive.MoveSpec

/-! What `archive_one` and `restore` keep, from any state that earlier calls or a loss of power left. -/
namespace Smartwheel.HistoryArchive
open Disk
open Effect.Program hiding pure bind

variable {κ β : Type} {c : Config κ} {original : Bytes} {attributes : Attributes} {first : Nat} {X : Set Bytes} {w : World κ}
  {x : Bytes} {r : Record κ} {row : Row κ}

def Vouched (c : Config κ) (original : Bytes) (attributes : Attributes) (answer : Answer κ) (w : World κ) : Prop :=
  ∀ r, answer = .record r → ∃ x, Filed c original x w.disk ∧ Good c original attributes x r

theorem vouched (filed : Filed c original x w.disk) (good : Good c original attributes x r) :
    Vouched c original attributes (.record r) w := by
  rintro _ ⟨⟩
  exact ⟨x, filed, good⟩

variable {d : Disk κ}

theorem Kept.record (h : Kept c original attributes first X d) {f : Inode (Content κ) Attributes}
    (found : d.file .receipt = some f) (content : f.content = .record r) :
    ∃ x, Filed c original x d ∧ d.Only .receipt (Names c original attributes x) ∧ Good c original attributes x r := by
  obtain none_ | ⟨x, filed, only⟩ := h.receipt
  · have gone := none_ _ (h.valid.now .receipt)
    simp [Volume.file, gone] at found
  · obtain ⟨r', same, good⟩ := only.file h.valid found
    obtain rfl : r = r' := by simpa [content] using same
    exact ⟨x, filed, only, good⟩

/-- After `compress` the compressed file is synced, and nothing that matters has changed. -/
theorem compress_safe {k : Unit → Part κ β} {F : β → World κ → Prop} (h : Sound c original attributes first X w)
    (next : ∀ d i, Beside w.disk d → d.now .targetTemporary = some i → (d.inode i).synced = true →
      Safe c original attributes first X (k ()) F { w with disk := d }) :
    Safe c original attributes first X (compress c >>= k) F w := by
  refine (Runs.bind (F := fun _ w' => ∃ d i, w' = { w with disk := d } ∧ Beside w.disk d ∧
    d.now .targetTemporary = some i ∧ (d.inode i).synced = true) ?_ ?_)
  · have valid := h.kept.valid
    refine present_safe h ?_
    cases recovered : w.disk.present .targetTemporary with
    | true =>
      obtain ⟨i, here⟩ := Option.isSome_iff_exists.mp recovered
      have synced := syncFile_beside valid .targetTemporary
      refine Runs.atomic ⟨_, i, rfl, synced, ?_, Volume.syncFile_synced here⟩ (fun _ => h) h
      rwa [(Volume.syncFile_rest _ _).1]
    | false =>
      refine read_safe h fun f b _ _ => ?_
      have written (content : Content κ) : Beside w.disk (w.disk.write .targetTemporary content ⟨0o644, 0⟩) :=
        write_beside valid (.inl rfl)
      refine create_safe (fun content => h.beside (written content)) ?_
      have sound₁ := h.beside (written (.bytes (c.xz b)))
      have synced := syncFile_beside (written (.bytes (c.xz b))).valid .targetTemporary
      have here : (w.disk.write .targetTemporary (.bytes (c.xz b)) ⟨0o644, 0⟩).now .targetTemporary = some w.disk.next := by
        simp [Volume.write]
      refine Runs.atomic ⟨_, w.disk.next, rfl, (written _).trans synced, ?_, Volume.syncFile_synced here⟩ (fun _ => sound₁) sound₁
      rwa [(Volume.syncFile_rest _ _).1]
  · rintro - _ ⟨d, i, rfl, beside, here, synced⟩
    exact next d i beside here synced

structure Fresh (original : Bytes) (attributes : Attributes) (first : Nat) (d : Disk κ) : Prop where
  receipt : ∀ e ∈ d.disk .receipt, e = none
  source : Original original attributes first d

theorem Kept.unfiled (h : Kept c original attributes first X d) (absent : d.present .target = false) :
    ¬Filed c original x d := by
  intro filed
  obtain ⟨f, found, -⟩ := filed.file h.valid
  simp [Volume.present_of_file found] at absent

theorem Kept.fresh (h : Kept c original attributes first X d) (absent : d.present .target = false) :
    Fresh original attributes first d := by
  refine ⟨?_, ?_⟩
  · obtain none_ | ⟨x, filed, -⟩ := h.receipt
    · exact none_
    · exact (h.unfiled absent filed).elim
  · obtain is_original | ⟨x, filed, -⟩ := h.source
    · exact is_original
    · exact (h.unfiled absent filed).elim

theorem Original.file (h : Original original attributes first d) (valid : d.Valid) :
    d.file .source = some ⟨.bytes original, attributes, true, true⟩ := by
  simp [Volume.file, h.now valid, h.inode]

theorem Original.looked (h : Original original attributes first d) (valid : d.Valid) {s : Stat}
    (found : statOf c d .source = some s) : s.size = original.length ∧ s.attributes = attributes :=
  statOf_file found (h.file valid)

theorem Original.read (h : Original original attributes first d) (valid : d.Valid)
    {f : Inode (Content κ) Attributes} {b : Bytes} (found : d.file .source = some f) (content : f.content = .bytes b) :
    b = original := by
  obtain rfl := Option.some.inj ((h.file valid).symm.trans found)
  simpa using content.symm

theorem Kept.putTarget (h : Kept c original attributes first X d) (absent : d.present .target = false) :
    Kept c original attributes first X (d.rename .targetTemporary .target) := by
  have fresh := h.fresh absent
  have valid := Volume.rename_valid (a := .targetTemporary) (b := .target) h.valid
  have receipt : Volume.Frame d (d.rename .targetTemporary .target) .receipt := Volume.rename_frame (by simp) (by simp)
  refine ⟨valid, fun x held => ?_, .inl fun e there => fresh.receipt e (receipt.disk e there), .inl ?_⟩
  · exact (h.unfiled absent (h.filed x held)).elim
  · exact fresh.source.frame valid (Volume.rename_frame (by simp) (by simp))

theorem Kept.putSource (h : Kept c original attributes first X d) (gone : d.now .source = none) :
    Kept c original attributes first X (d.rename .restoring .source) := by
  have target : Volume.Frame d (d.rename .restoring .source) .target := Volume.rename_frame (by simp) (by simp)
  have receipt : Volume.Frame d (d.rename .restoring .source) .receipt := Volume.rename_frame (by simp) (by simp)
  obtain is_original | ⟨x, moved⟩ := h.source
  · simp [is_original.now h.valid] at gone
  · have moved' := moved.frame target receipt
    exact ⟨Volume.rename_valid h.valid, fun y held => (h.filed y held).frame target, .inr ⟨x, moved'.1, moved'.2.only⟩, .inr ⟨x, moved'⟩⟩

section
variable [DecidableEq κ]

theorem resume_safe (injective : Function.Injective c.sha) (h : Sound c original attributes first X w)
    (filed : Filed c original x w.disk) (there : w.disk.present .receipt = true) (good : Good c original attributes x r)
    (compressOnly : Bool) :
    Safe c original attributes first X (resume c row r compressOnly)
      (fun answer w' => Sound c original attributes first X w' ∧ Vouched c original attributes answer w') w := by
  refine verifyReceipt_safe h (verifySource_safe h fun _ _ _ _ _ _ _ _ => outside_safe h ?_)
  cases compressOnly with
  | true => exact Runs.pure ⟨h, vouched filed good⟩
  | false =>
    refine outside_safe h (change_safe h ?_)
    have archives := syncWay_beside h.kept.valid .archives
    have sound₁ := h.beside archives
    refine change_safe sound₁ ?_
    have receipts := syncWay_beside archives.valid .receipts
    have filed₁ := filed.frame archives.target
    refine remove_safe injective ⟨sound₁.beside receipts, filed₁.frame receipts.target, ?_, good⟩
      fun r' w' sound filed' good' => Runs.pure ⟨sound, vouched filed' good'⟩
    refine Volume.syncWay_solid archives.valid (sound₁.kept.names filed₁) ?_ rfl
    rwa [Volume.present, archives.receipt.now]

/-- After `publish` the compressed file and its receipt are there for good. -/
theorem publish_safe (injective : Function.Injective c.sha) {k : Record κ → Part κ β} {F : β → World κ → Prop} {before : Stat}
    {i : Nat} (h : Sound c original attributes first X w) (absent : w.disk.present .target = false)
    (looked : before.size = original.length ∧ before.attributes = attributes)
    (here : w.disk.now .targetTemporary = some i) (synced : (w.disk.inode i).synced = true)
    (next : ∀ x r w', Ready c original attributes first X x r w' → Safe c original attributes first X (k r) F w') :
    Safe c original attributes first X (publish c before (c.sha original) >>= k) F w := by
  refine (Runs.bind (F := fun r w' => ∃ x, Ready c original attributes first X x r w') ?_ ?_)
  · refine hashDecoded_safe h fun f x decoded found content decodes => check_safe h fun same => ?_
    have decodes_original : c.unxz x = some original := by
      rw [decodes, injective (Prod.mk.inj (not_not.mp same)).1]
    refine stat_safe h fun _ _ => check_safe h fun _ => outside_safe h ?_
    refine digest_safe h fun _ _ _ _ => check_safe h fun _ => change_safe h ?_
    have contains : (w.disk.inode i).content = .bytes x := by
      obtain rfl : w.disk.inode i = f := by simpa [Volume.file, here] using found
      exact content
    set d₁ := w.disk.rename .targetTemporary .target with d₁_eq
    have sound₁ : Sound c original attributes first X { w with disk := d₁ } :=
      ⟨h.kept.putTarget absent, h.removals⟩
    refine change_safe sound₁ ?_
    have archives := syncWay_beside sound₁.kept.valid .archives
    have sound₂ := sound₁.beside archives
    have now₁ : d₁.now .target = some i := by simp [d₁_eq, Volume.rename, here]
    have filed : Filed c original x (d₁.syncWay place .archives) :=
      ⟨decodes_original, Volume.syncWay_here now₁ synced contains rfl⟩
    have target : (d₁.syncWay place .archives).file .target = some (w.disk.inode i) := by
      rw [Volume.file, archives.target.now, now₁]
      rfl
    refine digest_safe sound₂ fun f b found content => stat_safe sound₂ fun s looked' => ?_
    obtain rfl : w.disk.inode i = f := Option.some.inj (target.symm.trans found)
    obtain rfl : x = b := by simpa [contains] using content
    have size := (statOf_file looked' target).1
    have good : Good c original attributes x (recordOf c before (c.sha original) (c.sha x) s.size) := by
      refine ⟨⟨rfl, rfl, rfl⟩, ⟨rfl, looked.1⟩, ⟨rfl, by rw [recordOf, size, contains]; rfl⟩, ?_⟩
      rw [recordOf, looked.2]
      exact ⟨rfl, rfl⟩
    refine atomicJson_safe sound₂ filed good fun d sound₃ filed₃ there => change_safe sound₃ (Runs.pure ⟨x, ?_⟩)
    have receipts := syncWay_beside sound₃.kept.valid .receipts
    refine ⟨sound₃.beside receipts, filed₃.frame receipts.target, ?_, good⟩
    exact Volume.syncWay_solid sound₃.kept.valid (sound₃.kept.names filed₃) there rfl
  · rintro r w' ⟨x, ready⟩
    exact next x r w' ready

theorem begin_safe (injective : Function.Injective c.sha) (h : Sound c original attributes first X w) (capacity compressOnly : Bool) :
    Safe c original attributes first X (begin c row capacity compressOnly)
      (fun answer w' => Sound c original attributes first X w' ∧ Vouched c original attributes answer w') w := by
  have skipped {answer : Answer κ} {w' : World κ} (h : Sound c original attributes first X w') (no : ∀ r, answer ≠ .record r) :
      Sound c original attributes first X w' ∧ Vouched c original attributes answer w' := ⟨h, fun r is_record => absurd is_record (no r)⟩
  refine stat_safe h fun before found => check_safe h fun _ => outside_safe h ?_
  cases capacity with
  | false => exact Runs.pure (skipped h (by simp))
  | true =>
    refine present_safe h (check_safe h fun absent => outside_safe h ?_)
    have fresh := h.kept.fresh (Bool.eq_false_iff.mpr absent)
    have looked := fresh.source.looked h.kept.valid found
    refine verifySource_safe h fun s f b _ _ file content _ => ?_
    obtain rfl := fresh.source.read h.kept.valid file content
    refine compress_safe h fun d i beside here synced => ?_
    have sound₁ := h.beside beside
    refine stat_safe sound₁ fun archive _ => ?_
    split
    · have unlinked : Beside d (d.unlink .targetTemporary) := unlink_beside sound₁.kept.valid (.inl rfl)
      exact change_safe sound₁ (Runs.pure (skipped (sound₁.beside unlinked) (by simp)))
    · have absent₁ : d.present .target = false := by
        rw [Volume.present, beside.target.now]
        exact Bool.eq_false_iff.mpr absent
      refine publish_safe injective sound₁ absent₁ looked here synced fun x r w' ready => ?_
      cases compressOnly with
      | true => exact Runs.pure ⟨ready.sound, vouched ready.filed ready.good⟩
      | false =>
        exact outside_safe ready.sound (remove_safe injective ready fun r' w'' sound filed good =>
          Runs.pure ⟨sound, vouched filed good⟩)

/-- `archive_one`, from any state that it or a restoration can leave. -/
theorem archiveOne_safe (injective : Function.Injective c.sha) (h : Sound c original attributes first X w)
    (capacity compressOnly : Bool) :
    Safe c original attributes first X (archiveOne c row capacity compressOnly)
      (fun answer w' => Sound c original attributes first X w' ∧ Vouched c original attributes answer w') w := by
  refine outside_safe h (present_safe h ?_)
  cases there : w.disk.present .receipt with
  | false => exact begin_safe injective h capacity compressOnly
  | true =>
    refine contents_safe h fun f found => need_safe h fun r json => present_safe h ?_
    have content : f.content = .record r := by
      cases is : f.content with
      | bytes b => simp [Content.json, is] at json
      | record r' => simpa [Content.json, is] using json
    obtain ⟨x, filed, -, good⟩ := h.kept.record found content
    split
    · exact verifyReceipt_safe h (Runs.pure ⟨h, vouched filed good⟩)
    · split
      · exact resume_safe injective h filed there good compressOnly
      · exact begin_safe injective h capacity compressOnly

theorem restore_safe (h : Sound c original attributes first X w) :
    Safe c original attributes first X (restore c r) (fun _ w' => Sound c original attributes first X w' ∧
      ∃ f b, w'.disk.file .source = some f ∧ f.content = .bytes b ∧ c.sha b = r.originalSha ∧
        f.attributes = ⟨r.originalMode, r.originalMtime⟩) w := by
  refine outside_safe h (present_safe h (check_safe h fun absent => digest_safe h fun _ _ _ _ => check_safe h fun _ => ?_))
  have gone : w.disk.now .source = none := by simpa [Volume.present] using absent
  refine outside_safe h (present_safe h (check_safe h fun _ => read_safe h fun _ b _ _ => ?_))
  have valid := h.kept.valid
  have written (content : Content κ) : Beside w.disk (w.disk.write .restoring content ⟨0o644, 0⟩) :=
    write_beside valid (.inr (.inr rfl))
  refine create_safe (fun content => h.beside (written content)) ?_
  set d₁ := w.disk.write .restoring (.bytes ((c.unxz b).getD [])) ⟨0o644, 0⟩ with d₁_eq
  have sound₁ : Sound c original attributes first X { w with disk := d₁ } := h.beside (written _)
  refine check_safe sound₁ fun _ => change_safe sound₁ ?_
  have synced := syncFile_beside sound₁.kept.valid .restoring
  have sound₂ := sound₁.beside synced
  have here : (d₁.syncFile .restoring).now .restoring = some w.disk.next := by
    rw [(Volume.syncFile_rest _ _).1]
    simp [d₁_eq, Volume.write]
  refine digest_safe sound₂ fun f restored found content => stat_safe sound₂ fun _ _ => check_safe sound₂ fun same => ?_
  have apart (name : Name) (other : name ≠ .restoring) : some w.disk.next ∉ (d₁.syncFile .restoring).disk name := by
    rw [(Volume.syncFile_rest _ _).2.1]
    simpa [d₁_eq, Volume.write, other] using fun there => Nat.lt_irrefl _ (valid.bound name _ there)
  have valid₂ := sound₂.kept.valid
  have changed : Beside (d₁.syncFile .restoring) ((d₁.syncFile .restoring).setAttributes .restoring ⟨r.originalMode, r.originalMtime⟩) :=
    ⟨Volume.setAttributes_valid valid₂, Volume.setAttributes_frame here (apart _ (by simp)),
      Volume.setAttributes_frame here (apart _ (by simp)), Volume.setAttributes_frame here (apart _ (by simp))⟩
  have sound₃ := sound₂.beside changed
  refine change_safe sound₂ (outside_safe sound₃ (change_safe sound₃ ?_))
  set d₃ := (d₁.syncFile .restoring).setAttributes .restoring ⟨r.originalMode, r.originalMtime⟩ with d₃_eq
  have gone₃ : d₃.now .source = none := by
    rw [changed.source.now, synced.source.now, (written _).source.now, gone]
  have here₃ : d₃.now .restoring = some w.disk.next := by rw [d₃_eq, (Volume.setAttributes_rest _ _ _).1, here]
  have sound₄ : Sound c original attributes first X { w with disk := d₃.rename .restoring .source } :=
    ⟨sound₃.kept.putSource gone₃, h.removals⟩
  have way := syncWay_beside sound₄.kept.valid .sources
  have placed : ((d₃.rename .restoring .source).syncWay place .sources).file .source = some (d₃.inode w.disk.next) := by
    have now₄ : (d₃.rename .restoring .source).now .source = some w.disk.next := by simp [Volume.rename, here₃]
    rw [Volume.file, way.source.now, now₄]
    rfl
  refine Runs.atomic ⟨sound₄.beside way, d₃.inode w.disk.next, restored, placed, ?_, ?_, ?_⟩ (fun _ => sound₄) sound₄
  · obtain rfl : (d₁.syncFile .restoring).inode w.disk.next = f := by simpa [Volume.file, here] using found
    simpa [d₃_eq, Volume.setAttributes, here] using content
  · by_contra differs
    exact same (.inl differs)
  · simp [d₃_eq, Volume.setAttributes, here]

end
end Smartwheel.HistoryArchive

/-! ### A file that is archived can be had at any time, whatever becomes of the calls that archive and restore it. -/
namespace Smartwheel.HistoryArchive
open Effect Disk
open Effect.Program hiding pure bind

variable {κ : Type} [DecidableEq κ] {c : Config κ} {original : Bytes} {attributes : Attributes} {first : Nat} {X : Set Bytes}
  {w w' w'' : World κ} {x : Bytes} {r : Record κ}

/-- A call of `archive_one` or of `restore` that ends anywhere, or a loss of power. -/
inductive Step (c : Config κ) : World κ → World κ → Prop where
  | archive {w : World κ} (row : Row κ) (capacity compressOnly : Bool) (fates : List Fate) :
    Step c w (archiveOne c row capacity compressOnly ⟨w, fates⟩).2.state
  | restore {w : World κ} (r : Record κ) (fates : List Fate) : Step c w (restore c r ⟨w, fates⟩).2.state
  | loss {w : World κ} {d : Disk κ} (lost : Volume.Lost place w.disk d) : Step c w { w with disk := d }

structure Start (original : Bytes) (attributes : Attributes) (first : Nat) (w : World κ) : Prop where
  valid : w.disk.Valid
  source : Original original attributes first w.disk
  receipt : ∀ e ∈ w.disk.disk .receipt, e = none
  removals : w.removals = []

def Recoverable (c : Config κ) (original : Bytes) (attributes : Attributes) (first : Nat) (d : Disk κ) : Prop :=
  Original original attributes first d ∨ ∃ x, Moved c original attributes x d

/-- A record that the receipt has, or that `archive_one` has returned. -/
def Known (c : Config κ) (w : World κ) (r : Record κ) (w' : World κ) : Prop :=
  (w'.disk.file .receipt).map Inode.content = some (.record r) ∨
    ∃ w₀ row capacity compressOnly fates, Path (Step c) w w₀ ∧
      (archiveOne c row capacity compressOnly ⟨w₀, fates⟩).1 = .value (.record r) ∧
      (archiveOne c row capacity compressOnly ⟨w₀, fates⟩).2.state = w'

omit [DecidableEq κ] in
theorem Start.sound (start : Start original attributes first w) : Sound c original attributes first ∅ w :=
  ⟨⟨start.valid, fun _ no => no.elim, .inl start.receipt, .inl start.source⟩, by simp [start.removals]⟩

theorem Step.sound (injective : Function.Injective c.sha) (step : Step c w w') (h : Sound c original attributes first X w) :
    Sound c original attributes first X w' := by
  cases step with
  | archive row capacity compressOnly fates =>
    exact (archiveOne_safe injective h capacity compressOnly).always (fun _ h => h) (fun _ _ h => h.1) (fun _ _ h => h) fates
  | restore r fates => exact (restore_safe h).always (fun _ h => h) (fun _ _ h => h.1) (fun _ _ h => h) fates
  | loss lost => exact ⟨h.kept.lost lost, h.removals⟩

theorem path_sound (injective : Function.Injective c.sha) (run : Path (Step c) w w') (h : Sound c original attributes first X w) :
    Sound c original attributes first X w' :=
  run.keeps (fun _ _ step h => step.sound injective h) h

omit [DecidableEq κ] in
theorem Sound.hold (h : Sound c original attributes first X w) (filed : Filed c original x w.disk) :
    Sound c original attributes first {x} w :=
  ⟨⟨h.kept.valid, fun y (held : y = x) => held ▸ filed, h.kept.receipt, h.kept.source⟩, h.removals⟩

theorem Known.filed (injective : Function.Injective c.sha) (h : Sound c original attributes first ∅ w)
    (run : Path (Step c) w w') (known : Known c w r w') :
    ∃ x, Filed c original x w'.disk ∧ Good c original attributes x r := by
  obtain found | ⟨w₀, row, capacity, compressOnly, fates, before, value, rfl⟩ := known
  · obtain ⟨f, found, content⟩ := Option.map_eq_some_iff.mp found
    obtain ⟨x, filed, -, good⟩ := (path_sound injective run h).kept.record found content
    exact ⟨x, filed, good⟩
  · have safe : Safe c original attributes first ∅ (archiveOne c row capacity compressOnly) _ w₀ :=
      archiveOne_safe injective (path_sound injective before h) capacity compressOnly
    have ran := (safe fates fun no => no.elim).2
    rw [value] at ran
    exact ran.2 r rfl

/-- `restore` leaves everything as it was where there is a file. -/
theorem restore_refuses (present : w.disk.present .source = true) (fates : List Fate) :
    (restore c r ⟨w, fates⟩).2.state = w ∧ (restore c r ⟨w, fates⟩).1 ≠ .value () := by
  have runs : (restore c r).Runs False (· = w) (fun _ _ => False) (fun _ => (· = w)) w := by
    refine Runs.atomic_bind (Runs.view_bind (Runs.raiseIf_bind (fun _ => rfl) fun no => ?_) (fun _ => rfl) rfl) (fun _ => rfl) rfl
    exact absurd present no
  have ran := (runs fates fun no => no.elim).2
  cases result : (restore c r ⟨w, fates⟩).1 with
  | value a => simp [result] at ran
  | raised e | cut => exact ⟨by simpa [result] using ran, by simp⟩

section
variable {β : Type} {G : β → World κ → Prop} {name : Name} {f : Inode (Content κ) Attributes} {b : Bytes}

omit [DecidableEq κ] in
theorem read_returns {k : Bytes → Part κ β} (found : w.disk.file name = some f) (content : f.content = .bytes b)
    (next : (k b).Returns G w) : (read name >>= k).Returns G w := by
  refine Returns.bind (F := fun b' w' => b' = b ∧ w' = w) ?_ ?_
  · refine Returns.bind (F := fun content' w' => content' = f.content ∧ w' = w) ?_ ?_
    · exact Returns.view_bind (Returns.need_bind found (Returns.pure ⟨rfl, rfl⟩))
    · rintro _ _ ⟨rfl, rfl⟩
      rw [content]
      exact Returns.pure ⟨rfl, rfl⟩
  · rintro _ _ ⟨rfl, rfl⟩
    exact next

omit [DecidableEq κ] in
theorem digest_returns {k : κ → Part κ β} (found : w.disk.file name = some f) (content : f.content = .bytes b)
    (next : (k (c.sha b)).Returns G w) : (digest c name >>= k).Returns G w := by
  refine Returns.bind (F := fun sha w' => sha = c.sha b ∧ w' = w) ?_ ?_
  · exact read_returns found content (Returns.pure ⟨rfl, rfl⟩)
  · rintro _ _ ⟨rfl, rfl⟩
    exact next

omit [DecidableEq κ] in
theorem stat_returns {k : Stat → Part κ β} (found : w.disk.file name = some f)
    (next : ∀ s, s.size = f.content.size → (k s).Returns G w) : (stat c name >>= k).Returns G w := by
  obtain ⟨i, here, -⟩ := Option.map_eq_some_iff.mp found
  have looked : ∃ s, statOf c w.disk name = some s := ⟨_, by simp only [statOf, here]; rfl⟩
  obtain ⟨s, looked⟩ := looked
  refine Returns.bind (F := fun s' w' => s' = s ∧ w' = w) ?_ ?_
  · exact Returns.view_bind (by rw [looked]; exact Returns.pure ⟨rfl, rfl⟩)
  · rintro _ _ ⟨rfl, rfl⟩
    exact next _ (statOf_file looked found).1

end

/-- Without faults `restore` returns where there is no file, nor one that an earlier `restore` left half-way. -/
theorem restore_returns (h : Sound c original attributes first X w) (filed : Filed c original x w.disk)
    (good : Good c original attributes x r) (absent : w.disk.present .source = false)
    (untaken : w.disk.present .restoring = false) : (restore c r).Returns (fun _ _ => True) w := by
  obtain ⟨f, found, content⟩ := filed.file h.kept.valid
  have decodes := filed.decodes
  refine Returns.atomic_bind (Returns.view_bind (Returns.raiseIf_bind (by simp [absent]) (digest_returns found content ?_)))
  refine Returns.raiseIf_bind (by simp [good.archive.1]) (Returns.atomic_bind (Returns.view_bind ?_))
  refine Returns.raiseIf_bind (by simp [untaken]) (read_returns found content (Returns.attempt_bind ?_))
  refine Returns.raiseIf_bind (by simp [decodes]) (Returns.atomic_bind ?_)
  set d₁ := w.disk.write .restoring (.bytes ((c.unxz x).getD [])) ⟨0o644, 0⟩ with d₁_eq
  have restored : (d₁.syncFile .restoring).file .restoring = some ⟨.bytes original, ⟨0o644, 0⟩, true, true⟩ := by
    simp [Volume.file, Volume.syncFile, d₁_eq, Volume.write, decodes]
  refine digest_returns restored rfl (stat_returns restored fun s size => Returns.raiseIf_bind ?_ ?_)
  · simp [good.original.1, good.original.2, size, Content.size]
  · exact Returns.atomic_bind (Returns.atomic_bind (Returns.atomic_bind (Returns.atomic trivial)))

/-- Of whatever calls of `archive_one` and `restore` on a file, each ending anywhere, with any losses of power: the
original bytes can be had, at the source or from a synced file that the synced receipt names; the source is unlinked
only in the latter case, as it was reviewed; and `restore` changes nothing where there is a file, and puts one with
the same bytes, permission bits and time where there is none. -/
theorem history_move_safe (injective : Function.Injective c.sha) (start : Start original attributes first w)
    (run : Path (Step c) w w') :
    Recoverable c original attributes first w'.disk ∧
    (∀ removal ∈ w'.removals, Removal c original attributes removal) ∧
    ∀ r, Known c w r w' → ∀ w'', Path (Step c) w' w'' →
      (∀ fates, w''.disk.present .source = true →
        (restore c r ⟨w'', fates⟩).2.state = w'' ∧ (restore c r ⟨w'', fates⟩).1 ≠ .value ()) ∧
      (∀ fates, (restore c r ⟨w'', fates⟩).1 = .value () →
        ∃ f, (restore c r ⟨w'', fates⟩).2.state.disk.file .source = some f ∧ f.content = .bytes original ∧
          f.attributes = ⟨attributes.mode &&& 0o777, attributes.mtime⟩) ∧
      (w''.disk.present .source = false → w''.disk.present .restoring = false →
        (restore c r ⟨w'', []⟩).1 = .value ()) := by
  have sound := path_sound injective run start.sound
  refine ⟨sound.kept.source, sound.removals, fun r known w'' later => ?_⟩
  obtain ⟨x, filed, good⟩ := known.filed injective start.sound run
  have sound'' := path_sound injective later (sound.hold filed)
  refine ⟨fun fates present => restore_refuses present fates, fun fates value => ?_, fun absent untaken => ?_⟩
  · have ran := (restore_safe (r := r) sound'' fates fun no => no.elim).2
    rw [value] at ran
    obtain ⟨-, f, b, found, content, sha, restored⟩ := ran
    obtain rfl : b = original := injective (sha.trans good.original.1)
    exact ⟨f, found, content, by rw [restored, good.attributes.1, good.attributes.2]⟩
  · obtain ⟨a, s, runs, -⟩ := restore_returns sound'' (sound''.kept.filed x rfl) good absent untaken
    rw [runs]

namespace Bench

def config : Config Bytes := ⟨id, some, id, fun _ _ => false, 1, "reports/maps/run.db3", "data/history_archive/reports/maps/run.db3.xz"⟩

def row : Row Bytes := ⟨3, 5, some [1, 2, 3], some 0, some 1, some 1⟩

def shared : Attributes := ⟨0o2644, 5⟩

def world : World Bytes where
  disk :=
    { now := fun name => if name = .source then some 0 else none
      disk := fun name => [if name = .source then some 0 else none]
      inode := fun _ => ⟨.bytes [1, 2, 3], shared, true, true⟩
      next := 1
      linked := fun place => decide (place = .sources) }
  removals := []

theorem start : Start [1, 2, 3] shared 0 world where
  valid := ⟨fun _ => List.mem_singleton_self _, fun name i there => by by_cases source : name = .source <;> simp_all [world]⟩
  source := ⟨rfl, fun e there => by simpa [world] using there, rfl⟩
  receipt := by simp [world]
  removals := rfl

def archived : World Bytes := (archiveOne config row true false ⟨world, []⟩).2.state

end Bench

/-- A file is archived, and goes. -/
theorem bench_recoverable : Bench.archived.disk.present .source = false ∧
    Recoverable Bench.config [1, 2, 3] Bench.shared 0 Bench.archived.disk :=
  ⟨by decide, (history_move_safe (fun _ _ same => same) Bench.start (.single (.archive Bench.row true false []))).1⟩

/-- The record that `archive_one` returns for a file with set-group-ID is restored without it. -/
theorem setgid_dropped : Start [1, 2, 3] Bench.shared 0 Bench.world ∧ Function.Injective Bench.config.sha ∧
    ∃ r, (archiveOne Bench.config Bench.row true false ⟨Bench.world, []⟩).1 = .value (.record r) ∧
      (restore Bench.config r ⟨Bench.archived, []⟩).1 = .value () ∧
      ((restore Bench.config r ⟨Bench.archived, []⟩).2.state.disk.file .source).map Inode.attributes = some ⟨0o644, 5⟩ ∧
      Bench.shared.mode ≠ 0o644 := by
  refine ⟨Bench.start, fun _ _ same => same, ?_⟩
  refine ⟨⟨.archived, Bench.config.path, Bench.config.archivePath, "xz", [1, 2, 3], 3, [1, 2, 3], 3, 0o644, 5⟩, ?_⟩
  decide

end Smartwheel.HistoryArchive
