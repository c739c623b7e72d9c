import Smartwheel.Effect.History
import Smartwheel.HistoryArchive.Transfer

/-! The bytes of an archived file can be had at any time: from the file, or from a compressed file that is named by
its receipt. Both are on the disk for good before the file goes. -/
namespace Smartwheel.HistoryArchive
open Disk

variable {κ : Type} {c : Config κ} {original : Bytes} {attributes : Attributes} {first : Nat} {X : Set Bytes} {d d' : Disk κ} {x : Bytes}
  {r : Record κ} {name : Name}

/-- A record of the move of `original` to the compressed `x`. -/
structure Good (c : Config κ) (original : Bytes) (attributes : Attributes) (x : Bytes) (r : Record κ) : Prop where
  path : r.path = c.path ∧ r.archivePath = c.archivePath ∧ r.codec = "xz"
  original : r.originalSha = c.sha original ∧ r.originalBytes = original.length
  archive : r.archiveSha = c.sha x ∧ r.archiveBytes = x.length
  attributes : r.originalMode = attributes.mode &&& 0o777 ∧ r.originalMtime = attributes.mtime

def Names (c : Config κ) (original : Bytes) (attributes : Attributes) (x : Bytes) (content : Content κ) : Prop :=
  ∃ r, content = .record r ∧ Good c original attributes x r

structure Filed (c : Config κ) (original : Bytes) (x : Bytes) (d : Disk κ) : Prop where
  decodes : c.unxz x = some original
  solid : d.Solid place .target (· = .bytes x)

structure Original (original : Bytes) (attributes : Attributes) (first : Nat) (d : Disk κ) : Prop where
  linked : d.linked .sources = true
  only : ∀ e ∈ d.disk .source, e = some first
  inode : d.inode first = ⟨.bytes original, attributes, true, true⟩

def Moved (c : Config κ) (original : Bytes) (attributes : Attributes) (x : Bytes) (d : Disk κ) : Prop :=
  Filed c original x d ∧ d.Solid place .receipt (Names c original attributes x)

/-- What every state of the disk has, when the compressed files of `X` have been there. -/
structure Kept (c : Config κ) (original : Bytes) (attributes : Attributes) (first : Nat) (X : Set Bytes) (d : Disk κ) : Prop where
  valid : d.Valid
  filed : ∀ x ∈ X, Filed c original x d
  receipt : (∀ e ∈ d.disk .receipt, e = none) ∨ ∃ x, Filed c original x d ∧ d.Only .receipt (Names c original attributes x)
  source : Original original attributes first d ∨ ∃ x, Moved c original attributes x d

theorem Filed.frame (h : Filed c original x d) (frame : Volume.Frame d d' .target) : Filed c original x d' :=
  ⟨h.decodes, h.solid.frame frame⟩

theorem Original.now (h : Original original attributes first d) (valid : d.Valid) : d.now .source = some first :=
  h.only _ (valid.now .source)

theorem Original.frame (h : Original original attributes first d) (valid : d'.Valid) (frame : Volume.Frame d d' .source) :
    Original original attributes first d' := by
  have there := valid.now .source
  rw [h.only _ (frame.disk _ there)] at there
  have same := frame.inode first there
  rw [h.inode] at same
  refine ⟨frame.linked _ h.linked, fun e there => h.only e (frame.disk e there), ?_⟩
  obtain ⟨content, attributes_, synced, kept⟩ := same
  cases inode : d'.inode first
  simp_all

theorem Moved.frame (h : Moved c original attributes x d) (target : Volume.Frame d d' .target)
    (receipt : Volume.Frame d d' .receipt) : Moved c original attributes x d' :=
  ⟨h.1.frame target, h.2.frame receipt⟩

theorem Kept.frame (h : Kept c original attributes first X d) (valid : d'.Valid) (source : Volume.Frame d d' .source)
    (target : Volume.Frame d d' .target) (receipt : Volume.Frame d d' .receipt) : Kept c original attributes first X d' := by
  refine ⟨valid, fun x held => (h.filed x held).frame target, ?_, ?_⟩
  · obtain none_ | ⟨x, filed, only⟩ := h.receipt
    · exact .inl fun e there => none_ e (receipt.disk e there)
    · exact .inr ⟨x, filed.frame target, only.frame receipt⟩
  · obtain is_original | ⟨x, moved⟩ := h.source
    · exact .inl (is_original.frame valid source)
    · exact .inr ⟨x, moved.frame target receipt⟩

theorem Filed.file (h : Filed c original x d) (valid : d.Valid) : ∃ f, d.file .target = some f ∧ f.content = .bytes x :=
  h.solid.file valid

theorem Filed.unique {y : Bytes} (h : Filed c original x d) (h' : Filed c original y d) (valid : d.Valid) : x = y := by
  obtain ⟨f, found, same⟩ := h.file valid
  obtain ⟨g, found', same'⟩ := h'.file valid
  obtain rfl : f = g := by simpa [found] using found'
  simpa [same] using same'

theorem Kept.names (h : Kept c original attributes first X d) (filed : Filed c original x d) :
    d.Only .receipt (Names c original attributes x) := by
  obtain none_ | ⟨y, other, only⟩ := h.receipt
  · intro i there
    exact absurd (none_ _ there) (by simp)
  · rwa [filed.unique other h.valid]

theorem Filed.lost (h : Filed c original x d) (lost : Volume.Lost place d d') : Filed c original x d' :=
  ⟨h.decodes, lost.solid h.solid⟩

theorem Kept.lost (h : Kept c original attributes first X d) (lost : Volume.Lost place d d') :
    Kept c original attributes first X d' := by
  refine ⟨lost.valid h.valid, fun x held => (h.filed x held).lost lost, ?_, ?_⟩
  · obtain none_ | ⟨x, filed, only⟩ := h.receipt
    · refine .inl fun e there => ?_
      simp only [lost.disk, List.mem_singleton] at there
      obtain before | ⟨gone, -⟩ := lost.name .receipt
      · exact there ▸ none_ _ before
      · exact there.trans gone
    · exact .inr ⟨x, filed.lost lost, lost.only only⟩
  · obtain is_original | ⟨x, filed, receipt⟩ := h.source
    · refine .inl ⟨lost.linked _ is_original.linked, fun e there => ?_, ?_⟩
      · simp only [lost.disk, List.mem_singleton] at there
        obtain before | ⟨-, unlinked⟩ := lost.name .source
        · exact there ▸ is_original.only _ before
        · simp [place, is_original.linked] at unlinked
      · have content := lost.content first (by rw [is_original.inode])
        have kept := lost.attributes first (by rw [is_original.inode])
        rw [is_original.inode] at content kept
        have synced := lost.synced first
        cases inode : d'.inode first
        simp_all
    · exact .inr ⟨x, filed.lost lost, lost.solid receipt⟩

end Smartwheel.HistoryArchive

/-! ### What the parts of a move and of a restoration keep, at each of their operations. -/
namespace Smartwheel.HistoryArchive
open Disk
open Effect.Program hiding pure bind

variable {κ α β : Type} {c : Config κ} {original : Bytes} {attributes : Attributes} {first : Nat} {X : Set Bytes} {w : World κ} {name : Name}

def Removal (c : Config κ) (original : Bytes) (attributes : Attributes) (removal : Row κ × Disk κ) : Prop :=
  (∃ x, Moved c original attributes x removal.2) ∧
    ∃ s f, statOf c removal.2 .source = some s ∧ removal.1.admits s ∧ removal.2.file .source = some f ∧
      f.content = .bytes original

structure Sound (c : Config κ) (original : Bytes) (attributes : Attributes) (first : Nat) (X : Set Bytes) (w : World κ) : Prop where
  kept : Kept c original attributes first X w.disk
  removals : ∀ removal ∈ w.removals, Removal c original attributes removal

/-- A part of a move: all its states are sound, and it ends with `F` if it does not raise. -/
abbrev Safe (c : Config κ) (original : Bytes) (attributes : Attributes) (first : Nat) (X : Set Bytes) (part : Part κ α)
    (F : α → World κ → Prop) (w : World κ) : Prop :=
  part.Runs False (Sound c original attributes first X) F (fun _ => Sound c original attributes first X) w

section
variable {k : α → Part κ β} {F : β → World κ → Prop}

theorem view_safe {f : World κ → α} (h : Sound c original attributes first X w)
    (next : Safe c original attributes first X (k (f w)) F w) : Safe c original attributes first X (view .os f >>= k) F w :=
  Runs.view_bind next (fun _ => h) h

theorem need_safe {o : Option α} (h : Sound c original attributes first X w)
    (next : ∀ a, o = some a → Safe c original attributes first X (k a) F w) :
    Safe c original attributes first X (need o .os >>= k) F w := by
  cases found : o with
  | none => exact Runs.raise h
  | some a => exact next a found

variable {k : Unit → Part κ β}

theorem check_safe {p : Prop} [Decidable p] {e : Fault} (h : Sound c original attributes first X w)
    (next : ¬p → Safe c original attributes first X (k ()) F w) : Safe c original attributes first X (raiseIf p e >>= k) F w :=
  Runs.raiseIf_bind (fun _ => h) next

theorem outside_safe {message : String} (h : Sound c original attributes first X w)
    (next : Safe c original attributes first X (k ()) F w) : Safe c original attributes first X (outside message >>= k) F w :=
  Runs.atomic_bind next (fun _ => h) h

theorem change_safe {f : Disk κ → Disk κ} (h : Sound c original attributes first X w)
    (next : Safe c original attributes first X (k ()) F { w with disk := f w.disk }) :
    Safe c original attributes first X (change f >>= k) F w :=
  Runs.atomic_bind next (fun _ => h) h

end

section
variable {k : Bytes → Part κ β} {F : β → World κ → Prop}

theorem present_safe {k : Bool → Part κ β} (h : Sound c original attributes first X w)
    (next : Safe c original attributes first X (k (w.disk.present name)) F w) :
    Safe c original attributes first X (present name >>= k) F w := view_safe h next

theorem contents_safe {k : Content κ → Part κ β} (h : Sound c original attributes first X w)
    (next : ∀ f, w.disk.file name = some f → Safe c original attributes first X (k f.content) F w) :
    Safe c original attributes first X (contents name >>= k) F w := by
  refine (Runs.bind (F := fun content w' => w' = w ∧ ∃ f, w.disk.file name = some f ∧ content = f.content) ?_ ?_)
  · exact view_safe h (need_safe h fun f found => Runs.pure ⟨rfl, f, found, rfl⟩)
  · rintro _ _ ⟨rfl, f, found, rfl⟩
    exact next f found

theorem read_safe (h : Sound c original attributes first X w)
    (next : ∀ f b, w.disk.file name = some f → f.content = .bytes b → Safe c original attributes first X (k b) F w) :
    Safe c original attributes first X (read name >>= k) F w := by
  refine (Runs.bind (F := fun b w' => w' = w ∧ ∃ f, w.disk.file name = some f ∧ f.content = .bytes b) ?_ ?_)
  · refine contents_safe h fun f found => ?_
    cases content : f.content with
    | bytes b => exact Runs.pure ⟨rfl, f, found, content⟩
    | record r => exact Runs.raise h
  · rintro b _ ⟨rfl, f, found, content⟩
    exact next f b found content

theorem digest_safe {k : κ → Part κ β} (h : Sound c original attributes first X w)
    (next : ∀ f b, w.disk.file name = some f → f.content = .bytes b → Safe c original attributes first X (k (c.sha b)) F w) :
    Safe c original attributes first X (digest c name >>= k) F w := by
  refine (Runs.bind (F := fun sha w' => w' = w ∧ ∃ f b, w.disk.file name = some f ∧ f.content = .bytes b ∧ sha = c.sha b) ?_ ?_)
  · exact read_safe h fun f b found content => Runs.pure ⟨rfl, f, b, found, content, rfl⟩
  · rintro _ _ ⟨rfl, f, b, found, content, rfl⟩
    exact next f b found content

theorem hashDecoded_safe {k : κ × Nat → Part κ β} (h : Sound c original attributes first X w)
    (next : ∀ f b decoded, w.disk.file name = some f → f.content = .bytes b → c.unxz b = some decoded →
      Safe c original attributes first X (k (c.sha decoded, decoded.length)) F w) :
    Safe c original attributes first X (hashDecoded c name >>= k) F w := by
  refine (Runs.bind (F := fun p w' => w' = w ∧ ∃ f b decoded, w.disk.file name = some f ∧ f.content = .bytes b ∧
    c.unxz b = some decoded ∧ p = (c.sha decoded, decoded.length)) ?_ ?_)
  · exact read_safe h fun f b found content => need_safe h fun decoded decodes =>
      Runs.pure ⟨rfl, f, b, decoded, found, content, decodes, rfl⟩
  · rintro _ _ ⟨rfl, f, b, decoded, found, content, decodes, rfl⟩
    exact next f b decoded found content decodes

theorem stat_safe {k : Stat → Part κ β} (h : Sound c original attributes first X w)
    (next : ∀ s, statOf c w.disk name = some s → Safe c original attributes first X (k s) F w) :
    Safe c original attributes first X (stat c name >>= k) F w := by
  refine (Runs.bind (F := fun s w' => w' = w ∧ statOf c w.disk name = some s) ?_ ?_)
  · exact view_safe h (Runs.need (fun s found => ⟨rfl, found⟩) fun _ => h)
  · rintro s _ ⟨rfl, found⟩
    exact next s found

theorem create_safe {content : Content κ} {torn : Nat → Content κ} {m : Attributes} {k : Unit → Part κ β}
    (every : ∀ content, Sound c original attributes first X { w with disk := w.disk.write name content m })
    (next : Safe c original attributes first X (k ()) F { w with disk := w.disk.write name content m }) :
    Safe c original attributes first X (create name content torn m >>= k) F w :=
  Runs.attempt_bind next (fun _ _ => every _) fun _ _ => every _

end

structure Beside (d d' : Disk κ) : Prop where
  valid : d'.Valid
  source : Volume.Frame d d' .source
  target : Volume.Frame d d' .target
  receipt : Volume.Frame d d' .receipt

variable {d : Disk κ}

theorem Beside.trans {d' d'' : Disk κ} (h : Beside d d') (h' : Beside d' d'') : Beside d d'' :=
  ⟨h'.valid, h.source.trans h'.source, h.target.trans h'.target, h.receipt.trans h'.receipt⟩

theorem Sound.beside {d' : Disk κ} (h : Sound c original attributes first X w) (beside : Beside w.disk d') :
    Sound c original attributes first X { w with disk := d' } :=
  ⟨h.kept.frame beside.valid beside.source beside.target beside.receipt, h.removals⟩

theorem write_beside (valid : d.Valid) {content : Content κ} {m : Attributes}
    (temporary : name = .targetTemporary ∨ name = .receiptTemporary ∨ name = .restoring) : Beside d (d.write name content m) := by
  refine ⟨Volume.write_valid valid, ?_, ?_, ?_⟩ <;> refine Volume.write_frame valid ?_ <;> rintro rfl <;> simp at temporary

theorem unlink_beside (valid : d.Valid)
    (temporary : name = .targetTemporary ∨ name = .receiptTemporary ∨ name = .restoring) : Beside d (d.unlink name) := by
  refine ⟨Volume.unlink_valid valid, ?_, ?_, ?_⟩ <;> refine Volume.unlink_frame ?_ <;> rintro rfl <;> simp at temporary

theorem syncFile_beside (valid : d.Valid) (name : Name) : Beside d (d.syncFile name) :=
  ⟨Volume.syncFile_valid valid, Volume.syncFile_frame, Volume.syncFile_frame, Volume.syncFile_frame⟩

theorem syncDir_beside (valid : d.Valid) (p : Place) : Beside d (d.syncDir place p) :=
  ⟨Volume.syncDir_valid valid, Volume.syncDir_frame valid, Volume.syncDir_frame valid, Volume.syncDir_frame valid⟩

theorem syncWay_beside (valid : d.Valid) (p : Place) : Beside d (d.syncWay place p) :=
  ⟨Volume.syncWay_valid valid, Volume.syncWay_frame valid, Volume.syncWay_frame valid, Volume.syncWay_frame valid⟩

variable {x : Bytes} {r : Record κ} {row : Row κ} {F : β → World κ → Prop}

theorem statOf_file {s : Stat} {f : Inode (Content κ) Attributes} (found : statOf c d name = some s)
    (file : d.file name = some f) : s.size = f.content.size ∧ s.attributes = f.attributes := by
  unfold statOf at found
  unfold Volume.file at file
  cases at_ : d.now name with
  | none => simp [at_] at file
  | some i =>
    simp only [at_, Option.map_some, Option.some.injEq] at found file
    subst found file
    exact ⟨rfl, rfl⟩

theorem Kept.putReceipt (h : Kept c original attributes first X d) (filed : Filed c original x d) {i : Nat}
    (here : d.now .receiptTemporary = some i) (synced : (d.inode i).synced = true)
    (content : Names c original attributes x (d.inode i).content) :
    Kept c original attributes first X (d.rename .receiptTemporary .receipt) := by
  have source : Volume.Frame d (d.rename .receiptTemporary .receipt) .source := Volume.rename_frame (by simp) (by simp)
  have target : Volume.Frame d (d.rename .receiptTemporary .receipt) .target := Volume.rename_frame (by simp) (by simp)
  refine ⟨Volume.rename_valid h.valid, fun y held => (h.filed y held).frame target, .inr ⟨x, filed.frame target, ?_⟩, ?_⟩
  · exact Volume.rename_only (by simp) (h.names filed) here synced content
  · obtain is_original | ⟨y, filed', receipt⟩ := h.source
    · exact .inl (is_original.frame (Volume.rename_valid h.valid) source)
    · obtain rfl := filed.unique filed' h.valid
      exact .inr ⟨x, filed.frame target, Volume.rename_solid (by simp) receipt here synced content⟩

theorem atomicJson_safe {k : Unit → Part κ β} (h : Sound c original attributes first X w) (filed : Filed c original x w.disk)
    (good : Good c original attributes x r)
    (next : ∀ d, Sound c original attributes first X { w with disk := d } → Filed c original x d → d.present .receipt = true →
      Safe c original attributes first X (k ()) F { w with disk := d }) :
    Safe c original attributes first X (atomicJson r >>= k) F w := by
  refine (Runs.bind (F := fun _ w' => ∃ d, w' = { w with disk := d } ∧ Sound c original attributes first X { w with disk := d } ∧
    Filed c original x d ∧ d.present .receipt = true) ?_ ?_)
  · have valid := h.kept.valid
    have written (content : Content κ) : Sound c original attributes first X
        { w with disk := w.disk.write .receiptTemporary content ⟨0o644, 0⟩ } := h.beside (write_beside valid (.inr (.inl rfl)))
    refine create_safe written ?_
    set d₁ := w.disk.write .receiptTemporary (.record r) ⟨0o644, 0⟩ with d₁_eq
    have sound₁ : Sound c original attributes first X { w with disk := d₁ } := written _
    have synced := syncFile_beside sound₁.kept.valid .receiptTemporary
    refine change_safe sound₁ ?_
    have sound₂ := sound₁.beside synced
    refine change_safe sound₂ ?_
    have filed₂ : Filed c original x (d₁.syncFile .receiptTemporary) :=
      (filed.frame (write_beside valid (.inr (.inl rfl))).target).frame synced.target
    have at_ : d₁.now .receiptTemporary = some w.disk.next := by simp [d₁_eq, Volume.write]
    have here : (d₁.syncFile .receiptTemporary).now .receiptTemporary = some w.disk.next := by
      rw [(Volume.syncFile_rest _ _).1, at_]
    have content : ((d₁.syncFile .receiptTemporary).inode w.disk.next).content = .record r := by
      rw [(Volume.syncFile_inode _).content]
      simp [d₁_eq, Volume.write]
    have sound₃ : Sound c original attributes first X
        { w with disk := (d₁.syncFile .receiptTemporary).rename .receiptTemporary .receipt } :=
      ⟨sound₂.kept.putReceipt filed₂ here (Volume.syncFile_synced at_) ⟨r, content, good⟩, h.removals⟩
    have last := syncDir_beside sound₃.kept.valid .receipts
    refine Runs.atomic ⟨_, rfl, sound₃.beside last, ?_, ?_⟩ (fun _ => sound₃) sound₃
    · exact (filed₂.frame (Volume.rename_frame (by simp) (by simp))).frame last.target
    · rw [Volume.present, last.receipt.now]
      simp [Volume.rename, here]
  · rintro - _ ⟨d, rfl, sound, filed, present⟩
    exact next d sound filed present

/-- What `remove` starts from. -/
structure Ready (c : Config κ) (original : Bytes) (attributes : Attributes) (first : Nat) (X : Set Bytes) (x : Bytes) (r : Record κ)
    (w : World κ) : Prop where
  sound : Sound c original attributes first X w
  filed : Filed c original x w.disk
  receipt : w.disk.Solid place .receipt (Names c original attributes x)
  good : Good c original attributes x r

theorem Kept.unlinkSource (h : Kept c original attributes first X d) (moved : Moved c original attributes x d) :
    Kept c original attributes first X (d.unlink .source) := by
  have target : Volume.Frame d (d.unlink .source) .target := Volume.unlink_frame (by simp)
  have receipt : Volume.Frame d (d.unlink .source) .receipt := Volume.unlink_frame (by simp)
  have moved' := moved.frame target receipt
  exact ⟨Volume.unlink_valid h.valid, fun y held => (h.filed y held).frame target, .inr ⟨x, moved'.1, moved'.2.only⟩, .inr ⟨x, moved'⟩⟩

section
variable [DecidableEq κ]

theorem verifySource_safe {k : Stat × κ → Part κ β} {expected : Option κ} (h : Sound c original attributes first X w)
    (next : ∀ s f b, statOf c w.disk .source = some s → row.admits s → w.disk.file .source = some f → f.content = .bytes b →
      (∀ sha ∈ expected, c.sha b = sha) → Safe c original attributes first X (k (s, c.sha b)) F w) :
    Safe c original attributes first X (verifySource c row expected >>= k) F w := by
  refine (Runs.bind (F := fun p w' => w' = w ∧ ∃ s f b, statOf c w.disk .source = some s ∧ row.admits s ∧
    w.disk.file .source = some f ∧ f.content = .bytes b ∧ (∀ sha ∈ expected, c.sha b = sha) ∧ p = (s, c.sha b)) ?_ ?_)
  · refine stat_safe h fun s found => check_safe h fun admitted => digest_safe h fun f b file content => ?_
    refine check_safe h fun hashes => stat_safe h fun s' found' => check_safe h fun _ => Runs.pure ?_
    refine ⟨rfl, s, f, b, found, not_not.mp admitted, file, content, fun sha expects => ?_, rfl⟩
    by_contra differs
    exact hashes (.inr ⟨sha, expects, differs⟩)
  · rintro _ _ ⟨rfl, s, f, b, found, admitted, file, content, expects, rfl⟩
    exact next s f b found admitted file content expects

theorem verifyReceipt_safe {k : Unit → Part κ β} (h : Sound c original attributes first X w)
    (next : Safe c original attributes first X (k ()) F w) : Safe c original attributes first X (verifyReceipt c row r >>= k) F w := by
  refine (Runs.bind (F := fun _ w' => w' = w) ?_ ?_)
  · refine check_safe h fun _ => present_safe h (check_safe h fun _ => stat_safe h fun s _ => digest_safe h fun f b _ _ => ?_)
    refine hashDecoded_safe h fun f b decoded _ _ _ => check_safe h fun _ => stat_safe h fun s' _ => ?_
    exact Runs.raiseIf (fun _ => h) fun _ => rfl
  · rintro - _ rfl
    exact next

theorem remove_safe (injective : Function.Injective c.sha) {k : Record κ → Part κ β} (ready : Ready c original attributes first X x r w)
    (next : ∀ r' w', Sound c original attributes first X w' → Filed c original x w'.disk → Good c original attributes x r' →
      Safe c original attributes first X (k r') F w') :
    Safe c original attributes first X (remove c row r >>= k) F w := by
  obtain ⟨h, filed, receipt, good⟩ := ready
  refine (Runs.bind (F := fun r' w' => Sound c original attributes first X w' ∧ Filed c original x w'.disk ∧
    Good c original attributes x r') ?_ ?_)
  · refine digest_safe h fun _ _ _ _ => check_safe h fun _ => outside_safe h ?_
    refine verifySource_safe h fun s f b found admitted file content expects => ?_
    have same : b = original := injective ((expects _ rfl).trans good.original.1)
    subst same
    have removal : Removal c b attributes (row, w.disk) := ⟨⟨x, filed, receipt⟩, s, f, found, admitted, file, content⟩
    have sound₁ : Sound c b attributes first X
        { disk := w.disk.unlink .source, removals := (row, w.disk) :: w.removals } := by
      refine ⟨h.kept.unlinkSource ⟨filed, receipt⟩, ?_⟩
      simpa only [List.mem_cons, forall_eq_or_imp] using ⟨removal, h.removals⟩
    refine Runs.atomic_bind (change_safe sound₁ ?_) (fun _ => h) h
    have beside := syncDir_beside sound₁.kept.valid .sources
    have sound₂ := sound₁.beside beside
    have filed₂ := (filed.frame (Volume.unlink_frame (by simp) : Volume.Frame w.disk (w.disk.unlink .source) .target)).frame beside.target
    have good' : Good c b attributes x { r with status := .archived } := ⟨good.path, good.original, good.archive, good.attributes⟩
    exact atomicJson_safe sound₂ filed₂ good' fun d sound filed₃ _ => Runs.pure ⟨sound, filed₃, good'⟩
  · rintro r' w' ⟨sound, filed', good'⟩
    exact next r' w' sound filed' good'

end
end Smartwheel.HistoryArchive
