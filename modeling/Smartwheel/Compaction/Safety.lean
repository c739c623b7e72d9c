import Smartwheel.Compaction.Rules

/-! What a run keeps that begins where every compressed file that it will trust is there for good. -/
namespace Smartwheel.Compaction
open Disk
open Effect.Program hiding pure bind

variable {κ α β : Type} {c : Config κ} {item : Item κ} {o : Originals} {w w' : World κ} {s : Selected κ} {r : Relative}

structure Truthful (c : Config κ) (item : Item κ) (o : Originals) : Prop where
  injective : Function.Injective fun b => c.sha (.bytes b)
  rows : ∀ s ∈ item.selected, s.row.sha = c.sha (.bytes (o.content s.path)) ∧ s.row.bytes = (o.content s.path).length

/-- A part of a run: all its states are sound, and it ensures `F` if it does not raise. -/
abbrev Safe (c : Config κ) (item : Item κ) (o : Originals) (part : Part κ α) (F : α → World κ → Prop) (w : World κ) : Prop :=
  part.Runs False (Sound c item o) F (fun _ => Sound c item o) w

theorem Sound.rests (h : Sound c item o w) : Runs.Rests False (Sound c item o) (fun _ : Fault => Sound c item o) w :=
  ⟨h, fun _ _ => h⟩

theorem Sound.apart {names : List Name} (h : Sound c item o w) (removals : w'.removals = w.removals)
    (apart : Volume.Apart names w.disk w'.disk) (planned : ∀ r, .file r ∉ names) (xz : ∀ r, .xz r ∉ names) :
    Sound c item o w' := ⟨h.kept.apart apart planned xz, removals ▸ h.removals⟩

theorem Truthful.decodes (truthful : Truthful c item o) (member : s ∈ item.selected) {content : Content κ}
    (decodes : c.decoded content = some (s.row.sha, s.row.bytes)) : Decodes c o s.path content := by
  obtain ⟨b, decoded, same⟩ := Option.map_eq_some_iff.mp decodes
  obtain ⟨x, raw, decoded⟩ := Option.bind_eq_some_iff.mp decoded
  have is_original : b = o.content s.path :=
    truthful.injective ((Prod.mk.inj same).1.trans (truthful.rows s member).1)
  refine ⟨x, ?_, is_original ▸ decoded⟩
  cases content <;> simp_all [Content.raw]

theorem same_cloud {s' : Selected κ} (member : s ∈ item.clouds) (member' : s' ∈ item.clouds) (same : s'.path = s.path) : s' = s :=
  List.inj_on_of_nodup_map item.once (mem_clouds.mp member').1 (mem_clouds.mp member).1 same

structure Steadfast (c : Config κ) (item : Item κ) (o : Originals) (w : World κ) : Prop where
  sound : Sound c item o w
  settled : Settled c item w.disk

theorem SettledAt.apart {d d' : Disk κ} {names : List Name} (h : SettledAt c s d) (apart : Volume.Apart names d d')
    (out : .xz s.path ∉ names ∧ .xzPartial s.path ∉ names) : SettledAt c s d' := by
  have xz := apart.frame _ out.1
  have part := apart.frame _ out.2
  refine ⟨fun there => (h.xz ?_).frame xz, fun gone f found decodes small => ?_⟩
  · rwa [Volume.present, ← xz.now]
  · obtain ⟨i, now, rfl⟩ := Option.map_eq_some_iff.mp found
    have same := part.inode i (now ▸ apart.valid.now _)
    rw [part.now] at now
    rw [same.content] at decodes small
    rw [Volume.present, xz.now] at gone
    exact same.synced (h.part gone _ (by simp [Volume.file, now]) decodes small)

theorem Settled.others {d d' : Disk κ} (h : Settled c item d) (member : s ∈ item.clouds)
    (apart : Volume.Apart [.xz s.path, .xzPartial s.path] d d') (mine : SettledAt c s d') : Settled c item d' := by
  intro s' member'
  by_cases same : s'.path = s.path
  · rwa [same_cloud member member' same]
  · exact (h s' member').apart apart (by simpa using same)

theorem Sound.steady : Steady (Sound c item o) where
  valid _ h := h.kept.valid
  root _ h := h.kept.root
  apart w w' h removals apart := h.apart removals apart (by simp [own]) (by simp [own])

theorem Steadfast.steady : Steady (Steadfast c item o) where
  valid _ h := h.sound.kept.valid
  root _ h := h.sound.kept.root
  apart w w' h removals apart := by
    refine ⟨h.sound.apart removals apart (by simp [own]) (by simp [own]), fun s member => ?_⟩
    exact (h.settled s member).apart apart (by simp [own])

structure Dealt (c : Config κ) (o : Originals) (s : Selected κ) (k : Compressed κ) (d : Disk κ) : Prop where
  original : k.original = s.path
  cloud : k.codec = .xz ∧ Archived c o s.path d ∨ k.codec = .identity ∧ Whole s.path d

theorem Dealt.frame {d d' : Disk κ} {k : Compressed κ} (h : Dealt c o s k d) (xz : Volume.Frame d d' (.xz s.path))
    (file : Volume.Frame d d' (.file s.path)) : Dealt c o s k d' :=
  ⟨h.original, h.cloud.imp (fun h => ⟨h.1, h.2.frame xz⟩) fun h => ⟨h.1, h.2.frame file⟩⟩

section
variable [DecidableEq κ]

theorem archived_safe {J : World κ → Prop} (h : J w) :
    (archived c s).Runs False J (fun k w' => J w' ∧ k.original = s.path ∧ k.codec = .xz) (fun _ => J) w := by
  refine (requireDecodes_keeps _ _ _ w h).bind fun _ w₁ h₁ => (statRow_keeps _ w₁ h₁).bind fun _ w₂ h₂ => ?_
  exact (digest_keeps _ w₂ h₂).bind fun _ w₃ h₃ => Runs.pure ⟨h₃, rfl, rfl⟩

theorem dropIncomplete_safe {k : Unit → Part κ β} {F : β → World κ → Prop} (h : Steadfast c item o w) (member : s ∈ item.clouds)
    (absent : w.disk.present (.xz s.path) = false)
    (next : ∀ w', Sound c item o w' → Volume.Apart [.xzPartial s.path] w.disk w'.disk →
      (∀ f, w'.disk.file (.xzPartial s.path) = some f → f.content.size < s.row.bytes → f.synced = true) →
      Safe c item o (k ()) F w') : Safe c item o (dropIncomplete c s >>= k) F w := by
  have sound := h.sound
  have valid := sound.kept.valid
  refine Runs.bind (F := fun _ w' => Sound c item o w' ∧ Volume.Apart [.xzPartial s.path] w.disk w'.disk ∧
    ∀ f, w'.disk.file (.xzPartial s.path) = some f → f.content.size < s.row.bytes → f.synced = true) ?_ ?_
  · refine present_rule sound.rests (Runs.when ?_ ?_)
    · intro _
      refine decodedHash_rule sound.rests (fun _ => sound) fun f found => Runs.when ?_ ?_
      · intro _
        refine readReceipt_rule sound.rests (fun _ _ => sound) fun _ _ _ _ => require_rule (fun _ => sound) fun _ => ?_
        refine outside_rule sound.rests (change_rule sound.rests ?_)
        have unlinked : Volume.Apart [.xzPartial s.path] w.disk (w.disk.unlink (.xzPartial s.path)) := .unlink valid
        have sound₁ : Sound c item o (onDisk (Volume.unlink (.xzPartial s.path)) w) :=
          sound.apart rfl unlinked (by simp) (by simp)
        have sync := synced_apart sound₁.kept.valid (folder (.xzPartial s.path))
        have gone : (synced (folder (.xzPartial s.path)) (onDisk (Volume.unlink (.xzPartial s.path)) w)).disk.file
            (.xzPartial s.path) = none := by
          rw [Volume.file, (sync.frame _ (by simp)).now]
          simp [onDisk, Volume.unlink]
        refine Runs.atomic ⟨sound₁.apart (by simp) sync (by simp) (by simp), unlinked.trans (sync.mono (by simp)), ?_⟩
          (fun _ => sound₁) sound₁
        intro f found
        simp [gone] at found
      · intro same
        refine ⟨sound, .refl valid, fun g found' small => ?_⟩
        obtain rfl := Option.some.inj (found.symm.trans found')
        exact (h.settled s member).part absent f found (not_not.mp same) small
    · intro gone
      refine ⟨sound, .refl valid, fun f found => ?_⟩
      exact absurd (Volume.present_of_file found) gone
  · rintro - w' ⟨sound', apart, fit⟩
    exact next w' sound' apart fit

omit [DecidableEq κ] in
/-- After `makePartial` there is a `.xz.partial`, synced if it is to be taken. -/
theorem makePartial_safe {k : Unit → Part κ β} {F : β → World κ → Prop} (sound : Sound c item o w)
    (fit : ∀ f, w.disk.file (.xzPartial s.path) = some f → f.content.size < s.row.bytes → f.synced = true)
    (next : ∀ w', Sound c item o w' → Volume.Apart [.xzPartial s.path] w.disk w'.disk →
      (∀ f, w'.disk.file (.xzPartial s.path) = some f → f.content.size < s.row.bytes → f.synced = true) →
      Safe c item o (k ()) F w') : Safe c item o (makePartial c s >>= k) F w := by
  have valid := sound.kept.valid
  refine Runs.bind (F := fun _ w' => Sound c item o w' ∧ Volume.Apart [.xzPartial s.path] w.disk w'.disk ∧
    ∀ f, w'.disk.file (.xzPartial s.path) = some f → f.content.size < s.row.bytes → f.synced = true) ?_ ?_
  · refine present_rule sound.rests (Runs.when ?_ fun _ => ⟨sound, .refl valid, fit⟩)
    intro _
    refine outside_rule sound.rests (contents_rule sound.rests (fun _ => sound) fun f _ => ?_)
    cases f.content.raw with
    | none => exact Runs.raise sound
    | some b =>
      have written (content : Content κ) : Volume.Apart [.xzPartial s.path] w.disk (w.disk.write (.xzPartial s.path) content 0) :=
        .write valid
      have sound₁ (content : Content κ) : Sound c item o (onDisk (Volume.write (.xzPartial s.path) content 0) w) :=
        sound.apart rfl (written content) (by simp) (by simp)
      refine create_rule sound.rests (fun _ => sound) (fun _ part => (sound₁ part).rests) ?_
      set w₁ := onDisk (Volume.write (.xzPartial s.path) (.bytes (c.xz b)) 0) w
      have sound₂ : Sound c item o w₁ := sound₁ _
      have sync : Volume.Apart [] w₁.disk (w₁.disk.syncFile (.xzPartial s.path)) := .syncFile sound₂.kept.valid
      refine Runs.atomic ⟨sound₂.apart rfl sync (by simp) (by simp), (written _).trans (sync.mono (by simp)), ?_⟩
        (fun _ => sound₂) sound₂
      intro f found _
      obtain ⟨i, here, rfl⟩ := Option.map_eq_some_iff.mp found
      rw [onDisk, (Volume.syncFile_rest _ _).1] at here
      exact Volume.syncFile_synced here
  · rintro - w' ⟨sound', apart, fit'⟩
    exact next w' sound' apart fit'

omit [DecidableEq κ] in
theorem Kept.putXz {d : Disk κ} {i : Nat} (h : Kept c item o d) (member : s ∈ item.clouds)
    (here : d.now (.xzPartial s.path) = some i) (sync : (d.inode i).synced = true)
    (decodes : Decodes c o s.path (d.inode i).content) (absent : d.present (.xz s.path) = false) :
    Kept c item o (d.rename (.xzPartial s.path) (.xz s.path)) := by
  have apart := Volume.Apart.rename (a := .xzPartial s.path) (b := .xz s.path) h.valid
  have planned (r : Relative) := apart.frame (.file r) (by simp)
  refine ⟨apart.valid, h.root, fun s' member' => (h.selected s' member').frame (planned _), fun p member' => ?_,
    fun s' member' => ?_, fun s' member' => ?_⟩
  · exact ⟨(h.protectedFiles p member').1.frame (planned _), (h.protectedFiles p member').2.frame (planned _)⟩
  · by_cases same : s'.path = s.path
    · obtain rfl := same_cloud member member' same
      exact Volume.rename_only (by simp) (h.archives _ member) here sync decodes
    · exact (h.archives s' member').frame (apart.frame _ (by simpa using same))
  · refine (h.recoverable s' member').imp (fun whole => whole.frame (planned _)) fun solid => ?_
    by_cases same : s'.path = s.path
    · obtain rfl := same_cloud member member' same
      obtain ⟨f, found, -⟩ := Volume.Solid.file solid h.valid
      simp [Volume.present_of_file found] at absent
    · exact solid.frame (apart.frame _ (by simpa using same))

section
variable {w₂ : World κ}
omit [DecidableEq κ]

theorem Steadfast.keepCloud (h : Steadfast c item o w) (member : s ∈ item.clouds) (sound : Sound c item o w₂)
    (apart : Volume.Apart [.xz s.path, .xzPartial s.path] w.disk w₂.disk) (absent : w₂.disk.present (.xz s.path) = false) :
    let w₃ := onDisk (Volume.unlink (.xzPartial s.path)) w₂
    let w₄ := synced (folder (.xzPartial s.path)) w₃
    Sound c item o w₃ ∧ Steadfast c item o w₄ ∧ Volume.Apart [.xz s.path, .xzPartial s.path] w.disk w₄.disk := by
  intro w₃ w₄
  have unlinked : Volume.Apart [.xzPartial s.path] w₂.disk w₃.disk := Volume.Apart.unlink sound.kept.valid
  have sound₃ : Sound c item o w₃ := sound.apart rfl unlinked (by simp) (by simp)
  have sync : Volume.Apart [] w₃.disk w₄.disk := synced_apart sound₃.kept.valid _
  have all : Volume.Apart [.xz s.path, .xzPartial s.path] w.disk w₄.disk :=
    apart.trans ((unlinked.trans (sync.mono (by simp))).mono (by simp))
  have no_xz : w₄.disk.present (.xz s.path) = false := by
    rw [(sync.frame _ (by simp)).present, (unlinked.frame _ (by simp)).present, absent]
  have no_part : w₄.disk.file (.xzPartial s.path) = none := by
    rw [Volume.file, (sync.frame _ (by simp)).now]
    simp [w₃, onDisk, Volume.unlink]
  refine ⟨sound₃, ⟨sound₃.apart (by simp [w₄]) sync (by simp) (by simp), h.settled.others member all ⟨?_, ?_⟩⟩, all⟩
  · simp [no_xz]
  · simp [no_part]

theorem Steadfast.putCloud {i : Nat} (h : Steadfast c item o w) (member : s ∈ item.clouds) (sound : Sound c item o w₂)
    (apart : Volume.Apart [.xz s.path, .xzPartial s.path] w.disk w₂.disk) (absent : w₂.disk.present (.xz s.path) = false)
    (here : w₂.disk.now (.xzPartial s.path) = some i) (sync : (w₂.disk.inode i).synced = true)
    (decodes : Decodes c o s.path (w₂.disk.inode i).content) :
    let w₃ := onDisk (Volume.rename (.xzPartial s.path) (.xz s.path)) w₂
    let w₄ := synced (folder (.xz s.path)) w₃
    Sound c item o w₃ ∧ Steadfast c item o w₄ ∧ Archived c o s.path w₄.disk ∧
      Volume.Apart [.xz s.path, .xzPartial s.path] w.disk w₄.disk := by
  intro w₃ w₄
  have renamed : Volume.Apart [.xzPartial s.path, .xz s.path] w₂.disk w₃.disk := Volume.Apart.rename sound.kept.valid
  have sound₃ : Sound c item o w₃ := ⟨sound.kept.putXz member here sync decodes absent, sound.removals⟩
  have synced_ : Volume.Apart [] w₃.disk w₄.disk := synced_apart sound₃.kept.valid _
  have all : Volume.Apart [.xz s.path, .xzPartial s.path] w.disk w₄.disk :=
    apart.trans ((renamed.trans (synced_.mono (by simp))).mono (by simp [or_comm]))
  have filed : Archived c o s.path w₄.disk := by
    have now₃ : w₃.disk.now (.xz s.path) = some i := by simp [w₃, onDisk, Volume.rename, here]
    exact synced_here now₃ sync decodes (sound₃.kept.selected s (mem_clouds.mp member).1).linked
  refine ⟨sound₃, ⟨sound₃.apart (by simp [w₄]) synced_ (by simp) (by simp), h.settled.others member all ⟨fun _ => ?_, ?_⟩⟩,
    filed, all⟩
  · exact filed.mono fun _ _ => trivial
  · intro absent₄
    obtain ⟨f, found, -⟩ := Volume.Solid.file filed all.valid
    simp [Volume.present_of_file found] at absent₄

end

/-- `compress_ply` leaves the cloud compressed for good, or kept. -/
theorem compressPly_safe (truthful : Truthful c item o) (h : Steadfast c item o w) (member : s ∈ item.clouds) :
    Safe c item o (compressPly c s) (fun k w' => Steadfast c item o w' ∧ Dealt c o s k w'.disk ∧
      Volume.Apart [.xz s.path, .xzPartial s.path] w.disk w'.disk) w := by
  have sound := h.sound
  have valid := sound.kept.valid
  refine present_rule sound.rests ?_
  cases absent : w.disk.present (.xz s.path) with
  | true =>
    have solid := (h.settled s member).xz absent
    have filed : Archived c o s.path w.disk := ⟨solid.linked, solid.there, sound.kept.archives s member⟩
    refine (archived_safe (J := (· = w)) rfl).weaken ?_ ?_ ?_
    · rintro _ rfl
      exact sound
    · rintro k _ ⟨rfl, original, codec⟩
      exact ⟨h, ⟨original, .inl ⟨codec, filed⟩⟩, .refl valid⟩
    · rintro _ _ rfl
      exact sound
  | false =>
    refine present_rule sound.rests (require_rule (fun _ => sound) fun there => ?_)
    refine Runs.bind (F := fun _ => (w = ·)) ((verifyFile_keeps (J := (w = ·)) _ _ w rfl).weaken ?_ (fun _ _ => id) ?_) ?_
    · rintro _ rfl
      exact sound
    · rintro _ _ rfl
      exact sound
    rintro - _ rfl
    refine dropIncomplete_safe h member absent fun w₁ sound₁ apart₁ fit₁ => ?_
    refine makePartial_safe sound₁ fit₁ fun w₂ sound₂ apart₂ fit₂ => ?_
    have apart := apart₁.trans apart₂
    refine requireDecodes_rule sound₂.rests (fun _ => sound₂) (fun _ _ _ => sound₂) fun f found decodes => ?_
    refine statRow_rule sound₂.rests (fun _ => sound₂) fun i here => outside_rule sound₂.rests ?_
    obtain rfl : w₂.disk.inode i = f := by simpa [Volume.file, here] using found
    have absent₂ : w₂.disk.present (.xz s.path) = false := (apart.frame _ (by simp)).present.trans absent
    have apart₂ : Volume.Apart [.xz s.path, .xzPartial s.path] w.disk w₂.disk := apart.mono (by simp)
    split
    · obtain ⟨sound₃, steadfast, all⟩ := h.keepCloud member sound₂ apart₂ absent₂
      have whole : Whole s.path w.disk := (sound.kept.selected s (mem_clouds.mp member).1).whole (by
        simpa [Volume.present, Option.isSome_iff_ne_none] using there)
      refine change_rule sound₂.rests (syncAt_rule sound₃.rests (Runs.pure ⟨steadfast, ⟨rfl, .inr ⟨rfl, ?_⟩⟩, all⟩))
      exact whole.frame (all.frame _ (by simp))
    · rename_i small
      obtain ⟨sound₃, steadfast, archived_, all⟩ := h.putCloud member sound₂ apart₂ absent₂ here
        (fit₂ _ found (Nat.lt_of_not_le small)) (truthful.decodes (mem_clouds.mp member).1 decodes)
      refine change_rule sound₂.rests (syncAt_rule sound₃.rests ?_)
      refine (archived_safe (J := (· = synced _ _)) rfl).weaken ?_ ?_ ?_
      · rintro _ rfl
        exact steadfast.sound
      · rintro k _ ⟨rfl, original, codec⟩
        exact ⟨steadfast, ⟨original, .inl ⟨codec, archived_⟩⟩, all⟩
      · rintro _ _ rfl
        exact steadfast.sound

theorem compressAll_safe (truthful : Truthful c item o) {clouds : List (Selected κ)} (sub : ∀ s ∈ clouds, s ∈ item.clouds)
    (once : (clouds.map Selected.path).Nodup) (h : Steadfast c item o w) :
    Safe c item o (collect (compressPly c) clouds) (fun compressed w' => Steadfast c item o w' ∧
      (∀ s ∈ clouds, ∃ k ∈ compressed, Dealt c o s k w'.disk) ∧
      Volume.Apart (clouds.flatMap fun s => [.xz s.path, .xzPartial s.path]) w.disk w'.disk) w := by
  induction clouds generalizing w with
  | nil => exact Runs.pure ⟨h, by simp, .refl h.sound.kept.valid⟩
  | cons s clouds ih =>
    simp only [List.map_cons, List.nodup_cons, List.mem_map, not_exists, not_and] at once
    refine (compressPly_safe truthful h (sub s (List.mem_cons_self ..))).bind ?_
    rintro k w₁ ⟨h₁, dealt, apart₁⟩
    refine (ih (fun s' member => sub s' (List.mem_cons_of_mem _ member)) once.2 h₁).bind ?_
    rintro compressed w₂ ⟨h₂, all, apart₂⟩
    refine Runs.pure ⟨h₂, ?_, ?_⟩
    · rw [List.forall_mem_cons]
      refine ⟨⟨k, List.mem_cons_self .., dealt.frame (apart₂.frame _ ?_) (apart₂.frame _ (by simp))⟩, fun s' member => ?_⟩
      · simpa using fun s' member same => once.1 s' member same.symm
      · obtain ⟨k', there, dealt'⟩ := all s' member
        exact ⟨k', List.mem_cons_of_mem _ there, dealt'⟩
    · rw [List.flatMap_cons]
      exact (apart₁.mono fun n => List.mem_append_left _).trans (apart₂.mono fun n => List.mem_append_right _)

omit [DecidableEq κ] in
theorem publish_safe {J : World κ → Prop} (steady : Steady J) {temporary name : Name} (mine : temporary ∈ own ∧ name ∈ own)
    (different : temporary ≠ name) (root : folder name = []) (content : Content κ) {check : Part κ Unit}
    (looks : ∀ w, check.Keeps (w = ·)) (h : J w) :
    (publish temporary name content check).Runs False J
      (fun _ w' => J w' ∧ w'.disk.Solid folder name (· = content)) (fun _ => J) w := by
  have valid := steady.valid w h
  have written (content : Content κ) : J (onDisk (Volume.write temporary content 0) w) :=
    steady.apart w _ h rfl ((Volume.Apart.write valid).mono (by simpa using mine.1))
  have rests {w : World κ} (h : J w) : Runs.Rests False J (fun _ : Fault => J) w := ⟨h, fun _ _ => h⟩
  refine create_rule (rests h) (fun _ => h) (fun _ part => rests (written part)) ?_
  set w₁ := onDisk (Volume.write temporary content 0) w with w₁_eq
  have h₁ : J w₁ := written content
  refine Runs.atomic_bind ?_ (fun _ => h₁) h₁
  set w₂ := onDisk (Volume.syncFile temporary) w₁ with w₂_eq
  have h₂ : J w₂ := steady.apart w₁ _ h₁ rfl ((Volume.Apart.syncFile (steady.valid w₁ h₁)).mono (by simp))
  refine Runs.bind ((looks w₂ w₂ rfl).weaken ?_ (fun _ _ => id) ?_) ?_
  · rintro _ rfl
    exact h₂
  · rintro _ _ rfl
    exact h₂
  rintro - _ rfl
  set w₃ := onDisk (Volume.rename temporary name) w₂ with w₃_eq
  have h₃ : J w₃ := steady.apart w₂ _ h₂ rfl ((Volume.Apart.rename (steady.valid w₂ h₂)).mono (by simpa using mine))
  refine Runs.atomic_bind ?_ (fun _ => h₂) h₂
  have at_ : w₁.disk.now temporary = some w.disk.next := by simp [w₁_eq, onDisk, Volume.write]
  have at₂ : w₂.disk.now temporary = some w.disk.next := by rw [w₂_eq, onDisk, (Volume.syncFile_rest _ _).1, at_]
  have now₃ : w₃.disk.now name = some w.disk.next := by simp [w₃_eq, onDisk, Volume.rename, at₂, different.symm]
  refine Runs.atomic ⟨steady.apart w₃ _ h₃ (synced_removals _) ((synced_apart (steady.valid w₃ h₃) _).mono (by simp)), ?_⟩ (fun _ => h₃) h₃
  refine synced_here now₃ (Volume.syncFile_synced at_) ?_ (root ▸ steady.root w₃ h₃)
  show (w₂.disk.inode w.disk.next).content = content
  rw [w₂_eq, onDisk, (Volume.syncFile_inode _).content, w₁_eq]
  simp [onDisk, Volume.write]

omit [DecidableEq κ] in
theorem writeReceipt_safe {J : World κ → Prop} (steady : Steady J) (state : Receipt κ) (h : J w) :
    (writeReceipt state).Runs False J (fun _ w' => J w' ∧ w'.disk.Solid folder .receipt (· = .receipt state)) (fun _ => J) w :=
  (clear_keeps steady (by decide) w h).bind fun _ _ h' =>
    publish_safe steady (by decide) (by decide) rfl _ (fun _ => Keeps.pure _) h'

structure Pruning (c : Config κ) (item : Item κ) (o : Originals) (kept : List Relative) (w : World κ) : Prop where
  sound : Sound c item o w
  receipt : w.disk.Solid folder .receipt fun content => ∃ state, content = .receipt state ∧ state.status = .ready
  clouds : ∀ s ∈ item.clouds, Archived c o s.path w.disk ∨ s.path ∈ kept ∧ Whole s.path w.disk

omit [DecidableEq κ] in
theorem Pruning.unlink {kept : List Relative} (h : Pruning c item o kept w) (member : s ∈ item.selected) (out : s.path ∉ kept) :
    Pruning c item o kept (unlinkPlanned s.path w) := by
  have kept_ := h.sound.kept
  have apart : Volume.Apart [.file s.path] w.disk (w.disk.unlink (.file s.path)) := .unlink kept_.valid
  have stays (s' : Selected κ) (member' : s' ∈ item.clouds) :
      Archived c o s'.path (w.disk.unlink (.file s.path)) ∨ s'.path ∈ kept ∧ Whole s'.path (w.disk.unlink (.file s.path)) := by
    refine (h.clouds s' member').imp (fun h => h.frame (apart.frame _ (by simp))) fun h => ⟨h.1, h.2.frame (apart.frame _ ?_)⟩
    simpa using fun same : s'.path = s.path => out (same ▸ h.1)
  refine ⟨⟨⟨apart.valid, kept_.root, fun s' member' => (kept_.selected s' member').unlink, fun p member' => ?_, fun s' member' => ?_,
    fun s' member' => (stays s' member').symm.imp And.right id⟩, ?_⟩, h.receipt.frame (apart.frame _ (by simp)), stays⟩
  · have frame := apart.frame (.file p.1) (by simpa using (item.apart s member p member').symm)
    exact ⟨(kept_.protectedFiles p member').1.frame frame, (kept_.protectedFiles p member').2.frame frame⟩
  · exact (kept_.archives s' member').frame (apart.frame _ (by simp))
  · refine List.forall_mem_cons.mpr ⟨⟨h.receipt, fun s' member' => ?_⟩, h.sound.removals⟩
    exact (h.clouds s' member').imp id fun h => ⟨fun same : s'.path = s.path => out (same ▸ h.1), h.2⟩

omit [DecidableEq κ] in
theorem prune_safe {compressed : List (Compressed κ)} (h : Pruning c item o (keptPly compressed) w) :
    Safe c item o (prune c item compressed) (fun _ => Sound c item o) w := by
  refine (Runs.each (K := fun rest w => Pruning c item o (keptPly compressed) w ∧
    ∀ s ∈ rest, s ∈ item.selected ∧ s.path ∉ keptPly compressed) ⟨h, by simp⟩ ?_).weaken (fun _ => id) (fun _ _ h => h.1.sound)
    fun _ _ => id
  rintro s rest w ⟨h, left⟩
  obtain ⟨⟨member, out⟩, later⟩ := List.forall_mem_cons.mp left
  have rests := h.sound.rests
  refine present_rule rests (Runs.when ?_ fun _ => ⟨h, later⟩)
  intro _
  refine statRow_rule rests (fun _ => h.sound) fun i _ => require_rule (fun _ => h.sound) fun _ => outside_rule rests ?_
  exact Runs.atomic ⟨h.unlink member out, later⟩ (fun _ => h.sound) h.sound

theorem ready_safe (truthful : Truthful c item o) {plan : κ} {state : Option (Receipt κ)} (h : Steadfast c item o w) :
    Safe c item o (ready c item plan state) (fun compressed => Pruning c item o (keptPly compressed)) w := by
  have keeps {x : Part κ Unit} {w : World κ} (h : x.Keeps (Steadfast c item o)) (here : Steadfast c item o w) :
      Safe c item o x (fun _ => Steadfast c item o) w :=
    (h w here).weaken (fun _ h => h.sound) (fun _ _ h => h) fun _ _ h => h.sound
  refine (keeps (backupManifest_keeps Steadfast.steady) h).bind fun _ w₁ h₁ => ?_
  refine (keeps (Keeps.when (writeReceipt_keeps Steadfast.steady _)) h₁).bind fun _ w₂ h₂ => ?_
  have once : (item.clouds.map Selected.path).Nodup := item.once.sublist (List.filter_sublist.map _)
  refine (compressAll_safe truthful (fun _ => id) once h₂).bind ?_
  rintro compressed w₃ ⟨h₃, dealt, -⟩
  refine outside_rule h₃.sound.rests (outside_rule h₃.sound.rests ?_)
  -- the clouds stay as they are while the receipt is written
  have steady : Steady fun w => Steadfast c item o w ∧ ∀ s ∈ item.clouds, ∃ k ∈ compressed, Dealt c o s k w.disk := by
    refine ⟨fun w h => h.1.sound.kept.valid, fun w h => h.1.sound.kept.root, fun w w' h removals apart => ?_⟩
    refine ⟨Steadfast.steady.apart w w' h.1 removals apart, fun s member => ?_⟩
    obtain ⟨k, there, dealt⟩ := h.2 s member
    exact ⟨k, there, dealt.frame (apart.frame _ (by simp [own])) (apart.frame _ (by simp [own]))⟩
  refine Runs.bind ((writeReceipt_safe steady ⟨.ready, plan, compressed, none⟩ ⟨h₃, dealt⟩).weaken (fun _ h => h.1.sound)
    (fun _ _ => id) fun _ _ h => h.1.sound) ?_
  rintro - w₄ ⟨⟨h₄, dealt₄⟩, receipt⟩
  refine Runs.pure ⟨h₄.sound, receipt.mono fun content same => ⟨_, same, rfl⟩, fun s member => ?_⟩
  obtain ⟨k, there, original, archived_ | ⟨identity, whole⟩⟩ := dealt₄ s member
  · exact .inl archived_.2
  · refine .inr ⟨?_, whole⟩
    rw [← original]
    exact List.mem_map_of_mem (List.mem_filter.mpr ⟨there, by simp [identity]⟩)

theorem complete_safe {plan : κ} {compressed : List (Compressed κ)} (h : Pruning c item o (keptPly compressed) w) :
    Safe c item o (complete c item plan compressed) (fun _ => Sound c item o) w := by
  have steady : Steady (Sound c item o) := Sound.steady
  refine (prune_safe h).bind fun _ w₁ h₁ => ?_
  refine (Keeps.each fun d => syncAt_keeps steady d).bind (fun _ => ?_) w₁ h₁
  refine (Keeps.each fun p => verifyFile_keeps _ _).bind fun _ => (packManifest_keeps steady _).bind fun _ => ?_
  refine (writeNote_keeps steady).bind fun _ => (digest_keeps _).bind fun _ => (writeReceipt_keeps steady _).bind fun _ => ?_
  exact (outside_keeps _).bind fun _ => verifyCompacted_keeps plan

theorem compactRun_safe (truthful : Truthful c item o) {plan : κ} (h : Steadfast c item o w) :
    Safe c item o (compactRun c item plan) (fun _ => Sound c item o) w := by
  refine ((recognise_keeps plan w h).weaken (fun _ h => h.sound) (fun _ _ => id) fun _ _ h => h.sound).bind fun state w₁ h₁ => ?_
  split
  · exact (verifyCompacted_keeps plan w₁ h₁).weaken (fun _ h => h.sound) (fun _ _ h => h.sound) fun _ _ h => h.sound
  · exact (ready_safe truthful h₁).bind fun compressed w₂ h₂ => complete_safe h₂

end
end Smartwheel.Compaction
