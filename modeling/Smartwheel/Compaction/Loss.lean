import Smartwheel.Compaction.Safety

/-! No cloud is lost, as long as no run begins where it would trust a compressed file that a loss of power can spoil. -/
namespace Smartwheel.Compaction
open Effect Disk
open Effect.Program hiding pure bind

section
variable {κ : Type} [DecidableEq κ] {c : Config κ} {item : Item κ} {o : Originals} {plan : κ} {w w' : World κ} {P : Disk κ → Prop}

/-- A run that ends anywhere and begins where the disk is `P`, or a loss of power. -/
inductive Step (c : Config κ) (item : Item κ) (plan : κ) (P : Disk κ → Prop) : World κ → World κ → Prop where
  | compact {w : World κ} (begins : P w.disk) (fates : List Fate) :
    Step c item plan P w (compactRun c item plan ⟨w, fates⟩).2.state
  | loss {w w' : World κ} (lost : Lost w w') : Step c item plan P w w'

structure Present (o : Originals) (r : Relative) (d : Disk κ) : Prop where
  linked : d.linked r.dropLast = true
  entries : ∀ e ∈ d.disk (.file r), e = some (o.inode r) ∧ d.inode (o.inode r) = o.file r

structure Start (c : Config κ) (item : Item κ) (o : Originals) (w : World κ) : Prop where
  valid : w.disk.Valid
  root : w.disk.linked [] = true
  files : ∀ r ∈ item.planned, Present o r w.disk
  nothing : ∀ n, (∀ r, n ≠ .file r) → ∀ e ∈ w.disk.disk n, e = none
  rows : ∀ s ∈ item.selected, s.row.sha = c.sha (.bytes (o.content s.path)) ∧ s.row.bytes = (o.content s.path).length
  removals : w.removals = []

omit [DecidableEq κ] in
theorem Present.planned {r : Relative} {d : Disk κ} (h : Present o r d) : Planned o r d ∧ Whole r d := by
  have whole : Whole r d := fun there => by simpa using (h.entries none there).1
  exact ⟨⟨h.linked, fun e there => .inr (h.entries e there), fun _ => whole⟩, whole⟩

omit [DecidableEq κ] in
theorem Planned.present {r : Relative} {d : Disk κ} (h : Planned o r d) (whole : Whole r d) : Present o r d :=
  ⟨h.linked, fun e there => (h.entries e there).resolve_left fun gone => whole (gone ▸ there)⟩

omit [DecidableEq κ] in
theorem Start.sound (start : Start c item o w) : Sound c item o w := by
  have files (r : Relative) (member : r ∈ item.planned) := (start.files r member).planned
  have selected (s : Selected κ) (member : s ∈ item.selected) := files s.path
    (List.mem_append_left _ (List.mem_map_of_mem member))
  refine ⟨⟨start.valid, start.root, fun s member => (selected s member).1, fun p member => ?_, fun s member i there => ?_,
    fun s member => .inl (selected s (mem_clouds.mp member).1).2⟩, by simp [start.removals]⟩
  · exact files p.1 (List.mem_append_right _ (List.mem_map_of_mem member))
  · simpa using start.nothing (.xz s.path) (by simp) _ there

theorem Step.sound (injective : Function.Injective fun b => c.sha (.bytes b))
    (rows : ∀ s ∈ item.selected, s.row.sha = c.sha (.bytes (o.content s.path)) ∧ s.row.bytes = (o.content s.path).length)
    (step : Step c item plan (Settled c item) w w') (h : Sound c item o w) : Sound c item o w' := by
  cases step with
  | compact settled fates =>
    exact (compactRun_safe ⟨injective, rows⟩ ⟨h, settled⟩).always (fun _ => id) (fun _ _ => id) (fun _ _ => id) fates
  | loss lost => exact ⟨h.kept.lost lost.disk, lost.removals ▸ h.removals⟩

/-- Of whatever runs, each ending anywhere, with any losses of power, that begin with compressed files no loss of
power can spoil: every cloud can be had afterwards, from its original or a compressed file that decodes to it;
protected files stay; and planned files go only where the receipt says so for good, all clouds compressed for good or
kept. -/
theorem compaction_safe (injective : Function.Injective fun b => c.sha (.bytes b)) (start : Start c item o w)
    (run : Path (Step c item plan (Settled c item)) w w') :
    (∀ s ∈ item.clouds, Present o s.path w'.disk ∨ Archived c o s.path w'.disk) ∧
    (∀ p ∈ item.protectedFiles, Present o p.1 w'.disk) ∧
    ∀ removal ∈ w'.removals, Removal c item o removal := by
  have sound : Sound c item o w' := run.keeps (fun _ _ step h => step.sound injective start.rows h) start.sound
  refine ⟨fun s member => ?_, fun p member => ?_, sound.removals⟩
  · exact (sound.kept.recoverable s member).imp_left (sound.kept.selected s (mem_clouds.mp member).1).present
  · exact (sound.kept.protectedFiles p member).1.present (sound.kept.protectedFiles p member).2

structure Ordinary (w : World κ) : Prop where
  valid : w.disk.Valid
  root : w.disk.linked [] = true

omit [DecidableEq κ] in
theorem Ordinary.apart {names : List Name} (h : Ordinary w) (apart : Volume.Apart names w.disk w'.disk) : Ordinary w' :=
  ⟨apart.valid, apart.linked _ h.root⟩

omit [DecidableEq κ] in
theorem ordinary_steady : Steady (Ordinary (κ := κ)) := ⟨fun _ h => h.valid, fun _ h => h.root, fun _ _ h _ apart => h.apart apart⟩

omit [DecidableEq κ] in
theorem change_ordinary {f : Disk κ → Disk κ} {names : List Name} (apart : ∀ d : Disk κ, d.Valid → Volume.Apart names d (f d)) :
    (change f).Keeps Ordinary := Keeps.atomic fun _ h => h.apart (apart _ h.valid)

theorem compressPly_ordinary (s : Selected κ) : (compressPly c s).Keeps Ordinary := by
  have sync (n : Name) : (syncFolder n : Part κ Unit).Keeps Ordinary := syncAt_keeps ordinary_steady _
  have unlink (n : Name) : (change (Volume.unlink n) : Part κ Unit).Keeps Ordinary := change_ordinary fun _ => .unlink
  have dropped : (dropIncomplete c s).Keeps Ordinary := by
    refine Keeps.view.bind fun _ => Keeps.when ((decodedHash_keeps _).bind fun _ => Keeps.when ?_)
    exact readReceipt_keeps.bind fun _ => require_keeps.bind fun _ => (outside_keeps _).bind fun _ => (unlink _).bind fun _ => sync _
  have made : (makePartial c s).Keeps Ordinary := by
    refine Keeps.view.bind fun _ => Keeps.when ((outside_keeps _).bind fun _ => (contents_keeps _).bind fun _ => Keeps.need.bind fun b => ?_)
    have written (content : Content κ) (w : World κ) (h : Ordinary w) :
        Ordinary (onDisk (Volume.write (.xzPartial s.path) content 0) w) := h.apart (.write h.valid)
    have creates (content : Content κ) : (create (.xzPartial s.path) content).Keeps Ordinary :=
      Keeps.view.bind fun _ => Keeps.raiseIf.bind fun _ => Keeps.attempt (written _) fun _ => written _
    exact (creates _).bind fun _ => change_ordinary fun _ => .syncFile
  refine Keeps.view.bind fun there => ?_
  cases there with
  | true => exact archived_keeps s
  | false =>
    refine Keeps.view.bind fun _ => require_keeps.bind fun _ => (verifyFile_keeps _ _).bind fun _ => dropped.bind fun _ => ?_
    refine made.bind fun _ => (requireDecodes_keeps _ _ _).bind fun _ => (statRow_keeps _).bind fun _ => (outside_keeps _).bind fun _ => ?_
    split
    · exact (unlink _).bind fun _ => (sync _).bind fun _ => Keeps.pure _
    · exact (change_ordinary fun _ => .rename).bind fun _ => (sync _).bind fun _ => archived_keeps s

theorem compactRun_ordinary : (compactRun c item plan).Keeps Ordinary := by
  have steady := ordinary_steady (κ := κ)
  refine (recognise_keeps plan).bind fun state => ?_
  split
  · exact verifyCompacted_keeps plan
  · have ready : (ready c item plan state).Keeps Ordinary := by
      refine (backupManifest_keeps steady).bind fun _ => (Keeps.when (writeReceipt_keeps steady _)).bind fun _ => ?_
      refine (Keeps.collect compressPly_ordinary).bind fun _ => (outside_keeps _).bind fun _ => (outside_keeps _).bind fun _ => ?_
      exact (writeReceipt_keeps steady _).bind fun _ => Keeps.pure _
    have pruned (compressed : List (Compressed κ)) : (prune c item compressed).Keeps Ordinary := by
      refine Keeps.each fun s => Keeps.view.bind fun _ => Keeps.when ((statRow_keeps _).bind fun _ => require_keeps.bind fun _ => ?_)
      exact (outside_keeps _).bind fun _ => Keeps.atomic fun w h => h.apart (.unlink h.valid)
    refine ready.bind fun compressed => (pruned compressed).bind fun _ => (Keeps.each fun d => syncAt_keeps steady d).bind fun _ => ?_
    refine (Keeps.each fun p => verifyFile_keeps _ _).bind fun _ => (packManifest_keeps steady _).bind fun _ => ?_
    refine (writeNote_keeps steady).bind fun _ => (digest_keeps _).bind fun _ => (writeReceipt_keeps steady _).bind fun _ => ?_
    exact (outside_keeps _).bind fun _ => verifyCompacted_keeps plan

end

namespace Bench

def cloud : Relative := ["native", "cell", "export", "map_3d_cloud.ply"]
def cache : Relative := ["cell", "input", "00000001.cdr"]
def report : Relative := ["artifact_manifest.json"]

def config : Config Bytes where
  xz b := if b = [1, 2, 3] then [] else 0 :: b
  unxz
    | [] => some [1, 2, 3]
    | 0 :: b => some b
    | _ => none
  sha
    | .bytes b => b
    | _ => []
  device := 1
  metadata _ _ := true

def content (r : Relative) : Bytes := if r = cloud then [1, 2, 3] else if r = cache then [9] else [7]

def originals : Originals := ⟨content, fun _ => 5, fun r => if r = cloud then 0 else if r = cache then 1 else 2⟩

def row (r : Relative) : Row Bytes := ⟨(content r).length, 4096, 5, originals.inode r, 1, content r⟩

def item : Item Bytes where
  manifestName := "artifact_manifest.json"
  manifestRow := row report
  selected := [⟨cloud, row cloud, .losslessXz⟩, ⟨cache, row cache, .omitCdr⟩]
  protectedFiles := [(report, row report)]
  manifest := List.mem_singleton_self _
  once := by decide
  apart := by decide
  ply := by
    simp only [List.forall_mem_cons]
    exact ⟨fun _ => ⟨["native", "cell", "export"], "map_3d_cloud", by decide⟩, fun no => by simp at no, by simp⟩
  own := by decide

def seen : Name → Option Nat
  | .file r => if r ∈ [cloud, cache, report] then some (originals.inode r) else none
  | _ => none

def planned : World Bytes where
  disk :=
    { now := seen
      disk := fun n => [seen n]
      inode := fun i => ⟨.bytes (if i = 0 then [1, 2, 3] else if i = 1 then [9] else [7]), 5, true, true⟩
      next := 3
      linked := fun directory => decide (directory ≠ [metaFolder]) }
  made := false
  removals := []

theorem start : Start config item originals planned where
  valid := by
    refine ⟨fun n => List.mem_singleton_self _, fun n i there => ?_⟩
    cases n with
    | file r =>
      have known : originals.inode r < 3 := by
        simp only [originals]
        split_ifs <;> decide
      simp only [planned, seen, List.mem_singleton] at there
      split_ifs at there
      exact Option.some.inj there ▸ known
    | _ => simp [planned, seen] at there
  root := rfl
  files := by
    intro r member
    have known : r = cloud ∨ r = cache ∨ r = report := by simpa [Item.planned, item] using member
    have there : ∀ r ∈ [cloud, cache, report], planned.disk.linked r.dropLast = true ∧
        seen (.file r) = some (originals.inode r) ∧ planned.disk.inode (originals.inode r) = originals.file r := by decide
    obtain ⟨linked, now, inode⟩ := there r (by simpa using known)
    exact ⟨linked, fun e entry => ⟨by simpa [planned, now] using entry, inode⟩⟩
  nothing := by
    intro n other e there
    cases n <;> simp_all [planned, seen]
  rows := by decide
  removals := rfl

theorem settled : Settled config item planned.disk := by
  intro s member
  refine ⟨fun present => ?_, fun _ f found => ?_⟩
  · simp [planned, seen, Volume.present] at present
  · simp [planned, seen, Volume.file] at found

def interruption : List Fate := List.replicate 46 .done ++ [.killed 0]

def killed : World Bytes := (compactRun config item [] ⟨planned, interruption⟩).2.state

def spoiled : World Bytes :=
  let w := (compactRun config item [] ⟨killed, []⟩).2.state
  { w with disk := w.disk.crash .torn }

end Bench

/-- The planned files go in a run that comes to its end. -/
theorem bench_safe :
    let compacted := (compactRun Bench.config Bench.item [] ⟨Bench.planned, []⟩).2.state
    compacted.removals.length = 2 ∧ ∀ removal ∈ compacted.removals, Removal Bench.config Bench.item Bench.originals removal :=
  ⟨by decide +kernel, (compaction_safe (fun _ _ same => same) Bench.start (.single (.compact Bench.settled []))).2.2⟩

/-- A run takes over a `.xz.partial` that was never synced, and removes the cloud. -/
theorem cloud_lost : Function.Injective (fun b => Bench.config.sha (.bytes b)) ∧
    (∀ b, Bench.config.unxz (Bench.config.xz b) = some b) ∧ Start Bench.config Bench.item Bench.originals Bench.planned ∧
    Path (Step Bench.config Bench.item [] fun _ => True) Bench.planned Bench.spoiled ∧
    ∃ s ∈ Bench.item.clouds, ¬(Present Bench.originals s.path Bench.spoiled.disk ∨
      Archived Bench.config Bench.originals s.path Bench.spoiled.disk) := by
  refine ⟨fun _ _ same => same, fun b => ?_, Bench.start, ?_, ?_⟩
  · by_cases small : b = [1, 2, 3] <;> simp [Bench.config, small]
  · have ordinary : Ordinary Bench.planned := ⟨Bench.start.valid, Bench.start.root⟩
    have first : Ordinary Bench.killed := compactRun_ordinary.always ordinary _
    have second : Ordinary (compactRun Bench.config Bench.item [] ⟨Bench.killed, []⟩).2.state := compactRun_ordinary.always first []
    refine .head (.compact trivial Bench.interruption) (.head (.compact trivial []) (.single (.loss ?_)))
    exact ⟨Volume.crash_lost second.valid .torn, .inl rfl, fun gone => absurd gone (by decide +kernel), rfl⟩
  · refine ⟨⟨Bench.cloud, Bench.row Bench.cloud, .losslessXz⟩, by decide, ?_⟩
    have gone : Bench.spoiled.disk.disk (.file Bench.cloud) = [none] := by decide +kernel
    have there : Bench.spoiled.disk.disk (.xz Bench.cloud) = [some 5] := by decide +kernel
    have torn : (Bench.spoiled.disk.inode 5).content = .torn := by decide +kernel
    rintro (present | archived_)
    · simpa using (present.entries none (by simp [gone])).1
    · obtain ⟨-, x, content, -⟩ := archived_.only 5 (by simp [there])
      simp [torn] at content

end Smartwheel.Compaction
