import Smartwheel.Refinement.Run

/-! What each part of a refinement keeps: a stage that is done is what was hashed when it was done, and a stage that was
done before stays as it was. -/
namespace Smartwheel.Refinement
open Effect Disk
open Effect.Program hiding pure bind

variable {β δ η : Type} {tools : Tools β δ η} {o₀ o o' : Output β δ η} {spare : List Disk.Path} {stage : Stage}
variable {p q : Disk.Path} {c : Content β δ η}

def Content.hashes : Stage → Content β δ η → Option (Table η)
  | .motion, c => c.motion.map MotionDone.artifactHashes
  | .geometry, c => c.geometry.map GeometryDone.artifactHashes
  | .native, c => c.native.map NativeDone.artifactHashes

def Hashed (tools : Tools β δ η) (stage : Stage) (o : Output β δ η) : Prop :=
  ∀ c, o.file stage.done = some c → ∃ hashes, c.hashes stage = some hashes ∧
    ∀ q, hashes.lookup q = (o.file (stage.folder :: q)).map tools.digest

structure Same (stage : Stage) (o o' : Output β δ η) : Prop where
  done : o'.file stage.done = o.file stage.done
  files : ∀ q, o'.file (stage.folder :: q) = o.file (stage.folder :: q)

theorem Same.refl (stage : Stage) (o : Output β δ η) : Same stage o o := ⟨rfl, fun _ => rfl⟩

theorem Same.trans {o'' : Output β δ η} (h : Same stage o o') (h' : Same stage o' o'') : Same stage o o'' :=
  ⟨h'.done.trans h.done, fun q => (h'.files q).trans (h.files q)⟩

theorem Hashed.same (h : Hashed tools stage o) (same : Same stage o o') : Hashed tools stage o' := by
  intro c here
  obtain ⟨hashes, found, all⟩ := h c (same.done ▸ here)
  exact ⟨hashes, found, fun q => (same.files q).symm ▸ all q⟩

def documents : List Disk.Path := [artifactsPath, completePath, failurePath]

/-- In every state of a run that began with `o₀`: the files of the stages that are done, those of the stages that were
done at the beginning, and the files of `spare` as they were. -/
structure Kept (tools : Tools β δ η) (spare : List Disk.Path) (o₀ o : Output β δ η) : Prop where
  hashed : ∀ stage, Hashed tools stage o
  since : ∀ stage, (o₀.file stage.done).isSome → Same stage o₀ o
  spare : ∀ p ∈ spare, o.file p = o₀.file p
  named : ∀ p c, o.file p = some c → Listed p ∨ p ∈ documents

theorem Kept.less {spare' : List Disk.Path} (kept : Kept tools spare o₀ o) (sub : ∀ p ∈ spare', p ∈ spare) :
    Kept tools spare' o₀ o := ⟨kept.hashed, kept.since, fun p there => kept.spare p (sub p there), kept.named⟩

structure Loose (p : Disk.Path) : Prop where
  done : ∀ stage : Stage, stage.done ≠ p
  files : ∀ stage : Stage, p.head? ≠ some stage.folder
  named : Listed p ∨ p ∈ documents

instance (P : Stage → Prop) [DecidablePred P] : Decidable (∀ stage, P stage) :=
  decidable_of_iff (P .motion ∧ P .geometry ∧ P .native) ⟨fun h stage => by cases stage; exacts [h.1, h.2.1, h.2.2],
    fun h => ⟨h _, h _, h _⟩⟩

instance (p : Disk.Path) : Decidable (Loose p) :=
  decidable_of_iff ((∀ stage : Stage, stage.done ≠ p) ∧ (∀ stage : Stage, p.head? ≠ some stage.folder) ∧
    (Listed p ∨ p ∈ documents)) ⟨fun h => ⟨h.1, h.2.1, h.2.2⟩, fun h => ⟨h.done, h.files, h.named⟩⟩

theorem Loose.different (loose : Loose p) : stage.folder :: q ≠ p := by
  rintro rfl
  exact loose.files stage rfl

variable {folder : String}

theorem loose_below {name : String} {folders : List String} (apart : ∀ stage : Stage, folder ≠ stage.folder)
    (listed : name ∉ unlisted) : Loose (folder :: (folders ++ [name])) := by
  refine ⟨fun stage same => ?_, fun stage same => apart stage (by simpa using same), .inl fun last here => ?_⟩
  · have lengths := congrArg List.length same
    cases stage <;> simp [Stage.done] at lengths
  · have last_ : name = last := by simpa [List.getLast?_cons] using here
    exact last_ ▸ listed

theorem Kept.change (kept : Kept tools spare o₀ o) (same : ∀ stage, Same stage o o')
    (rest : ∀ p ∈ spare, o'.file p = o.file p) (named : ∀ p c, o'.file p = some c → Listed p ∨ p ∈ documents) :
    Kept tools spare o₀ o' :=
  ⟨fun stage => (kept.hashed stage).same (same stage), fun stage done => (kept.since stage done).trans (same stage),
    fun p there => (rest p there).trans (kept.spare p there), named⟩

theorem Kept.mkdir (kept : Kept tools spare o₀ o) (d : Disk.Path) : Kept tools spare o₀ (o.mkdir d) :=
  kept.change (fun _ => ⟨rfl, fun _ => rfl⟩) (fun _ _ => rfl) kept.named

theorem Kept.loose (kept : Kept tools spare o₀ o) (loose : Loose p) (out : p ∉ spare) (rest : ∀ q, q ≠ p → o'.file q = o.file q) :
    Kept tools spare o₀ o' := by
  refine kept.change (fun stage => ⟨rest _ (loose.done stage), fun q => rest _ loose.different⟩) (fun q there => rest q ?_)
    fun q c' here => ?_
  · rintro rfl
    exact out there
  · by_cases same : q = p
    · exact same ▸ loose.named
    · exact kept.named q c' ((rest q same).symm.trans here)

theorem Kept.put (kept : Kept tools spare o₀ o) (loose : Loose p) (out : p ∉ spare) : Kept tools spare o₀ (o.put p c) :=
  kept.loose loose out fun q other => by rw [Tree.file_put, if_neg other]

theorem Kept.rename {a b : Disk.Path} (kept : Kept tools spare o₀ o) (first : Loose a) (second : Loose b) (out : a ∉ spare)
    (out' : b ∉ spare) (here : o.file a = some c) : Kept tools spare o₀ (o.rename a b) := by
  refine kept.change (fun stage => ⟨?_, fun q => ?_⟩) (fun q there => ?_) fun q c' found => ?_
  · exact Tree.file_rename_of_ne (first.done stage) (second.done stage)
  · exact Tree.file_rename_of_ne first.different second.different
  · exact Tree.file_rename_of_ne (fun same => out (same ▸ there)) fun same => out' (same ▸ there)
  · rw [Tree.file_rename here] at found
    by_cases same : q = b
    · exact same ▸ second.named
    · by_cases same' : q = a
      · exact same' ▸ first.named
      · exact kept.named q c' (by simpa [same, same'] using found)

theorem Kept.during (kept : Kept tools spare o₀ o) (absent : o'.file stage.done = none)
    (before : o.file stage.done = none) (same : ∀ other, other ≠ stage → Same other o o')
    (rest : ∀ p ∈ spare, o'.file p = o.file p) (named : ∀ p c, o'.file p = some c → Listed p ∨ p ∈ documents) :
    Kept tools spare o₀ o' := by
  refine ⟨fun other => ?_, fun other done => ?_, fun p there => (rest p there).trans (kept.spare p there), named⟩
  · by_cases this : other = stage
    · subst this
      intro c here
      simp [absent] at here
    · exact (kept.hashed other).same (same other this)
  · by_cases this : other = stage
    · subst this
      have there := (kept.since other done).done
      rw [before] at there
      simp [← there] at done
    · exact (kept.since other done).trans (same other this)

theorem Kept.mark (kept : Kept tools spare o₀ o) (absent : o.file stage.done = none) {hashes : Table η}
    (found : c.hashes stage = some hashes) (all : ∀ q, hashes.lookup q = (o.file (stage.folder :: q)).map tools.digest)
    (done : o'.file stage.done = some c) (files : ∀ q, o'.file (stage.folder :: q) = o.file (stage.folder :: q))
    (same : ∀ other, other ≠ stage → Same other o o') (rest : ∀ p ∈ spare, o'.file p = o.file p)
    (named : ∀ p c, o'.file p = some c → Listed p ∨ p ∈ documents) : Kept tools spare o₀ o' := by
  refine ⟨fun other => ?_, fun other before => ?_, fun p there => (rest p there).trans (kept.spare p there), named⟩
  · by_cases this : other = stage
    · subst this
      intro c' here
      obtain rfl : c = c' := by simpa [done] using here
      exact ⟨hashes, found, fun q => by rw [files]; exact all q⟩
    · exact (kept.hashed other).same (same other this)
  · by_cases this : other = stage
    · subst this
      have there := (kept.since other before).done
      rw [absent] at there
      simp [← there] at before
    · exact (kept.since other before).trans (same other this)

/-! What each part of a run keeps. -/

variable {J : Output β δ η → Prop}

theorem check_keeps {reason : String} :
    (check reason : Program (Host (Output β δ η)) String Unit).Keeps J := Keeps.atomic fun _ h => h

theorem writeBytes_keeps (loose : Loose p) (out : p ∉ spare) : (writeBytes p c).Keeps (Kept tools spare o₀) := by
  refine Keeps.attempt (fun s kept => kept.put loose out) fun way s kept => ?_
  cases way with
  | zero => exact kept
  | succ way => exact kept.put loose out

variable {d : Document δ η}

theorem save_runs (kept : Kept tools spare o₀ o) (first : Loose (temporary p) := by decide)
    (out : temporary p ∉ spare := by decide) :
    (save p d).Runs False (Kept tools spare o₀) (fun _ s => s = o.replace (temporary p) p (.document d))
      (fun _ => Kept tools spare o₀) o := by
  have written (c : Content β δ η) : Kept tools spare o₀ (o.put (temporary p) c) := kept.put first out
  unfold save writeBytes check
  refine Runs.attempt_bind ?_ (fun _ way => ?_) fun _ way => ?_
  rotate_left
  · cases way with
    | zero => exact kept
    | succ way => exact written _
  · cases way with
    | zero => exact kept
    | succ way => exact written _
  refine Runs.atomic_bind ?_ (fun _ => written _) (written _)
  exact Runs.atomic rfl (fun _ => written _) (written _)

theorem Kept.replace (kept : Kept tools spare o₀ o) (first : Loose (temporary p) := by decide) (second : Loose p := by decide)
    (out : temporary p ∉ spare := by decide) (out' : p ∉ spare := by decide) : Kept tools spare o₀ (o.replace (temporary p) p (.document d)) :=
  (kept.put first out).rename first second out out' (by rw [Tree.file_put, if_pos rfl])

theorem save_keeps (first : Loose (temporary p) := by decide) (second : Loose p := by decide)
    (out : temporary p ∉ spare := by decide) (out' : p ∉ spare := by decide) : (save p d).Keeps (Kept tools spare o₀) := by
  intro s kept
  have last : Kept tools spare o₀ (s.replace (temporary p) p (.document d)) := kept.replace first second out out'
  refine (save_runs kept first out).weaken (fun _ h => h) ?_ fun _ _ h => h
  rintro - _ rfl
  exact last

theorem makeDirectory_keeps {d : Disk.Path} {existOk : Bool} (h : ∀ s, J s → J (s.mkdir d)) :
    (makeDirectory d existOk : Program (Host (Output β δ η)) String Unit).Keeps J := by
  unfold makeDirectory
  exact Keeps.view.bind fun _ => Keeps.raiseIf.bind fun _ => Keeps.when (Keeps.atomic h)

structure Open (spare : List Disk.Path) (stage : Stage) (o₀ : Output β δ η) : Prop where
  absent : o₀.file stage.done = none
  marker : stage.done ∈ spare
  names : ∀ p ∈ spare, p.length = 1

theorem Kept.open (kept : Kept tools spare o₀ o) (absent : o.file stage.done = none) (names : ∀ p ∈ spare, p.length = 1) :
    Open (stage.done :: spare) stage o₀ ∧ Kept tools (stage.done :: spare) o₀ o := by
  have before : o₀.file stage.done = none := by
    cases there : o₀.file stage.done with
    | none => rfl
    | some c =>
      have same := (kept.since stage (by simp [there])).done
      simp [absent, there] at same
  refine ⟨⟨before, List.mem_cons_self, ?_⟩, kept.hashed, kept.since, ?_, kept.named⟩
  · simp only [List.mem_cons, forall_eq_or_imp]
    exact ⟨by cases stage <;> rfl, names⟩
  · simp only [List.mem_cons, forall_eq_or_imp]
    exact ⟨absent.trans before.symm, kept.spare⟩

theorem Kept.inner (kept : Kept tools spare o₀ o) (opened : Open spare stage o₀) (file : Inner)
    (rest : ∀ q, q ≠ stage.folder :: file.path → o'.file q = o.file q) : Kept tools spare o₀ o' := by
  have marker (other : Stage) : other.done ≠ stage.folder :: file.path := fun same => by
    have lengths := congrArg List.length same
    cases other <;> simp [Stage.done, Inner.path] at lengths
  have before : o.file stage.done = none := (kept.spare _ opened.marker).trans opened.absent
  refine kept.during ((rest _ (marker stage)).trans before) before (fun other different => ⟨rest _ (marker other), fun q => ?_⟩)
    (fun p there => rest p ?_) fun p c' here => ?_
  · have apart : other.folder ≠ stage.folder := by cases other <;> cases stage <;> simp_all [Stage.folder]
    exact rest _ fun same => apart (List.cons.inj same).1
  · rintro rfl
    simpa [Inner.path] using opened.names _ there
  · by_cases same : p = stage.folder :: file.path
    · refine .inl fun last here => ?_
      have last_ : file.name = last := by simpa [same, Inner.path, List.getLast?_cons] using here
      exact last_ ▸ file.own
    · exact kept.named p c' ((rest p same).symm.trans here)

theorem make_keeps {τ : Type} {making : Making β τ} (mkdir : ∀ s d, J s → J (s.mkdir d))
    (put : ∀ s (file : Inner) c, J s → J (s.put (folder :: file.path) c))
    (remove : ∀ s (file : Inner), J s → J (s.remove (folder :: file.path))) :
    (make folder making : Program (Host (Output β δ η)) String τ).Keeps J := by
  unfold make
  refine (makeDirectory_keeps fun s => mkdir s _).bind fun _ => (Keeps.each fun w => ?_).bind fun _ => ?_
  · cases w with
    | put file value =>
      refine Keeps.attempt (fun s => put s file _) fun way s h => ?_
      cases way with
      | zero => exact h
      | succ way => exact put s file _ h
    | remove file => exact Keeps.atomic fun s => remove s file
  · cases making.outcome with
    | ok value => exact Keeps.pure value
    | error reason => exact Keeps.raise reason

theorem make_open {τ : Type} {making : Making β τ} (opened : Open spare stage o₀) :
    (make stage.folder making).Keeps (Kept tools spare o₀) :=
  make_keeps (fun _ d kept => kept.mkdir d)
    (fun _ file _ kept => kept.inner opened file fun q other => by rw [Tree.file_put, if_neg other])
    fun _ file kept => kept.inner opened file fun q other => by rw [Tree.file_remove, if_neg other]

theorem save_mark (kept : Kept tools (stage.done :: spare) o₀ o) (opened : Open (stage.done :: spare) stage o₀)
    (out : ∀ p ∈ spare, temporary stage.done ≠ p ∧ stage.done ≠ p)
    (found : (Content.document d : Content β δ η).hashes stage = some (stageHashes tools stage.folder o)) :
    (save stage.done d).Runs False (Kept tools spare o₀) (fun _ => Kept tools spare o₀) (fun _ => Kept tools spare o₀) o := by
  have less : Kept tools spare o₀ o := kept.less fun _ => List.mem_cons_of_mem _
  have absent : o.file stage.done = none := (kept.spare _ opened.marker).trans opened.absent
  have loose : Loose (temporary stage.done) := by cases stage <;> decide
  have own : Listed stage.done := by cases stage <;> decide
  refine (save_runs less loose fun there => (out _ there).1 rfl).weaken (fun _ h => h) ?_ fun _ _ h => h
  rintro - _ rfl
  have rest (q : Disk.Path) (first : q ≠ temporary stage.done) (second : q ≠ stage.done) :
      (o.replace (temporary stage.done) stage.done (.document d)).file q = o.file q := Tree.file_replace_of_ne first second
  have marker (other : Stage) (q : Disk.Path) : other.folder :: q ≠ stage.done := fun same => by
    have first := congrArg List.head? same
    cases other <;> cases stage <;> simp [Stage.folder, Stage.done] at first
  refine less.mark absent found (fun q => Table.below_lookup q) (by rw [Tree.file_replace, if_pos rfl]) (fun q => ?_)
    (fun other different => ⟨?_, fun q => ?_⟩) (fun p there => rest p (out p there).1.symm (out p there).2.symm) fun p c' here => ?_
  · exact rest _ loose.different (marker stage q)
  · have apart : other.done ≠ stage.done := by cases other <;> cases stage <;> simp_all [Stage.done]
    exact rest _ (loose.done other) apart
  · exact rest _ loose.different (marker other q)
  · by_cases same : p = stage.done
    · exact .inl (same ▸ own)
    · by_cases same' : p = temporary stage.done
      · exact same' ▸ loose.named
      · exact kept.named p c' ((rest p same' same).symm.trans here)

theorem make_seal {τ τ' υ : Type} {x : Program (Host (Output β δ η)) String τ} {y : τ → Program (Host (Output β δ η)) String τ'}
    {d : τ → τ' → Table η → Document δ η} {g : τ → τ' → Table η → υ}
    (kept : Kept tools (stage.done :: spare) o₀ o) (opened : Open (stage.done :: spare) stage o₀)
    (first : x.Keeps (Kept tools (stage.done :: spare) o₀)) (second : ∀ a, (y a).Keeps (Kept tools (stage.done :: spare) o₀))
    (out : ∀ p ∈ spare, temporary stage.done ≠ p ∧ stage.done ≠ p)
    (found : ∀ a b hashes, (Content.document (d a b hashes) : Content β δ η).hashes stage = some hashes) :
    (do
      let a ← x
      let b ← y a
      let hashes ← view "OSError" (stageHashes tools stage.folder)
      save stage.done (d a b hashes)
      return g a b hashes).Runs False (Kept tools spare o₀) (fun _ => Kept tools spare o₀) (fun _ => Kept tools spare o₀) o := by
  have less {s : Output β δ η} (k : Kept tools (stage.done :: spare) o₀ s) : Kept tools spare o₀ s :=
    k.less fun _ => List.mem_cons_of_mem _
  refine ((first o kept).weaken (fun _ => less) (fun _ _ h => h) fun _ _ => less).bind fun a s k => ?_
  refine ((second a s k).weaken (fun _ => less) (fun _ _ h => h) fun _ _ => less).bind fun b s k => ?_
  refine Runs.view_bind ?_ (fun _ => less k) (less k)
  exact (save_mark k opened out (found a b _)).bind fun _ s' k' => Runs.pure k'

/-! The parts of a run before its end. -/

def temporaries : List Disk.Path := [temporary artifactsPath, temporary completePath]

theorem verifyStage_keeps [DecidableEq η] {expected : Table η} : (verifyStage tools folder expected).Keeps J := by
  unfold verifyStage
  exact Keeps.view.bind fun _ => Keeps.raiseIf

theorem loadCell_keeps : (loadCell tools folder).Keeps J := by
  unfold loadCell
  refine Keeps.view.bind fun loaded => ?_
  cases loaded with
  | ok cell => exact Keeps.pure cell
  | error reason => exact Keeps.raise reason

theorem indexDigest_keeps : (indexDigest tools).Keeps J := by
  unfold indexDigest
  exact Keeps.view.bind fun _ => Keeps.need.bind fun _ => Keeps.pure _

theorem compactCell_keeps {cell : String × δ} : (compactCell tools cell).Keeps J := by
  unfold compactCell
  exact Keeps.view.bind fun _ => Keeps.need.bind fun _ => Keeps.pure _

theorem names_temporaries : ∀ p ∈ temporaries, p.length = 1 := by decide

theorem stage_temporaries (stage : Stage) : ∀ p ∈ temporaries, temporary stage.done ≠ p ∧ stage.done ≠ p := by
  cases stage <;> decide

section
variable [DecidableEq η] {r : Request β δ η}

theorem motionStage_keeps {sha : η} : (motionStage tools r sha).Keeps (Kept tools temporaries o₀) := by
  intro s kept
  unfold motionStage
  refine Runs.view_bind ?_ (fun _ => kept) kept
  cases here : s.file Stage.motion.done with
  | some content =>
    have reused : (do
        let old ← need content.motion "JSONDecodeError"
        raiseIf (old.status ≠ "COMPLETE" ∨ ¬Table.Agree old.inputHashes r.inputHashes ∨ old.candidateSha256 ≠ sha)
          "completed motion stage belongs to different input/candidate"
        verifyStage tools Stage.motion.folder old.artifactHashes
        let cell ← loadCell tools Stage.motion.folder
        raiseIf (tools.inputRate cell.summary ≠ r.inputRate) "resume input rate changed"
        return cell).Keeps (Kept tools temporaries o₀) :=
      Keeps.need.bind fun _ => Keeps.raiseIf.bind fun _ => verifyStage_keeps.bind fun _ => loadCell_keeps.bind fun _ =>
        Keeps.raiseIf.bind fun _ => Keeps.pure _
    exact reused s kept
  | none =>
    obtain ⟨opened, kept'⟩ := kept.open here names_temporaries
    have start : (save startPath (.motionStart r.inputHashes sha)).Keeps (Kept tools (Stage.motion.done :: temporaries) o₀) :=
      save_keeps
    have made := make_seal (y := fun _ => make Stage.motion.folder r.motion)
      (d := fun _ cell hashes => .motion ⟨"COMPLETE", r.inputHashes, sha, cell.summary, hashes⟩)
      (g := fun _ cell _ => cell) kept' opened start (fun _ => make_open opened) (stage_temporaries .motion) fun _ _ _ => rfl
    exact made

theorem geometryStage_keeps {making : Making β (Cell δ)} : (geometryStage tools making).Keeps (Kept tools temporaries o₀) := by
  intro s kept
  unfold geometryStage
  refine Runs.view_bind ?_ (fun _ => kept) kept
  cases here : s.file Stage.geometry.done with
  | some content =>
    have reused : (do
        let old ← need content.geometry "JSONDecodeError"
        let index ← indexDigest tools
        raiseIf (old.inputIndexSha256 ≠ index) "geometry source index changed"
        verifyStage tools Stage.geometry.folder old.artifactHashes
        loadCell tools Stage.geometry.folder).Keeps (Kept tools temporaries o₀) :=
      Keeps.need.bind fun _ => indexDigest_keeps.bind fun _ => Keeps.raiseIf.bind fun _ => verifyStage_keeps.bind fun _ =>
        loadCell_keeps
    exact reused s kept
  | none =>
    obtain ⟨opened, kept'⟩ := kept.open here names_temporaries
    have made := make_seal (x := make Stage.geometry.folder making) (y := fun _ => indexDigest tools)
      (d := fun cell index hashes => .geometry ⟨"COMPLETE", index, cell.summary, hashes⟩)
      (g := fun cell _ _ => cell) kept' opened (make_open opened) (fun _ => indexDigest_keeps) (stage_temporaries .geometry)
      fun _ _ _ => rfl
    exact made

theorem nativeStage_keeps {selected : List String} {making : Making β (List (String × δ))} :
    (nativeStage tools selected making).Keeps (Kept tools temporaries o₀) := by
  unfold nativeStage
  refine Keeps.raiseIf.bind fun _ s kept => ?_
  refine Runs.view_bind ?_ (fun _ => kept) kept
  cases here : s.file Stage.native.done with
  | some content =>
    have reused : (do
        let old ← need content.native "JSONDecodeError"
        raiseIf (¬((∀ c ∈ old.cells, c.1 ∈ selected) ∧ ∀ name ∈ selected, name ∈ old.cells.map Prod.fst))
          "native selection changed; use new output"
        verifyStage tools Stage.native.folder old.artifactHashes
        return old).Keeps (Kept tools temporaries o₀) :=
      Keeps.need.bind fun _ => Keeps.raiseIf.bind fun _ => verifyStage_keeps.bind fun _ => Keeps.pure _
    exact reused s kept
  | none =>
    obtain ⟨opened, kept'⟩ := kept.open here names_temporaries
    have made := make_seal (x := make Stage.native.folder making) (y := fun report => collect (compactCell tools) report)
      (d := fun _ cells hashes => .native ⟨cells, hashes⟩) (g := fun _ cells hashes => (⟨cells, hashes⟩ : NativeDone δ η)) kept' opened
      (make_open opened) (fun _ => Keeps.collect fun _ => compactCell_keeps) (stage_temporaries .native) fun _ _ _ => rfl
    exact made

theorem geometryCells_keeps {cells : List (String × δ)} {making : Option (Making β (Cell δ))} :
    (geometryCells tools cells making).Keeps (Kept tools temporaries o₀) := by
  cases making with
  | none => exact Keeps.pure cells
  | some making => exact geometryStage_keeps.bind fun _ => Keeps.pure _

theorem nativeMap_keeps {cells : List String} {native : Option (List String × Making β (List (String × δ)))} :
    (nativeMap tools cells native).Keeps (Kept tools temporaries o₀) := by
  cases native with
  | none => exact Keeps.pure none
  | some native => exact nativeStage_keeps.bind fun _ => Keeps.pure _

theorem module_listed (name : String) : name ++ ".py" ∉ unlisted := by
  intro there
  have last : (name ++ ".py").toList.getLast? = some 'y' := by simp
  simp only [unlisted, List.mem_cons, List.not_mem_nil, or_false] at there
  rcases there with same | same | same <;> simp [same] at last

theorem software_keeps {entry : String × β} : (software tools entry).Keeps (Kept tools temporaries o₀) := by
  obtain ⟨name, original⟩ := entry
  unfold software
  refine Keeps.view.bind fun target => ?_
  cases target with
  | some content => exact Keeps.raiseIf
  | none =>
    have loose : Loose ["refinement_software", name ++ ".py"] :=
      @loose_below _ _ [] (fun stage => by cases stage <;> decide) (module_listed name)
    refine writeBytes_keeps loose fun there => ?_
    simpa using names_temporaries _ there

theorem candidate_keeps : (candidate tools r).Keeps (Kept tools temporaries o₀) := by
  have loose (file : Inner) : Loose ("calibration" :: file.path) := loose_below (fun stage => by cases stage <;> decide) file.own
  have out (file : Inner) : "calibration" :: file.path ∉ temporaries := fun there => by
    simpa [Inner.path] using names_temporaries _ there
  unfold candidate
  split
  · refine Keeps.view.bind fun _ => Keeps.need.bind fun _ => ?_
    cases r.motionCandidate with
    | some other => exact Keeps.raiseIf
    | none => exact Keeps.pure _
  · cases r.motionCandidate with
    | some other => exact writeBytes_keeps (by decide) (by decide)
    | none =>
      have calibrated : (make "calibration" r.calibration).Keeps (Kept tools temporaries o₀) :=
        make_keeps (fun _ d kept => kept.mkdir d) (fun _ file _ kept => kept.put (loose file) (out file))
          fun _ file kept => kept.loose (loose file) (out file) fun q other => by rw [Tree.file_remove, if_neg other]
      exact calibrated.bind fun _ => Keeps.view.bind fun _ => Keeps.need.bind fun _ => writeBytes_keeps (by decide) (by decide)

end

theorem freeze_keeps [DecidableEq δ] {runtime : δ} :
    (freeze runtime : Program (Host (Output β δ η)) String Unit).Keeps (Kept tools temporaries o₀) := by
  unfold freeze
  refine Keeps.view.bind fun frozen => ?_
  cases frozen with
  | some content => exact Keeps.need.bind fun _ => Keeps.raiseIf
  | none => exact save_keeps

end Smartwheel.Refinement
