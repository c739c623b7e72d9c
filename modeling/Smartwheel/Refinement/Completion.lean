import Smartwheel.Refinement.Keeping
import Smartwheel.Effect.History

/-! The end of a refinement: the documents name each other and every file. A temporary document that an earlier run left is
listed, and then replaced. -/
namespace Smartwheel.Refinement
open Effect Disk
open Effect.Program hiding pure bind

variable {β δ η : Type} {tools : Tools β δ η} {o₀ o o' : Output β δ η}

structure Ended (tools : Tools β δ η) (before s : Output β δ η) (value : Complete η) (list : Artifacts η) : Prop where
  complete : s.file completePath = some (.document (.complete value))
  manifest : s.file artifactsPath = some (.document (.artifacts list)) ∧
    value.artifactManifestSha256 = tools.digest (.document (.artifacts list))
  result : ∃ c, s.file resultPath = some c ∧ value.resultSha256 = tools.digest c ∧
    list.files.lookup resultPath = some (artifact tools c)
  listed : ∀ p, p ≠ resultPath → Listed p → p ≠ temporary resultPath →
    list.files.lookup p = (before.file p).map (artifact tools)
  out : ∀ p, p ≠ resultPath → ¬(Listed p ∧ p ≠ temporary resultPath) → list.files.lookup p = none
  rest : ∀ p ∉ [resultPath, artifactsPath, completePath, temporary resultPath, temporary artifactsPath, temporary completePath],
    s.file p = before.file p
  gone : s.file (temporary resultPath) = none ∧ s.file (temporary artifactsPath) = none ∧ s.file (temporary completePath) = none

theorem ended_of {o₁ o₂ o₃ o₄ o₅ : Output β δ η} {first second : Document δ η} {early list : Artifacts η} {value : Complete η}
    (h₁ : o₁ = o.replace (temporary resultPath) resultPath (.document first))
    (h₂ : o₂ = o₁.replace (temporary artifactsPath) artifactsPath (.document (.artifacts early)))
    (h₃ : o₃ = o₂.replace (temporary resultPath) resultPath (.document second))
    (h₄ : o₄ = o₃.replace (temporary artifactsPath) artifactsPath (.document (.artifacts list)))
    (h₅ : o₅ = o₄.replace (temporary completePath) completePath (.document (.complete value)))
    (files : list.files = (resultPath, artifact tools (.document second)) ::
      (o₁.files.among Listed (artifact tools)).filter fun e => e.1 ≠ resultPath)
    (result : value.resultSha256 = tools.digest (.document second))
    (manifest : value.artifactManifestSha256 = tools.digest (.document (.artifacts list))) : Ended tools o o₅ value list := by
  have lookup (p : Disk.Path) (other : p ≠ resultPath) :
      list.files.lookup p = (o₁.files.among Listed (artifact tools)).lookup p := by
    rw [files, Table.lookup_cons_ne other, Tree.lookup_filter, if_neg other]
  have before (p : Disk.Path) (other : p ≠ resultPath) :
      o₁.file p = if p = temporary resultPath then none else o.file p := by
    rw [h₁, Tree.file_replace, if_neg other]
  refine ⟨?_, ⟨?_, manifest⟩, ⟨.document second, ?_, result, ?_⟩, fun p other listed last => ?_, fun p other out => ?_,
    fun p out => ?_, ?_, ?_, ?_⟩
  · rw [h₅, Tree.file_replace, if_pos rfl]
  · rw [h₅, Tree.file_replace_of_ne (by decide) (by decide), h₄, Tree.file_replace, if_pos rfl]
  · rw [h₅, Tree.file_replace_of_ne (by decide) (by decide), h₄, Tree.file_replace_of_ne (by decide) (by decide), h₃,
      Tree.file_replace, if_pos rfl]
  · rw [files, List.lookup_cons_self]
  · have here := before p other
    rw [if_neg last] at here
    rw [lookup p other, Table.among_lookup listed, ← here]
    rfl
  · rw [lookup p other]
    by_cases listed : Listed p
    · have last : p = temporary resultPath := by
        by_contra different
        exact out ⟨listed, different⟩
      have here := before p other
      rw [if_pos last] at here
      rw [Table.among_lookup listed]
      exact congrArg (Option.map (artifact tools)) here
    · exact Table.among_lookup_none listed
  · simp only [List.mem_cons, List.not_mem_nil, or_false, not_or] at out
    obtain ⟨r, a, c, r', a', c'⟩ := out
    rw [h₅, Tree.file_replace_of_ne c' c, h₄, Tree.file_replace_of_ne a' a, h₃, Tree.file_replace_of_ne r' r, h₂,
      Tree.file_replace_of_ne a' a, h₁, Tree.file_replace_of_ne r' r]
  · rw [h₅, Tree.file_replace_of_ne (by decide) (by decide), h₄, Tree.file_replace_of_ne (by decide) (by decide), h₃,
      Tree.file_replace, if_neg (by decide), if_pos rfl]
  · rw [h₅, Tree.file_replace_of_ne (by decide) (by decide), h₄, Tree.file_replace, if_neg (by decide), if_pos rfl]
  · rw [h₅, Tree.file_replace, if_neg (by decide), if_pos rfl]

theorem finish_runs {report : Report δ η} (kept : Kept tools temporaries o₀ o) :
    (finish tools report).Runs False (Kept tools [] o₀)
      (fun n s => n = 0 ∧ Kept tools [] o₀ s ∧ ∃ value list, Ended tools o s value list) (fun _ => Kept tools [] o₀) o := by
  have start : Kept tools [] o₀ o := kept.less fun _ no => (List.not_mem_nil no).elim
  unfold finish
  refine (save_runs start).bind ?_
  rintro - o₁ h₁
  have k₁ : Kept tools [] o₀ o₁ := h₁ ▸ start.replace
  refine Runs.view_bind ?_ (fun _ => k₁) k₁
  generalize listing_ : o₁.files.among Listed (artifact tools) = listing
  refine (save_runs k₁).bind ?_
  rintro - o₂ h₂
  have k₂ : Kept tools [] o₀ o₂ := h₂ ▸ k₁.replace
  refine (save_runs k₂).bind ?_
  rintro - o₃ h₃
  have k₃ : Kept tools [] o₀ o₃ := h₃ ▸ k₂.replace
  refine Runs.view_bind ?_ (fun _ => k₃) k₃
  refine Runs.need_bind (by rw [h₃, Tree.file_replace, if_pos rfl]) ?_
  refine (save_runs k₃).bind ?_
  rintro - o₄ h₄
  have k₄ : Kept tools [] o₀ o₄ := h₄ ▸ k₃.replace
  have result_ : o₄.file resultPath = o₃.file resultPath := by
    rw [h₄]
    exact Tree.file_replace_of_ne (by decide) (by decide)
  refine Runs.view_bind ?_ (fun _ => k₄) k₄
  refine Runs.need_bind (by rw [result_, h₃, Tree.file_replace, if_pos rfl]) ?_
  refine Runs.view_bind ?_ (fun _ => k₄) k₄
  refine Runs.need_bind (by rw [h₄, Tree.file_replace, if_pos rfl]) ?_
  refine (save_runs k₄).bind ?_
  rintro - o₅ h₅
  have k₅ : Kept tools [] o₀ o₅ := h₅ ▸ k₄.replace
  refine Runs.atomic_bind ?_ (fun _ => k₅) k₅
  exact Runs.pure ⟨rfl, k₅, _, _, ended_of h₁ h₂ h₃ h₄ h₅ (by rw [listing_]) rfl rfl⟩

def Closed (tools : Tools β δ η) (o₀ s : Output β δ η) : Prop :=
  Kept tools [] o₀ s ∧ ∃ before value list, Kept tools temporaries o₀ before ∧ Ended tools before s value list

theorem early {τ : Type} {x : Program (Host (Output β δ η)) String τ} (keeps : x.Keeps (Kept tools temporaries o₀))
    (kept : Kept tools temporaries o₀ o) :
    x.Runs False (Kept tools [] o₀) (fun _ => Kept tools temporaries o₀) (fun _ => Kept tools [] o₀) o :=
  have less (s : Output β δ η) (k : Kept tools temporaries o₀ s) : Kept tools [] o₀ s := k.less fun _ no => (List.not_mem_nil no).elim
  (keeps o kept).weaken less (fun _ _ h => h) fun _ => less

theorem opening_keeps {r : Request β δ η} : (opening r).Keeps (Kept tools temporaries o₀) := by
  unfold opening
  exact check_keeps.bind fun _ => Keeps.view.bind fun _ => Keeps.raiseIf.bind fun _ => Keeps.raiseIf.bind fun _ =>
    Keeps.view.bind fun _ => Keeps.raiseIf.bind fun _ => check_keeps.bind fun _ => makeDirectory_keeps fun s k => k.mkdir _

theorem kept_empty : Kept tools temporaries (Tree.empty : Output β δ η) Tree.empty :=
  ⟨fun _ _ here => by simp at here, fun _ _ => .refl _ _, fun _ _ => rfl, fun _ _ here => by simp at here⟩

theorem Kept.next (kept : Kept tools [] o₀ o) : Kept tools temporaries o o :=
  ⟨kept.hashed, fun _ _ => .refl _ _, fun _ _ => rfl, kept.named⟩

structure Sealed (tools : Tools β δ η) (o : Output β δ η) (value : Complete η) (list : Artifacts η) : Prop where
  manifest : o.file artifactsPath = some (.document (.artifacts list)) ∧
    value.artifactManifestSha256 = tools.digest (.document (.artifacts list))
  result : ∃ c, o.file resultPath = some c ∧ value.resultSha256 = tools.digest c
  entries : ∀ p a, list.files.lookup p = some a → ∃ c, o.file p = some c ∧ a = artifact tools c
  listed : ∀ p c, o.file p = some c → p ∉ documents → ∃ a, list.files.lookup p = some a

def Exact (tools : Tools β δ η) (o : Output β δ η) : Prop :=
  ∀ c, o.file completePath = some c → ∃ value list, c = .document (.complete value) ∧ Sealed tools o value list

theorem Ended.sealed {before s : Output β δ η} {value : Complete η} {list : Artifacts η} (ended : Ended tools before s value list)
    (named : ∀ p c, s.file p = some c → Listed p ∨ p ∈ documents)
    (absent : before.file (temporary artifactsPath) = none ∧ before.file (temporary completePath) = none) :
    Sealed tools s value list := by
  refine ⟨ended.manifest, ?_, fun p a here => ?_, fun p c here out => ?_⟩
  · obtain ⟨c, there, same, -⟩ := ended.result
    exact ⟨c, there, same⟩
  · by_cases result : p = resultPath
    · obtain ⟨c, there, -, entry⟩ := ended.result
      subst result
      exact ⟨c, there, Option.some.inj (here.symm.trans entry)⟩
    · by_cases own : Listed p ∧ p ≠ temporary resultPath
      · rw [ended.listed p result own.1 own.2, Option.map_eq_some_iff] at here
        obtain ⟨c, there, rfl⟩ := here
        refine ⟨c, (ended.rest p ?_).trans there, rfl⟩
        simp only [List.mem_cons, List.not_mem_nil, or_false, not_or]
        refine ⟨result, ?_, ?_, own.2, ?_, ?_⟩ <;> rintro rfl
        · exact absurd own.1 (by decide)
        · exact absurd own.1 (by decide)
        · simp [absent.1] at there
        · simp [absent.2] at there
      · simp [ended.out p result own] at here
  · by_cases result : p = resultPath
    · obtain ⟨c, -, -, entry⟩ := ended.result
      exact ⟨_, result ▸ entry⟩
    · have last : p ≠ temporary resultPath := by
        rintro rfl
        simp [ended.gone.1] at here
      have own : Listed p := (named p c here).resolve_right out
      refine ⟨artifact tools c, ?_⟩
      rw [ended.listed p result own last, ← ended.rest p, here]
      · rfl
      · simp only [List.mem_cons, List.not_mem_nil, or_false, not_or]
        refine ⟨result, ?_, ?_, last, ?_, ?_⟩ <;> rintro rfl
        · exact out (by decide)
        · exact out (by decide)
        · simp [ended.gone.2.1] at here
        · simp [ended.gone.2.2] at here

theorem Ended.stale {before s : Output β δ η} {value value' : Complete η} {list list' : Artifacts η}
    (ended : Ended tools before s value list) (exact_ : Sealed tools s value' list') {p : Disk.Path} (stale : p ∈ temporaries) :
    before.file p = none := by
  have same : list = list' := by
    have manifest := ended.manifest.1.symm.trans exact_.manifest.1
    simpa using manifest
  subst same
  have gone : s.file p = none := by
    rcases List.mem_cons.mp stale with rfl | other
    · exact ended.gone.2.1
    · rw [List.mem_singleton.mp other]
      exact ended.gone.2.2
  have shape : ∀ p ∈ temporaries, p ≠ resultPath ∧ Listed p ∧ p ≠ temporary resultPath := by decide
  obtain ⟨result, own, last⟩ := shape p stale
  cases here : before.file p with
  | none => rfl
  | some c =>
    have entry := ended.listed p result own last
    rw [here] at entry
    obtain ⟨c', there, -⟩ := exact_.entries p _ entry
    simp [gone] at there

theorem Closed.exact_iff {s : Output β δ η} (closed : Closed tools o s) :
    Exact tools s ↔ o.file (temporary artifactsPath) = none ∧ o.file (temporary completePath) = none := by
  obtain ⟨kept, before, value, list, kept', ended⟩ := closed
  have spare : ∀ p ∈ temporaries, before.file p = o.file p := kept'.spare
  rw [← spare (temporary artifactsPath) (by decide), ← spare (temporary completePath) (by decide)]
  constructor
  · intro exact_
    obtain ⟨value', list', -, sealed⟩ := exact_ _ ended.complete
    exact ⟨ended.stale sealed (by decide), ended.stale sealed (by decide)⟩
  · intro absent c here
    have same : c = .document (.complete value) := Option.some.inj (here.symm.trans ended.complete)
    exact ⟨value, list, same, ended.sealed kept.named absent⟩

section
variable [DecidableEq δ] [DecidableEq η] {r : Request β δ η}

theorem work_runs (kept : Kept tools temporaries o₀ o) :
    (work tools r).Runs False (Kept tools [] o₀) (fun n s => n = 0 ∧ Closed tools o₀ s) (fun _ => Kept tools [] o₀) o := by
  have less {s : Output β δ η} (k : Kept tools temporaries o₀ s) : Kept tools [] o₀ s := k.less fun _ no => (List.not_mem_nil no).elim
  unfold work
  refine (early (makeDirectory_keeps fun s k => k.mkdir _) kept).bind fun _ s k => ?_
  refine (early (Keeps.each fun _ => software_keeps) k).bind fun _ s k => ?_
  refine (early check_keeps k).bind fun _ s k => ?_
  refine (early candidate_keeps k).bind fun _ s k => ?_
  refine (early Keeps.view k).bind fun content s k => ?_
  refine (early Keeps.need k).bind fun content s k => ?_
  refine (early Keeps.need k).bind fun candidate s k => ?_
  split
  · exact Runs.raise (less k)
  refine (early save_keeps k).bind fun _ s k => ?_
  refine (early freeze_keeps k).bind fun _ s k => ?_
  refine (early motionStage_keeps k).bind fun cell s k => ?_
  refine (early check_keeps k).bind fun _ s k => ?_
  refine (early save_keeps k).bind fun _ s k => ?_
  refine (early geometryCells_keeps k).bind fun cells s k => ?_
  refine (early save_keeps k).bind fun _ s k => ?_
  refine (early nativeMap_keeps k).bind fun native s k => ?_
  refine (early check_keeps k).bind fun _ s k => ?_
  refine (finish_runs k).weaken (fun _ h => h) (fun n s h => ?_) fun _ _ h => h
  obtain ⟨zero, kept', value, list, ended⟩ := h
  exact ⟨zero, kept', _, value, list, k, ended⟩

theorem main_runs (kept : Kept tools temporaries o₀ o) :
    (main tools r).Runs False (Kept tools [] o₀) (fun n s => Kept tools [] o₀ s ∧ (n = 0 → Closed tools o₀ s))
      (fun _ _ => False) o := by
  unfold main
  refine Runs.handle (G := fun _ => Kept tools [] o₀) ((early opening_keeps kept).bind fun _ s k => ?_) fun _ s k =>
    Runs.pure ⟨k, nofun⟩
  refine Runs.handle (G := fun _ => Kept tools [] o₀)
    ((work_runs k).weaken (fun _ h => h) (fun n s h => ⟨h.2.1, fun _ => h.2⟩) fun _ _ h => h) fun reason s k => ?_
  have failed : (Program.handle (save failurePath (.failure reason)) fun _ => pure ()).Keeps (Kept tools [] o₀) :=
    (save_keeps).handle fun _ => Keeps.pure ()
  exact (failed s k).bind fun _ s k => Runs.pure ⟨k, nofun⟩

def Executed (tools : Tools β δ η) (o o' : Output β δ η) : Prop := ∃ r fates, (main tools r ⟨o, fates⟩).2.state = o'

theorem executed_kept (kept : Kept tools temporaries o o) (step : Executed tools o o') : Kept tools [] o o' := by
  obtain ⟨r, fates, rfl⟩ := step
  exact (main_runs kept).always (fun _ h => h) (fun _ _ h => h.1) (fun _ _ no => no.elim) fates

theorem history_kept (history : Effect.Path (Executed tools) o₀ o) (kept : Kept tools temporaries o₀ o₀) :
    Kept tools temporaries o o ∧ ∀ stage : Stage, (o₀.file stage.done).isSome → Same stage o₀ o := by
  refine history.keeps (P := fun s => Kept tools temporaries s s ∧ ∀ stage : Stage, (o₀.file stage.done).isSome → Same stage o₀ s)
    ?_ ⟨kept, fun _ _ => .refl _ _⟩
  rintro s s' step ⟨before, since⟩
  have after := executed_kept before step
  refine ⟨after.next, fun stage done => (since stage done).trans (after.since stage ?_)⟩
  rw [(since stage done).done]
  exact done

theorem main_closed {fates : List Fate} {h : Host (Output β δ η)} (history : Effect.Path (Executed tools) Tree.empty o)
    (ends : main tools r ⟨o, fates⟩ = (.value 0, h)) : Closed tools o h.state := by
  have last := (main_runs (r := r) (history_kept history kept_empty).1 fates fun no => no.elim).2
  rw [ends] at last
  exact last.2 rfl

/-- After an execution that returns 0: a stage that was done in any earlier state has the same marker and files, which
are the ones that the marker names; and the completion is exact if and only if the execution found no temporary
document of an earlier one. -/
theorem completion_exact (tools : Tools β δ η) (r : Request β δ η) {o : Output β δ η} {fates : List Fate}
    {h : Host (Output β δ η)} (history : Effect.Path (Executed tools) Tree.empty o)
    (ends : main tools r ⟨o, fates⟩ = (.value 0, h)) :
    (h.state.file completePath).isSome ∧
    (∀ stage : Stage, Hashed tools stage h.state ∧ ∀ o₁, Effect.Path (Executed tools) Tree.empty o₁ → Effect.Path (Executed tools) o₁ o →
      (o₁.file stage.done).isSome → Same stage o₁ h.state) ∧
    (Exact tools h.state ↔ o.file (temporary artifactsPath) = none ∧ o.file (temporary completePath) = none) := by
  have closed := main_closed history ends
  refine ⟨?_, fun stage => ⟨closed.1.hashed stage, fun o₁ first later done => ?_⟩, closed.exact_iff⟩
  · obtain ⟨-, before, value, list, -, ended⟩ := closed
    simp [ended.complete]
  · have same := (history_kept later (history_kept first kept_empty).1).2 stage done
    refine same.trans (closed.1.since stage ?_)
    rw [same.done]
    exact done

end

/-! A refinement of one module and one file, and the same once more after its first execution was killed. -/

def benchDigest : Content ℕ ℕ ℕ → ℕ
  | .bytes value => value
  | .document (.result report) => 1000 + report.status.length
  | .document (.artifacts value) => 2000 + value.status.length
  | .document (.complete _) => 3000
  | .document (.motion _) => 4000
  | .document (.frozen _) => 5000
  | .document (.verification _) => 6000
  | .document (.motionStart _ _) => 7000
  | .document _ => 8000
  | .part _ arrived => 9000 + arrived

def benchTools : Tools ℕ ℕ ℕ where
  digest := benchDigest
  size _ := 1
  candidate
    | .bytes value => some value
    | _ => none
  loadCell _ := .ok ⟨[], 1⟩
  inputRate _ := 5
  candidateId := id

def benchRequest (resume : Bool) : Request ℕ ℕ ℕ where
  resume
  inputHashes := []
  modules := [("mapping_refine", 10)]
  motionCandidate := some 20
  calibration := ⟨[], .error "unused"⟩
  verify candidate _ := .ok candidate
  runtime _ candidate := candidate
  inputRate := 5
  motion := ⟨[.put ⟨[], "summary.json", by decide⟩ 30], .ok ⟨[], 1⟩⟩
  geometry := none
  native := none

def benchDone : Host (Output ℕ ℕ ℕ) := (main benchTools (benchRequest false) ⟨Tree.empty, []⟩).2

theorem bench_exact :
    main benchTools (benchRequest false) ⟨Tree.empty, []⟩ = (.value 0, benchDone) ∧
      (benchDone.state.file completePath).isSome ∧ Exact benchTools benchDone.state := by
  have ends : main benchTools (benchRequest false) ⟨Tree.empty, []⟩ = (.value 0, benchDone) := rfl
  obtain ⟨there, -, exact_⟩ := completion_exact benchTools (benchRequest false) (Relation.ReflTransGen.refl) ends
  exact ⟨ends, there, exact_.mpr ⟨rfl, rfl⟩⟩

def benchKilled : Output ℕ ℕ ℕ :=
  (main benchTools (benchRequest false) ⟨Tree.empty, List.replicate 43 .done ++ [.killed 3]⟩).2.state

def benchResumed : Host (Output ℕ ℕ ℕ) := (main benchTools (benchRequest true) ⟨benchKilled, []⟩).2

/-- The execution that resumes it returns 0 and lists the temporary file that it then replaces. -/
theorem stale_listed :
    Executed benchTools Tree.empty benchKilled ∧
      main benchTools (benchRequest true) ⟨benchKilled, []⟩ = (.value 0, benchResumed) ∧
      (benchResumed.state.file completePath).isSome ∧ ¬Exact benchTools benchResumed.state := by
  have ends : main benchTools (benchRequest true) ⟨benchKilled, []⟩ = (.value 0, benchResumed) := rfl
  have first : Executed benchTools Tree.empty benchKilled := ⟨benchRequest false, List.replicate 43 .done ++ [.killed 3], rfl⟩
  refine ⟨first, ends, rfl, fun exact_ => ?_⟩
  have absent := (main_closed (.single first) ends).exact_iff.mp exact_
  have there : (benchKilled.file (temporary artifactsPath)).isSome = true := rfl
  rw [absent.1] at there
  cases there

end Smartwheel.Refinement
