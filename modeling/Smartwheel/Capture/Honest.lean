import Smartwheel.Capture.Frames

/-! What a finalization reports: the manifest, the exit code, the issues and the two reports say the same, but for a
summary whose first writing fails after its status line has reached the file. -/
namespace Smartwheel.Capture
open Effect Disk
open Effect.Program hiding pure bind

variable {β η : Type} {docs : List Path} {s₀ : Site β} {s s' : Site β} {p : Path} {c : Content β} {m : Memory}
variable {r : Request β η}

def statusEnd : ℕ := "# 采集结果\n\n状态：COMPLETE".utf8ByteSize

def Content.StatesComplete : Content β → Prop
  | .summary status _ => status = .complete
  | .health status => status = .complete
  | .part (.summary status _) arrived => status = .complete ∧ statusEnd ≤ arrived
  | _ => False

def States (p : Path) (s : Site β) : Prop := ∃ c, s.final.holds p = some c ∧ c.StatesComplete

/-- `capture_manifest.json` has the status COMPLETE. -/
def ManifestComplete (s : Site β) : Prop := ∃ manifest, s.final.holds manifestPath = some (.manifest manifest) ∧ manifest.status = .complete

theorem States.same (same : s'.final.holds p = s.final.holds p) : States p s' ↔ States p s := by
  unfold States
  rw [same]

theorem states_of (here : s.final.holds p = some c) : States p s ↔ c.StatesComplete := by
  constructor
  · rintro ⟨c', there, stated⟩
    obtain rfl : c = c' := Option.some.inj (here.symm.trans there)
    exact stated
  · exact fun stated => ⟨c, here, stated⟩

theorem manifest_of {manifest : Manifest} (here : s.final.holds manifestPath = some (.manifest manifest)) :
    ManifestComplete s ↔ manifest.status = .complete := by
  constructor
  · rintro ⟨manifest', there, complete⟩
    obtain rfl : manifest = manifest' := by simpa [here] using there
    exact complete
  · exact fun complete => ⟨manifest, here, complete⟩

/-! What is written, in any circumstances and where all goes well. -/

variable {calm : Prop}

theorem writeFile_writes (valid : s.final.Valid) (out : p ∉ docs) :
    (writeFile p c).Runs calm (fun _ => True) (fun _ s' => Framed docs s s' ∧ s'.final.holds p = some c)
      (fun _ s' => ¬calm ∧ Framed docs s s') s := by
  have start : Framed docs s s := .start valid
  exact Runs.attempt ⟨start.write out, Volume.write_holds⟩ (fun rough way => ⟨rough, start.torn out way⟩) fun _ _ => trivial

theorem atomicJson_writes (valid : s.final.Valid) (first : temporary p ∉ docs) (second : p ∉ docs)
    (different : temporary p ≠ p) :
    (atomicJson p c).Runs calm (fun _ => True) (fun _ s' => Framed docs s s' ∧ s'.final.holds p = some c)
      (fun _ s' => ¬calm ∧ Framed docs s s') s := by
  unfold atomicJson
  refine (writeFile_writes valid first).bind fun _ s₁ h₁ => ?_
  obtain ⟨framed₁, here₁⟩ := h₁
  refine Runs.atomic_bind ?_ (fun rough => ⟨rough, framed₁⟩) trivial
  have framed₂ : Framed docs s (onFinal (Volume.syncFile (temporary p)) s₁) := framed₁.syncFile
  have apart₂ : Volume.Apart [] s₁.final (onFinal (Volume.syncFile (temporary p)) s₁).final := .syncFile framed₁.valid
  have here₂ : (onFinal (Volume.syncFile (temporary p)) s₁).final.holds (temporary p) = some c :=
    (apart₂.holds List.not_mem_nil).trans here₁
  refine Runs.atomic_bind ?_ (fun rough => ⟨rough, framed₂⟩) trivial
  have framed₃ := framed₂.rename first second
  have here₃ := (Volume.rename_holds different (v := (onFinal (Volume.syncFile (temporary p)) s₁).final)).trans here₂
  refine Runs.atomic ⟨framed₃.syncDir, ?_⟩ (fun rough => ⟨rough, framed₃⟩) trivial
  exact ((Volume.Apart.syncDir framed₃.valid).holds List.not_mem_nil).trans here₃

theorem again_writes {x : Program (Host (Site β)) String Unit} {F : Unit → Site β → Prop} {E : String → Site β → Prop}
    (h : x.Runs True (fun _ => True) F (fun e s' => ¬True ∧ E e s') s) :
    (again true x).Runs False (fun _ => True) F (fun _ _ => False) s :=
  Runs.quiet (h.weaken (fun _ h => h) (fun _ _ h => h) fun _ _ no => no.1 trivial)

theorem writeManifest_writes (valid : s.final.Valid) : (writeManifest m).Runs calm (fun _ => True)
      (fun _ s' => Framed [summaryPath, healthPath] s s' ∧ s'.final.holds manifestPath = some m.document)
      (fun _ s' => ¬calm ∧ Framed [summaryPath, healthPath] s s') s := by
  unfold writeManifest
  refine Runs.atomic_bind ?_ (fun rough => ⟨rough, .start valid⟩) trivial
  exact atomicJson_writes valid (by decide) (by decide) (by decide)

structure Written where
  summaryStatus : Option Status
  summaryAttempts : ℕ
  healthStatus : Option Status
  healthAttempts : ℕ

def Memory.written (m : Memory) : Written := ⟨m.summaryStatus, m.summaryAttempts, m.healthStatus, m.healthAttempts⟩

@[simp] theorem qualify_written {contract : Bool} : (qualify contract m).written = m.written := rfl

@[simp] theorem synced_written {synced : Except String Unit} : (m.synced synced).written = m.written := by cases synced <;> rfl

@[simp] theorem audited_written : (audited r m).written = m.written := by
  unfold audited
  dsimp only
  split <;> cases r.audit <;> rfl

/-- What `persist` returns: the result as it was, or downgraded. -/
structure Persisted (m : Memory) (result : Bool × Memory) : Prop where
  same : result.1 = true → result.2 = m
  audit : result.2.audit = m.audit
  written : result.2.written = m.written
  downgraded : result.1 = false → result.2.prospective.status = .partialOnly ∧
    result.2.prospective.recordingComplete = false ∧ result.2.issues ≠ []

theorem persist_runs {text : String} (valid : s.final.Valid) :
    (persist true text m).Runs False (fun _ => True)
      (fun result s' => Framed [summaryPath, healthPath] s s' ∧ s'.final.holds manifestPath = some result.2.document ∧
        Persisted m result) (fun _ _ => False) s := by
  unfold persist
  refine Runs.handle (G := fun _ s' => Framed [summaryPath, healthPath] s s') ?_ fun error s₁ framed => ?_
  · have writes : (writeManifest m).Runs False (fun _ => True) _ _ s := writeManifest_writes valid
    refine (writes.weaken (fun _ h => h) (fun _ _ h => h) fun _ _ h => h.2).bind fun _ s₁ h₁ => ?_
    exact Runs.pure ⟨h₁.1, h₁.2, fun _ => rfl, rfl, rfl, nofun⟩
  · refine Runs.bind (F := fun _ s' => Framed [summaryPath, healthPath] s₁ s' ∧
      s'.final.holds manifestPath = some (m.uncommitted text error).document) ?_ fun _ s₂ h₂ => ?_
    · exact Runs.handle (again_writes (writeManifest_writes framed.valid)) fun _ _ no => no.elim
    · exact Runs.pure ⟨framed.trans h₂.1, h₂.2, nofun, rfl, rfl, fun _ => ⟨rfl, rfl, by simp [Memory.uncommitted, Memory.issue, Memory.note]⟩⟩

structure Qualified (r : Request β η) (m : Memory) : Prop where
  status : m.prospective.status = .complete ↔
    m.issues = [] ∧ evidenceOk r.contract m.audit = true ∧ m.prospective.durabilityComplete = some true
  recording : m.prospective.recordingComplete = decide (m.prospective.status = .complete)

theorem qualify_qualified (r : Request β η) (m : Memory) : Qualified r (qualify r.contract m) := by
  have both : (evidenceOk r.contract m.audit && m.prospective.durabilityComplete == some true && m.issues.isEmpty) = true ↔
      m.issues = [] ∧ evidenceOk r.contract m.audit = true ∧ m.prospective.durabilityComplete = some true := by
    simp only [Bool.and_eq_true, beq_iff_eq, List.isEmpty_iff]
    tauto
  refine ⟨Iff.trans ?_ both, ?_⟩
  · simp [qualify, and_assoc]
  · cases h : (evidenceOk r.contract m.audit && m.prospective.durabilityComplete == some true && m.issues.isEmpty) <;>
      simp [qualify, h]

theorem Qualified.noted (h : Qualified r m) (issues : m.issues ≠ []) : m.prospective.status = .partialOnly := by
  cases status : m.prospective.status with
  | complete => exact absurd (h.status.mp status).1 issues
  | partialOnly => rfl

theorem issue_ne {code evidence detail : String} : (m.issue code evidence detail).issues ≠ [] := by
  simp [Memory.issue, Memory.note]

/-! The phases. -/

def documents : List Path := [manifestPath, summaryPath, healthPath]

theorem clear_documents {s₀ : Site β} (q : Path) : Clear documents s₀ ("sources" :: q) := by
  refine .of_not_mem fun there => ?_
  simp [documents, manifestPath, summaryPath, healthPath] at there

theorem collectEvidence_runs [DecidableEq η] {digest : Content β → η} (valid : s.final.Valid) :
    (collectEvidence digest r m).Runs False (fun _ => True)
      (fun m' s' => Framed documents s s' ∧ Qualified r m' ∧ m'.written = m.written) (fun _ _ => True) s := by
  have start : Framed documents s s := .start valid
  have part {α : Type} {x : Program (Host (Site β)) String α} {s' : Site β} (keeps : x.Keeps (Framed documents s))
      (h : Framed documents s s') :
      x.Runs False (fun _ => True) (fun _ => Framed documents s) (fun _ _ => True) s' :=
    (keeps s' h).weaken (fun _ _ => trivial) (fun _ _ h => h) fun _ _ _ => trivial
  unfold collectEvidence
  refine (part (copySources_keeps clear_documents) start).bind fun copied s h => ?_
  refine (part (indexSources_keeps clear_documents) h).bind fun indexed s h => ?_
  refine (part hashFiles_keeps h).bind fun hashed s h => ?_
  refine (part (tried_keeps (guard_keeps.bind fun _ => synchronizeTree_keeps)) h).bind fun synced s h => ?_
  refine Runs.pure ⟨h, qualify_qualified r _, ?_⟩
  rw [qualify_written, synced_written]
  exact audited_written (m := (m.note copied).note indexed)

structure Prepared (s : Site β) : Prop where
  valid : s.final.Valid
  manifest : ¬ManifestComplete s
  summary : ¬States summaryPath s
  health : ¬States healthPath s

theorem prepare_runs [DecidableEq η] (r : Request β η) (digest : Content β → η) (valid : s.final.Valid) (summary : ¬States summaryPath s)
    (health : ¬States healthPath s) :
    (prepare true digest r).Runs False (fun _ => True)
      (fun result s' => Prepared s' ∧ (result.1 = true → Qualified r result.2 ∧ result.2.written = ⟨none, 0, none, 0⟩) ∧
        (result.1 = false → result.2.issues ≠ []))
      (fun _ _ => True) s := by
  unfold prepare
  refine Runs.atomic_bind ?_ (fun _ => trivial) trivial
  refine Runs.atomic_bind ?_ (fun _ => trivial) trivial
  refine ((persist_runs valid).weaken (fun _ h => h) (fun _ _ h => h) fun _ _ _ => trivial).bind fun checkpoint s₁ h₁ => ?_
  obtain ⟨framed, here, persisted⟩ := h₁
  have partial_ : checkpoint.2.prospective.status = .partialOnly := by
    cases written : checkpoint.1 with
    | true => rw [persisted.same written]; rfl
    | false => exact (persisted.downgraded written).1
  have prepared : Prepared s₁ := by
    refine ⟨framed.valid, ?_, ?_, ?_⟩
    · rw [manifest_of here]
      simp [partial_]
    · exact (States.same (framed.holds (by decide))).not.mpr summary
    · exact (States.same (framed.holds (by decide))).not.mpr health
  split
  · rename_i written
    refine ((collectEvidence_runs framed.valid).weaken (fun _ h => h) (fun _ _ h => h) fun _ _ _ => trivial).bind fun m s₂ h₂ => ?_
    obtain ⟨framed₂, qualified, same⟩ := h₂
    refine Runs.pure ⟨⟨framed₂.valid, ?_, ?_, ?_⟩, fun _ => ⟨qualified, ?_⟩, nofun⟩
    · unfold ManifestComplete
      rw [framed₂.holds (by decide)]
      exact prepared.manifest
    · exact (States.same (framed₂.holds (by decide))).not.mpr prepared.summary
    · exact (States.same (framed₂.holds (by decide))).not.mpr prepared.health
    · rw [same, persisted.written]
      rfl
  · rename_i failed
    exact Runs.pure ⟨prepared, nofun, fun _ => (persisted.downgraded (by simpa using failed)).2.2⟩

/-! The reports. -/

theorem temp_ne {name fresh : String} {p : Path} (dot : ∀ q ∈ p, q.toList.head? ≠ some '.') (one : p ≠ []) :
    ["." ++ name ++ ".tmp-" ++ fresh] ≠ p := by
  rintro rfl
  have head := dot _ List.mem_cons_self
  simp at head

theorem writeReport_writes {fresh : String} (valid : s.final.Valid)
    (temp : ["." ++ p.getLast?.getD "" ++ ".tmp-" ++ fresh] ∉ docs) (out : p ∉ docs)
    (different : ["." ++ p.getLast?.getD "" ++ ".tmp-" ++ fresh] ≠ p) :
    (writeReport fresh p c).Runs calm (fun _ => True) (fun _ s' => Framed docs s s' ∧ s'.final.holds p = some c)
      (fun _ s' => ¬calm ∧ Framed docs s s') s := by
  unfold writeReport
  have writes : Program.Runs calm (do
      writeFile ["." ++ p.getLast?.getD "" ++ ".tmp-" ++ fresh] c
      atomic "OSError" (onFinal (Volume.rename ["." ++ p.getLast?.getD "" ++ ".tmp-" ++ fresh] p)))
      (fun _ => True) (fun _ s' => Framed docs s s' ∧ s'.final.holds p = some c)
      (fun _ s' => ¬calm ∧ Framed docs s s') s := by
    refine (writeFile_writes valid temp).bind fun _ s₁ h₁ => ?_
    refine Runs.atomic ⟨h₁.1.rename temp out, ?_⟩ (fun rough => ⟨rough, h₁.1⟩) trivial
    exact (Volume.rename_holds different).trans h₁.2
  refine writes.ensure (fun _ s₁ h₁ => ?_) fun error s₁ h₁ => ?_
  · refine Runs.view_bind ?_ (fun rough => ⟨rough, h₁.1⟩) trivial
    refine Runs.when (fun _ => Runs.atomic ⟨h₁.1.unlink temp, ?_⟩ (fun rough => ⟨rough, h₁.1⟩) trivial) fun _ => h₁
    exact ((Volume.Apart.unlink h₁.1.valid).holds (by simpa using different.symm)).trans h₁.2
  · refine Runs.view_bind ?_ (fun rough => ⟨rough, h₁.2⟩) trivial
    exact Runs.when (fun _ => Runs.atomic ⟨h₁.1, h₁.2.unlink temp⟩ (fun rough => ⟨rough, h₁.2⟩) trivial) fun _ => h₁

theorem writeHealthReport_writes (valid : s.final.Valid) : (writeHealthReport r m).Runs calm (fun _ => True)
      (fun _ s' => Framed [manifestPath, summaryPath] s s' ∧ s'.final.holds healthPath = some (.health m.prospective.status))
      (fun _ s' => ¬calm ∧ Framed [manifestPath, summaryPath] s s') s := by
  have start : Framed [manifestPath, summaryPath] s s := .start valid
  have temp {name fresh : String} : ["." ++ name ++ ".tmp-" ++ fresh] ∉ documents := by
    simp only [documents, List.mem_cons, List.not_mem_nil, or_false, not_or]
    exact ⟨temp_ne (by decide) (by decide), temp_ne (by decide) (by decide), temp_ne (by decide) (by decide)⟩
  have sub : ∀ p ∈ [manifestPath, summaryPath], p ∈ documents := by decide
  unfold writeHealthReport
  refine Runs.atomic_bind ?_ (fun rough => ⟨rough, start⟩) trivial
  refine Runs.atomic_bind ?_ (fun rough => ⟨rough, start⟩) trivial
  refine (writeReport_writes valid (fun there => temp (sub _ there)) (by decide)
    (temp_ne (by decide) (by decide))).bind fun _ s₁ h₁ => ?_
  have diagnosis : (writeReport (r.fresh (2 * m.healthAttempts + 1)) diagnosisPath (.diagnosis m.prospective.status)).Runs calm
      (fun _ => True) (fun _ s' => Framed documents s₁ s' ∧ _) (fun _ s' => ¬calm ∧ Framed documents s₁ s') s₁ :=
    writeReport_writes h₁.1.valid temp (by decide) (temp_ne (by decide) (by decide))
  refine diagnosis.weaken
    (fun _ h => h) (fun _ s₂ h₂ => ⟨?_, (h₂.1.holds (by decide)).trans h₁.2⟩) fun _ s₂ h₂ => ⟨h₂.1, ?_⟩
  · exact h₁.1.trans (h₂.1.less sub)
  · exact h₁.1.trans (h₂.2.less sub)

def Spoiled (r : Request β η) (m : Memory) : Prop :=
  m.prospective.status = .complete ∧ ∃ way, r.summary = .fails (way + 1) ∧ statusEnd ≤ way

theorem tried_runs {α : Type} {I : Site β → Prop} {x : Program (Host (Site β)) String α} {F : α → Site β → Prop}
    {E E' : String → Site β → Prop} (h : x.Runs calm I F E s) :
    (tried x).Runs calm I (fun result s' => match result with
      | .ok a => F a s'
      | .error e => E e s') E' s := by
  unfold tried
  exact Runs.handle (h.bind fun _ _ here => Runs.pure here) fun _ _ here => Runs.pure here

theorem writeSummary_runs (valid : s.final.Valid) (quiet : ¬States summaryPath s) :
    (writeSummary r m).Runs False (fun _ => True)
      (fun m' s' => Framed [manifestPath, healthPath] s s' ∧
        (m' = { m with summaryAttempts := m.summaryAttempts + 1, summaryStatus := some m.prospective.status } ∧
            (States summaryPath s' ↔ m.prospective.status = .complete) ∧ ¬Spoiled r m ∨
          Qualified r m' ∧ m'.issues ≠ [] ∧
            m'.written = ⟨m.summaryStatus, m.summaryAttempts + 1, m.healthStatus, m.healthAttempts⟩ ∧
            (States summaryPath s' ↔ Spoiled r m)))
      (fun _ _ => False) s := by
  have start : Framed [manifestPath, healthPath] s s := .start valid
  have states {s' : Site β} (here : s'.final.holds summaryPath = some (.summary m.prospective.status m.issues)) :
      States summaryPath s' ↔ m.prospective.status = .complete := states_of here
  unfold writeSummary
  refine (tried_runs (Runs.fated
    (F := fun _ s' => Framed [manifestPath, healthPath] s s' ∧ (States summaryPath s' ↔ m.prospective.status = .complete) ∧ ¬Spoiled r m)
    (E := fun _ s' => Framed [manifestPath, healthPath] s s' ∧ (States summaryPath s' ↔ Spoiled r m))
    (fun done => ?_) (fun way fails => ?_) fun way killed => ⟨id, trivial⟩)).bind fun written s₁ h₁ => ?_
  · refine ⟨start.write (by decide), states Volume.write_holds, ?_⟩
    rintro ⟨-, way, fails, -⟩
    simp [done] at fails
  · refine ⟨start.torn (by decide) way, ?_⟩
    cases way with
    | zero =>
      refine iff_of_false quiet ?_
      rintro ⟨-, way, fails', -⟩
      simp [fails] at fails'
    | succ way =>
      refine (states_of Volume.write_holds).trans ?_
      simp [Content.StatesComplete, Memory.summary, Spoiled, fails]
  · cases written with
    | ok _ => exact Runs.pure ⟨h₁.1, .inl ⟨rfl, h₁.2⟩⟩
    | error error => exact Runs.pure ⟨h₁.1, .inr ⟨qualify_qualified r _, issue_ne, rfl, h₁.2⟩⟩

theorem refreshSummary_runs (valid : s.final.Valid) :
    (refreshSummary true r m).Runs False (fun _ => True)
      (fun m' s' => Framed [manifestPath, healthPath] s s' ∧
        m' = { m with summaryAttempts := m.summaryAttempts + 1, summaryStatus := some m.prospective.status } ∧
        (States summaryPath s' ↔ m.prospective.status = .complete)) (fun _ _ => False) s := by
  have states {s' : Site β} (here : s'.final.holds summaryPath = some (.summary m.prospective.status m.issues)) :
      States summaryPath s' ↔ m.prospective.status = .complete := states_of here
  unfold refreshSummary
  refine (tried_runs (again_writes (F := fun _ s' => Framed [manifestPath, healthPath] s s' ∧
    (States summaryPath s' ↔ m.prospective.status = .complete)) (E := fun _ _ => True) ?_)).bind fun written s₁ h₁ => ?_
  · refine Runs.atomic_bind ?_ (fun rough => absurd trivial rough) trivial
    exact (writeFile_writes valid (by decide)).weaken (fun _ h => h) (fun _ s' h => ⟨h.1, states h.2⟩)
      fun _ _ h => absurd trivial h.1
  · cases written with
    | ok _ => exact Runs.pure ⟨h₁.1, rfl, h₁.2⟩
    | error error => exact h₁.elim

theorem writeHealth_runs {refresh : Bool} (valid : s.final.Valid) :
    (writeHealth true refresh r m).Runs False (fun _ => True)
      (fun result s' => Framed [manifestPath, summaryPath] s s' ∧
        (result = (true, { m with healthAttempts := m.healthAttempts + 1, healthStatus := some m.prospective.status }) ∧
            (States healthPath s' ↔ m.prospective.status = .complete) ∨
          refresh = false ∧ result.1 = false ∧ Qualified r result.2 ∧ result.2.issues ≠ [] ∧
            result.2.written = ⟨m.summaryStatus, m.summaryAttempts, m.healthStatus, m.healthAttempts + 1⟩))
      (fun _ _ => False) s := by
  have states {s' : Site β} (here : s'.final.holds healthPath = some (.health m.prospective.status)) :
      States healthPath s' ↔ m.prospective.status = .complete := states_of here
  unfold writeHealth
  cases refresh with
  | true =>
    refine (tried_runs (again_writes (writeHealthReport_writes valid))).bind fun written s₁ h₁ => ?_
    cases written with
    | ok _ => exact Runs.pure ⟨h₁.1, .inl ⟨rfl, states h₁.2⟩⟩
    | error error => exact h₁.elim
  | false =>
    have writes (m : Memory) : (writeHealthReport r m).Runs False (fun _ => True) _ _ s := writeHealthReport_writes valid
    refine (tried_runs (writes _)).bind fun written s₁ h₁ => ?_
    cases written with
    | ok _ => exact Runs.pure ⟨h₁.1, .inl ⟨rfl, states h₁.2⟩⟩
    | error error => exact Runs.pure ⟨h₁.2, .inr ⟨rfl, rfl, qualify_qualified r _, issue_ne, rfl⟩⟩

/-! The reports together. -/

def Stale (spoiled : Prop) (m : Memory) (s : Site β) : Prop :=
  m.summaryStatus = some .complete ∧ m.summaryAttempts < 2 ∧ ¬spoiled ∨
    m.summaryStatus ≠ some .complete ∧ (States summaryPath s ↔ spoiled)

structure Reported (r : Request β η) (spoiled : Prop) (m : Memory) (s : Site β) : Prop where
  valid : s.final.Valid
  manifest : ¬ManifestComplete s
  qualified : Qualified r m
  complete : m.prospective.status = .complete → m.written = ⟨some .complete, 1, some .complete, 1⟩ ∧ ¬spoiled
  health : m.prospective.status = .partialOnly → ¬States healthPath s
  summary : m.prospective.status = .partialOnly → m.summaryStatus ≠ some .complete ∧ (States summaryPath s ↔ spoiled)

theorem ManifestComplete.same (same : s'.final.holds manifestPath = s.final.holds manifestPath) :
    ManifestComplete s' ↔ ManifestComplete s := by
  unfold ManifestComplete
  rw [same]

variable {spoiled : Prop}

theorem restateSummary_runs (valid : s.final.Valid) (status : m.prospective.status = .partialOnly)
    (stale : Stale spoiled m s) :
    (restateSummary true r m).Runs False (fun _ => True)
      (fun m' s' => Framed [manifestPath, healthPath] s s' ∧
        (∃ status attempts, m' = { m with summaryStatus := status, summaryAttempts := attempts }) ∧
        m'.summaryStatus ≠ some .complete ∧ (States summaryPath s' ↔ spoiled)) (fun _ _ => False) s := by
  unfold restateSummary
  split
  · rename_i again
    refine (refreshSummary_runs valid).weaken (fun _ h => h) (fun m' s' h => ?_) fun _ _ no => no
    obtain ⟨framed, rfl, states⟩ := h
    refine ⟨framed, ⟨_, _, rfl⟩, by simp [status], states.trans (iff_of_false (by simp [status]) ?_)⟩
    rcases stale with ⟨-, -, fine⟩ | ⟨other, -⟩
    · exact fine
    · exact absurd again.1 other
  · rename_i enough
    rcases stale with ⟨complete, few, -⟩ | ⟨other, states⟩
    · exact absurd ⟨complete, few⟩ enough
    · exact Runs.pure ⟨.start valid, ⟨_, _, rfl⟩, other, states⟩

theorem retryHealth_runs (valid : s.final.Valid) (manifest : ¬ManifestComplete s) (qualified : Qualified r m)
    (issues : m.issues ≠ []) (stale : Stale spoiled m s) :
    (retryHealth true r m).Runs False (fun _ => True) (fun m' s' => Reported r spoiled m' s') (fun _ _ => False) s := by
  have status := qualified.noted issues
  unfold retryHealth
  refine (writeHealth_runs valid).bind fun retried s₁ h₁ => ?_
  obtain ⟨framed₁, ⟨rfl, states₁⟩ | ⟨no, -⟩⟩ := h₁
  · have stale₁ : Stale spoiled { m with healthAttempts := m.healthAttempts + 1, healthStatus := some m.prospective.status } s₁ := by
      unfold Stale
      rw [States.same (framed₁.holds (by decide))]
      exact stale
    rw [if_pos rfl]
    have restated := restateSummary_runs (r := r) (m := { m with
      healthAttempts := m.healthAttempts + 1, healthStatus := some m.prospective.status }) framed₁.valid status stale₁
    refine restated.weaken (fun _ h => h) (fun m' s₂ h => ?_) fun _ _ no => no
    obtain ⟨framed₂, ⟨a, b, rfl⟩, other, states₂⟩ := h
    have quiet : ¬States healthPath s₂ := by
      rw [States.same (framed₂.holds (by decide)), states₁]
      simp [status]
    refine ⟨framed₂.valid, ?_, ⟨qualified.status, qualified.recording⟩, fun complete => ?_, fun _ => quiet, fun _ => ⟨other, states₂⟩⟩
    · rw [ManifestComplete.same (framed₂.holds (by decide)), ManifestComplete.same (framed₁.holds (by decide))]
      exact manifest
    · exact absurd (status.symm.trans complete) (by decide)
  · cases no

theorem firstReports_runs (prepared : Prepared s) (qualified : Qualified r m) (fresh : m.written = ⟨none, 0, none, 0⟩) :
    (firstReports true r m).Runs False (fun _ => True) (fun m' s' => Reported r (Spoiled r m) m' s') (fun _ _ => False) s := by
  obtain ⟨none_, zero, -, zero'⟩ : m.summaryStatus = none ∧ m.summaryAttempts = 0 ∧ m.healthStatus = none ∧ m.healthAttempts = 0 := by
    simpa [Memory.written] using fresh
  unfold firstReports
  refine (writeSummary_runs prepared.valid prepared.summary).bind fun m₁ s₁ h₁ => ?_
  obtain ⟨framed₁, written⟩ := h₁
  have manifest₁ : ¬ManifestComplete s₁ := (ManifestComplete.same (framed₁.holds (by decide))).not.mpr prepared.manifest
  refine (writeHealth_runs framed₁.valid).bind fun health s₂ h₂ => ?_
  obtain ⟨framed₂, report⟩ := h₂
  have manifest₂ : ¬ManifestComplete s₂ := (ManifestComplete.same (framed₂.holds (by decide))).not.mpr manifest₁
  have same₂ : States summaryPath s₂ ↔ States summaryPath s₁ := States.same (framed₂.holds (by decide))
  rcases written with ⟨rfl, states₁, fine⟩ | ⟨qualified₁, issues₁, written₁, states₁⟩
  · rcases report with ⟨rfl, states₂⟩ | ⟨-, failed, qualified₂, issues₂, written₂⟩
    · refine Runs.pure ⟨framed₂.valid, manifest₂, ⟨qualified.status, qualified.recording⟩, fun complete => ?_, fun status => ?_, fun status => ?_⟩
      · have complete : m.prospective.status = .complete := complete
        exact ⟨by simp [Memory.written, complete, zero, zero'], fine⟩
      · have status : m.prospective.status = .partialOnly := status
        rw [states₂]
        simp [status]
      · have status : m.prospective.status = .partialOnly := status
        refine ⟨by simp [status], same₂.trans (states₁.trans (iff_of_false (by simp [status]) fine))⟩
    · rw [if_neg (by simp [failed])]
      refine retryHealth_runs framed₂.valid manifest₂ qualified₂ issues₂ ?_
      obtain ⟨status₂, attempts₂, -, -⟩ : health.2.summaryStatus = some m.prospective.status ∧ health.2.summaryAttempts = 0 + 1 ∧ _ ∧ _ := by
        simpa [Memory.written, zero] using written₂
      cases status : m.prospective.status with
      | complete => exact .inl ⟨by rw [status₂, status], by omega, fine⟩
      | partialOnly => exact .inr ⟨by simp [status₂, status], same₂.trans (states₁.trans (iff_of_false (by simp [status]) fine))⟩
  · have status₁ := qualified₁.noted issues₁
    obtain ⟨none₁, -, -, -⟩ : m₁.summaryStatus = none ∧ m₁.summaryAttempts = 0 + 1 ∧ _ ∧ _ := by
      simpa [Memory.written, none_, zero] using written₁
    rcases report with ⟨rfl, states₂⟩ | ⟨-, failed, qualified₂, issues₂, written₂⟩
    · refine Runs.pure ⟨framed₂.valid, manifest₂, ⟨qualified₁.status, qualified₁.recording⟩, fun complete => ?_, fun _ => ?_, fun _ => ?_⟩
      · exact absurd (status₁.symm.trans complete) (by decide)
      · rw [states₂]
        simp [status₁]
      · exact ⟨by simp [none₁], same₂.trans states₁⟩
    · rw [if_neg (by simp [failed])]
      refine retryHealth_runs framed₂.valid manifest₂ qualified₂ issues₂ (.inr ⟨?_, same₂.trans states₁⟩)
      obtain ⟨none₂, -⟩ : health.2.summaryStatus = none ∧ _ := by simpa [Memory.written, none₁] using written₂
      simp [none₂]

theorem Reported.congr {spoiled' : Prop} (h : Reported r spoiled m s) (same : spoiled ↔ spoiled') :
    Reported r spoiled' m s := by
  obtain rfl : spoiled = spoiled' := propext same
  exact h

theorem writeReports_runs (prepared : Prepared s) (qualified : Qualified r m) (fresh : m.written = ⟨none, 0, none, 0⟩) :
    (writeReports true r m).Runs False (fun _ => True) (fun m' s' => Reported r (Spoiled r m ∧ r.resync = .done) m' s')
      (fun _ _ => False) s := by
  unfold writeReports
  refine (firstReports_runs prepared qualified fresh).bind fun m₁ s₁ reported => ?_
  have synced : (resynchronizeTree r).Runs False (fun _ => True) (fun _ s' => r.resync = .done ∧ Framed documents s₁ s')
      (fun _ s' => r.resync ≠ .done ∧ Framed documents s₁ s') s₁ := by
    have start : Framed documents s₁ s₁ := .start reported.valid
    refine Runs.fated (fun done => ⟨done, ?_⟩) (fun way fails => ⟨by simp [fails], ?_⟩) fun way _ => ⟨id, trivial⟩
    · exact foldl_framed (fun step there _ => syncSteps_framed there) start
    · exact foldl_framed (fun step there _ => syncSteps_framed (List.mem_of_mem_take there)) start
  refine (tried_runs synced).bind fun result s₂ h₂ => ?_
  cases result with
  | ok _ =>
    obtain ⟨done, framed⟩ := h₂
    refine Runs.pure (Reported.congr ?_ (and_iff_left done).symm)
    refine ⟨framed.valid, ?_, reported.qualified, reported.complete, fun status => ?_, fun status => ?_⟩
    · exact (ManifestComplete.same (framed.holds (by decide))).not.mpr reported.manifest
    · exact (States.same (framed.holds (by decide))).not.mpr (reported.health status)
    · exact ⟨(reported.summary status).1, (States.same (framed.holds (by decide))).trans (reported.summary status).2⟩
  | error error =>
    obtain ⟨failed, framed⟩ := h₂
    have manifest₂ : ¬ManifestComplete s₂ := (ManifestComplete.same (framed.holds (by decide))).not.mpr reported.manifest
    refine (refreshSummary_runs framed.valid).bind fun m₃ s₃ h₃ => ?_
    obtain ⟨framed₃, rfl, states₃⟩ := h₃
    refine (writeHealth_runs framed₃.valid).bind fun health s₄ h₄ => ?_
    obtain ⟨framed₄, ⟨rfl, states₄⟩ | ⟨no, -⟩⟩ := h₄
    · have again := qualify_qualified r (Memory.issue { m₁ with prospective := { m₁.prospective with durabilityComplete := some false } }
        "CAPTURE_REPORT_DURABILITY_FAILED" "health.json; summary_zh.md" error)
      have status := again.noted issue_ne
      refine Runs.pure ⟨framed₄.valid, ?_, ⟨again.status, again.recording⟩, fun complete => ?_, fun _ => ?_, fun _ => ⟨?_, ?_⟩⟩
      · rw [ManifestComplete.same (framed₄.holds (by decide)), ManifestComplete.same (framed₃.holds (by decide))]
        exact manifest₂
      · exact absurd (status.symm.trans complete) (by decide)
      · rw [states₄]
        simp [status]
      · simp [status]
      · rw [States.same (framed₄.holds (by decide)), states₃]
        exact iff_of_false (by simp [status]) fun no => failed no.2
    · cases no

/-! The commit. -/

structure Honest (r : Request β η) (code : ℕ) (m : Memory) (s : Site β) : Prop where
  status : ManifestComplete s ↔ code = 0
  code : code = 0 ↔ m.issues = [] ∧ evidenceOk r.contract m.audit = true ∧ m.prospective.durabilityComplete = some true
  reports : ¬ManifestComplete s → ¬States summaryPath s ∧ ¬States healthPath s

theorem honest_unfinished (manifest : ¬ManifestComplete s) (issues : m.issues ≠ []) :
    Honest r 2 m s ↔ ¬States summaryPath s ∧ ¬States healthPath s := by
  constructor
  · exact fun h => h.reports manifest
  · exact fun quiet => ⟨iff_of_false manifest (by decide), iff_of_false (by decide) fun all => issues all.1, fun _ => quiet⟩

theorem restateHealth_runs (valid : s.final.Valid) (status : m.prospective.status = .partialOnly)
    (stale : m.healthStatus = some .complete ∧ m.healthAttempts < 2 ∨ ¬States healthPath s) :
    (restateHealth true r m).Runs False (fun _ => True)
      (fun m' s' => Framed [manifestPath, summaryPath] s s' ∧
        (∃ status attempts, m' = { m with healthStatus := status, healthAttempts := attempts }) ∧ ¬States healthPath s')
      (fun _ _ => False) s := by
  unfold restateHealth
  split
  · refine (writeHealth_runs valid).bind fun health s₁ h₁ => ?_
    obtain ⟨framed₁, ⟨rfl, states₁⟩ | ⟨no, -⟩⟩ := h₁
    · exact Runs.pure ⟨framed₁, ⟨_, _, rfl⟩, by simp [states₁, status]⟩
    · cases no
  · rename_i enough
    exact Runs.pure ⟨.start valid, ⟨_, _, rfl⟩, stale.resolve_left enough⟩

theorem downgrade_runs (spoiled : Prop) (valid : s.final.Valid) (manifest : ¬ManifestComplete s)
    (status : m.prospective.status = .partialOnly) (issues : m.issues ≠ [])
    (health : m.healthStatus = some .complete ∧ m.healthAttempts < 2 ∨ ¬States healthPath s) (summary : Stale spoiled m s) :
    (downgrade true r m).Runs False (fun _ => True) (fun m' s' => Honest r 2 m' s' ↔ ¬spoiled) (fun _ _ => False) s := by
  unfold downgrade
  refine (restateHealth_runs valid status health).bind fun m₁ s₁ h₁ => ?_
  obtain ⟨framed₁, ⟨a, b, rfl⟩, quiet₁⟩ := h₁
  have stale₁ : Stale spoiled { m with healthStatus := a, healthAttempts := b } s₁ := by
    unfold Stale
    rw [States.same (framed₁.holds (by decide))]
    exact summary
  have restated := restateSummary_runs (r := r) (m := { m with healthStatus := a, healthAttempts := b }) framed₁.valid status stale₁
  refine restated.bind fun m₂ s₂ h₂ => ?_
  obtain ⟨framed₂, ⟨a', b', rfl⟩, -, states₂⟩ := h₂
  have manifest₂ : ¬ManifestComplete s₂ := by
    rw [ManifestComplete.same (framed₂.holds (by decide)), ManifestComplete.same (framed₁.holds (by decide))]
    exact manifest
  have quiet₂ : ¬States healthPath s₂ := (States.same (framed₂.holds (by decide))).not.mpr quiet₁
  rw [if_pos rfl]
  refine Runs.pure ((honest_unfinished manifest₂ ?_).trans ((and_iff_left quiet₂).trans (not_congr states₂)))
  exact issues

theorem commit_runs (reported : Reported r spoiled m s) :
    (commit true r m).Runs False (fun _ => True) (fun result s' => Honest r result.1 result.2 s' ↔ ¬spoiled)
      (fun _ _ => False) s := by
  unfold commit
  refine (persist_runs reported.valid).bind fun committed s₁ h₁ => ?_
  obtain ⟨framed, here, persisted⟩ := h₁
  have summary₁ : States summaryPath s₁ ↔ States summaryPath s := States.same (framed.holds (by decide))
  have health₁ : States healthPath s₁ ↔ States healthPath s := States.same (framed.holds (by decide))
  have manifest₁ := manifest_of here
  split
  · rename_i ok
    obtain same := persisted.same ok
    rw [same] at manifest₁ ⊢
    have manifest₁ : ManifestComplete s₁ ↔ m.prospective.status = .complete := manifest₁
    cases status : m.prospective.status with
    | complete =>
      have recording : m.prospective.recordingComplete = true := by simp [reported.qualified.recording, status]
      rw [if_pos recording]
      have all := reported.qualified.status.mp status
      refine Runs.pure (iff_of_true ⟨iff_of_true (manifest₁.mpr status) rfl, iff_of_true rfl all, fun no => ?_⟩
        (reported.complete status).2)
      exact absurd (manifest₁.mpr status) no
    | partialOnly =>
      have recording : ¬m.prospective.recordingComplete = true := by simp [reported.qualified.recording, status]
      have partial_ : ¬ManifestComplete s₁ := by simp [manifest₁, status]
      rw [if_neg recording]
      have none_ : ¬(m.issues = [] ∧ evidenceOk r.contract m.audit = true ∧ m.prospective.durabilityComplete = some true) := fun all =>
        absurd (status.symm.trans (reported.qualified.status.mpr all)) (by decide)
      refine Runs.pure ⟨fun honest => ?_, fun fine => ⟨iff_of_false partial_ (by simp), iff_of_false (by simp) none_, fun _ => ?_⟩⟩
      · exact (not_congr (summary₁.trans (reported.summary status).2)).mp (honest.reports partial_).1
      · exact ⟨(not_congr (summary₁.trans (reported.summary status).2)).mpr fine, (not_congr health₁).mpr (reported.health status)⟩
  · rename_i failed
    obtain ⟨status₁, -, issues₁⟩ := persisted.downgraded (by simpa using failed)
    have partial_ : ¬ManifestComplete s₁ := by
      rw [manifest₁]
      simp [status₁]
    obtain ⟨status_, attempts_, status_', attempts_'⟩ : committed.2.summaryStatus = m.summaryStatus ∧
        committed.2.summaryAttempts = m.summaryAttempts ∧ committed.2.healthStatus = m.healthStatus ∧
        committed.2.healthAttempts = m.healthAttempts := by simpa [Memory.written] using persisted.written
    refine (downgrade_runs spoiled framed.valid partial_ status₁ issues₁ ?_ ?_).bind fun m' s' h => Runs.pure h
    · rw [status_', attempts_', health₁]
      cases status : m.prospective.status with
      | complete =>
        have written := (reported.complete status).1
        simp only [Memory.written, Written.mk.injEq] at written
        exact .inl ⟨written.2.2.1, by omega⟩
      | partialOnly => exact .inr (reported.health status)
    · unfold Stale
      rw [status_, attempts_, summary₁]
      cases status : m.prospective.status with
      | complete =>
        obtain ⟨written, fine⟩ := reported.complete status
        simp only [Memory.written, Written.mk.injEq] at written
        exact .inl ⟨written.1, by omega, fine⟩
      | partialOnly => exact .inr (reported.summary status)

/-- For every combination of failing stages where the attempted downgrades and refreshes succeed: the manifest, the
exit code, the issues and the reports say the same if and only if the first summary is not spoiled, or the second
synchronization fails, by which it is written again. -/
theorem finalizeCapture_honest [DecidableEq η] (digest : Content β → η) (r : Request β η) {s : Site β} {fates : List Fate}
    {code : ℕ} {m : Memory} {h : Host (Site β)} (valid : s.final.Valid) (summary : ¬States summaryPath s)
    (health : ¬States healthPath s) (ends : finalizeCapture true digest r ⟨s, fates⟩ = (.value (code, m), h)) :
    Honest r code m h.state ↔ ¬∃ m₁ h₁, prepare true digest r ⟨s, fates⟩ = (.value (true, m₁), h₁) ∧
      Spoiled r m₁ ∧ r.resync = .done := by
  have prepared := (prepare_runs r digest valid summary health fates fun no => no.elim).2
  unfold finalizeCapture at ends
  change Program.bind _ _ _ = _ at ends
  unfold Program.bind at ends
  rcases first : prepare true digest r ⟨s, fates⟩ with ⟨⟨persisted, m₁⟩ | error | _, h₁⟩
  · rw [first] at prepared ends
    obtain ⟨start, qualified, issues⟩ := prepared
    cases persisted with
    | true =>
      obtain ⟨qualified, fresh⟩ := qualified rfl
      have reports : (do
          let m ← writeReports true r m₁
          commit true r m).Runs False (fun _ => True)
            (fun result s' => Honest r result.1 result.2 s' ↔ ¬(Spoiled r m₁ ∧ r.resync = Fate.done)) (fun _ _ => False) h₁.state :=
        (writeReports_runs start qualified fresh).bind fun m s reported => commit_runs reported
      have last := (reports h₁.fates fun no => no.elim).2
      have ended : (writeReports true r m₁ >>= fun m => commit true r m) ⟨h₁.state, h₁.fates⟩ = (.value (code, m), h) := ends
      rw [ended] at last
      refine last.trans (not_congr ⟨fun spoiled => ⟨m₁, h₁, rfl, spoiled⟩, ?_⟩)
      rintro ⟨m', h', same, spoiled⟩
      obtain ⟨⟨-, rfl⟩, -⟩ : (True ∧ m₁ = m') ∧ h₁ = h' := by simpa using same
      exact spoiled
    | false =>
      change (Outcome.value (2, m₁), h₁) = (.value (code, m), h) at ends
      cases ends
      refine iff_of_true ((honest_unfinished start.manifest (issues rfl)).mpr ⟨start.summary, start.health⟩) ?_
      rintro ⟨m', h', same, -⟩
      simp at same
  · rw [first] at ends
    cases ends
  · rw [first] at ends
    cases ends

/-! A finalization in which all goes well, but for the fate of the first summary. -/

def benchRequest (summary : Fate) : Request ℕ ℕ where
  failures := []
  controls := none
  contract := false
  results := [("wheel", some 0)]
  journals := []
  indexes := []
  audit := .ok ⟨true, some true, none, []⟩
  hashes := []
  listing := []
  fresh _ := "fresh"
  stamp := "stamp"
  summary
  resync := .done

def blank : Archive ℕ := ⟨fun _ => none, fun _ => [none], fun _ => ⟨.nothing, (), true, true⟩, 0, fun _ => true⟩

def benchSite : Site ℕ := mkdir ["sources"] ⟨Tree.empty, blank, []⟩

def benchEnd (summary : Fate) : Outcome String (ℕ × Memory) × Host (Site ℕ) :=
  finalizeCapture true (fun _ => 0) (benchRequest summary) ⟨benchSite, []⟩

theorem blank_valid : blank.Valid := ⟨fun _ => List.mem_cons_self, fun _ _ there => by simp [blank] at there⟩

theorem benchSite_valid : benchSite.final.Valid :=
  (Framed.mkdir (s := ⟨Tree.empty, blank, []⟩) (.start blank_valid) (List.not_mem_nil (a := ["sources"]))).valid

def benchMemory (summary : Fate) : Memory :=
  match (benchEnd summary).1 with
  | .value result => result.2
  | _ => opened (benchRequest summary)

theorem bench_honest :
    benchEnd .done = (.value (0, benchMemory .done), (benchEnd .done).2) ∧
      Honest (benchRequest .done) 0 (benchMemory .done) (benchEnd .done).2.state := by
  have ends : finalizeCapture true (fun _ => 0) (benchRequest .done) ⟨benchSite, []⟩ =
      (.value (0, benchMemory .done), (benchEnd .done).2) := rfl
  refine ⟨ends, (finalizeCapture_honest (fun _ => 0) (benchRequest .done) benchSite_valid ?_ ?_ ends).mpr ?_⟩
  · rintro ⟨c, here, -⟩
    cases here
  · rintro ⟨c, here, -⟩
    cases here
  · rintro ⟨m₁, h₁, -, ⟨-, way, fails, -⟩, -⟩
    cases fails

/-- The first summary is written and then fails: the manifest is partial, and the summary says COMPLETE. -/
theorem summary_spoiled :
    benchEnd (.fails 100) = (.value (2, benchMemory (.fails 100)), (benchEnd (.fails 100)).2) ∧
      ¬ManifestComplete (benchEnd (.fails 100)).2.state ∧ States summaryPath (benchEnd (.fails 100)).2.state := by
  refine ⟨rfl, ?_, ⟨.part (.summary .complete []) 99, rfl, rfl, by decide⟩⟩
  rintro ⟨manifest, here, complete⟩
  have same : some ((benchMemory (.fails 100)).document : Content ℕ) = some (.manifest manifest) := here
  cases same
  cases complete

end Smartwheel.Capture
