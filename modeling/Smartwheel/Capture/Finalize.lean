import Mathlib.Data.Int.Notation
import Smartwheel.Effect.Faulty
import Smartwheel.Disk.Tree
import Smartwheel.Disk.Volume

/-! `finalize_capture`: stopped sources are copied, indexed, audited, hashed and synced, and the manifest, the summary and
the health report are written from one result that may be downgraded after any of them. -/
namespace Smartwheel.Capture
open Effect Disk
open Effect.Program hiding pure bind

inductive Status where
  | complete
  | partialOnly
deriving DecidableEq, Repr

structure Issue where
  code : String
  evidence : String
  detail : String
deriving DecidableEq, Repr

/-- What of `capture_manifest.json` the finalization decides. -/
structure Manifest where
  status : Status
  recordingComplete : Bool
  finalizationState : String
  issues : List Issue
  durabilityComplete : Option Bool
  completionPending : List String
  manifestPersistenceFailed : Bool
  cleanup : Option String
deriving DecidableEq, Repr

inductive Content (β : Type) where
  | folder
  | nothing
  | bytes (value : β)
  | manifest (value : Manifest)
  | summary (status : Status) (issues : List Issue)
  | health (status : Status)
  | diagnosis (status : Status)
  | progress (stage : String)
  | logged (before : Content β) (stage : String)
  | part (whole : Content β) (arrived : ℕ)
deriving DecidableEq, Repr

inductive Node (β : Type) where
  | file (content : Content β)
  | link
  | special
deriving DecidableEq, Repr

/-- A final directory on disk; its directories are names too. -/
abbrev Archive (β : Type) := Volume Path Path (Content β) Unit

structure Site (β : Type) where
  staged : Disk.Tree (Node β)
  final : Archive β
  dirs : List Path

def manifestPath : Path := ["capture_manifest.json"]
def summaryPath : Path := ["summary_zh.md"]
def healthPath : Path := ["health.json"]
def diagnosisPath : Path := ["diagnosis_zh.md"]

/-- What an audit returns; `transport_complete` and `window_complete` may be missing. -/
structure Audit where
  recordingComplete : Bool
  transportComplete : Option Bool
  windowComplete : Option Bool
  issues : List Issue
deriving DecidableEq, Repr

/-- The variables of `finalize_capture`: the issues, the result, the audit, and what was written of it. -/
structure Memory where
  issues : List Issue
  prospective : Manifest
  audit : Audit
  summaryStatus : Option Status
  healthStatus : Option Status
  healthAttempts : ℕ
  summaryAttempts : ℕ
deriving DecidableEq, Repr

structure Request (β η : Type) where
  failures : List String
  controls : Option String
  contract : Bool
  results : List (String × Option ℤ)
  journals : List (String × Option (List (Path × Option (Content β))))
  indexes : List (Path × Content β)
  audit : Except String Audit
  hashes : Table η
  listing : List Path
  fresh : ℕ → String
  stamp : String
  summary : Fate
  resync : Fate

section
variable {β η : Type}

def Site.IsDirectory (s : Site β) (p : Path) : Prop := p = [] ∨ p ∈ s.dirs

instance (s : Site β) (p : Path) : Decidable (s.IsDirectory p) := by
  unfold Site.IsDirectory
  infer_instance

def onFinal (f : Archive β → Archive β) (s : Site β) : Site β := { s with final := f s.final }

def check (reason : String) : Program (Host (Site β)) String Unit := atomic reason id

/-- `destination_guard.check()`. -/
def guard : Program (Host (Site β)) String Unit := check "CAPTURE_DESTINATION_UNAVAILABLE"

def torn (p : Path) (c : Content β) : ℕ → Site β → Site β
  | 0 => id
  | way + 1 => onFinal (Volume.write p (.part c way) ())

def writeFile (p : Path) (c : Content β) : Program (Host (Site β)) String Unit :=
  attempt "OSError" (onFinal (Volume.write p c ())) (torn p c)

/-- A file that is opened with `'x'`. -/
def writeNew (p : Path) (c : Content β) : Program (Host (Site β)) String Unit := do
  let there ← view "OSError" fun s => decide (s.final.present p = true ∨ ¬s.IsDirectory p.dropLast)
  raiseIf (there = true) "OSError"
  writeFile p c

def mkdir (p : Path) (s : Site β) : Site β :=
  { s with final := (s.final.write p .folder ()).syncFile p, dirs := p :: s.dirs }

def makeDirectory (p : Path) : Program (Host (Site β)) String Unit := do
  let there ← view "OSError" fun s => decide (s.final.present p = true ∨ ¬s.IsDirectory p.dropLast)
  raiseIf (there = true) "OSError"
  atomic "OSError" (mkdir p)

/-- `atomic_json`. -/
def atomicJson (p : Path) (c : Content β) : Program (Host (Site β)) String Unit := do
  writeFile (temporary p) c
  atomic "OSError" (onFinal (Volume.syncFile (temporary p)))
  atomic "OSError" (onFinal (Volume.rename (temporary p) p))
  atomic "OSError" (onFinal (Volume.syncDir List.dropLast p.dropLast))

def Memory.note (m : Memory) (issues : List Issue) : Memory := { m with issues := m.issues ++ issues }

def Memory.issue (m : Memory) (code evidence detail : String) : Memory := m.note [⟨code, evidence, detail⟩]

def Memory.document (m : Memory) : Content β := .manifest { m.prospective with issues := m.issues }

/-- A write that downgrades or refreshes what is there; where `steady`, it succeeds. -/
def again {α : Type} (steady : Bool) (x : Program (Host (Site β)) String α) : Program (Host (Site β)) String α :=
  if steady then calmly x else x

def Memory.uncommitted (m : Memory) (stage error : String) : Memory :=
  { m.issue "CAPTURE_MANIFEST_WRITE_FAILED" "capture_manifest.json" ("RuntimeError: " ++ stage ++ ": " ++ error) with
    prospective := { m.prospective with status := .partialOnly, recordingComplete := false, manifestPersistenceFailed := true } }

def writeManifest (m : Memory) : Program (Host (Site β)) String Unit := do
  guard
  atomicJson manifestPath m.document

/-- `persist`: a write that fails is followed by one explicit downgrade. -/
def persist (steady : Bool) (stage : String) (m : Memory) : Program (Host (Site β)) String (Bool × Memory) :=
  Program.handle (do
    writeManifest m
    return (true, m)) fun error => do
      Program.handle (again steady (writeManifest (m.uncommitted stage error))) fun _ => pure ()
      return (false, m.uncommitted stage error)

def tried {α : Type} (x : Program (Host (Site β)) String α) : Program (Host (Site β)) String (Except String α) :=
  Program.handle (do
    let a ← x
    return .ok a) fun error => pure (.error error)

def stage (x : Program (Host (Site β)) String Unit) (code evidence : String) : Program (Host (Site β)) String (List Issue) :=
  Program.handle (do
    x
    return []) fun error => pure [⟨code, evidence, error⟩]

/-- The entries that `copytree` copies; it goes on after an error and raises at the end. -/
def copyEntries (destination : Path) : List (Path × Option (Content β)) → Program (Host (Site β)) String Bool
  | [] => pure false
  | (p, entry) :: rest => do
    let failed ← Program.handle (do
      match entry with
      | none => makeDirectory (destination ++ p)
      | some c => writeNew (destination ++ p) c
      return false) fun _ => pure true
    let others ← copyEntries destination rest
    return failed || others

/-- `shutil.copytree`. -/
def copyTree (destination : Path) (entries : List (Path × Option (Content β))) : Program (Host (Site β)) String Unit := do
  makeDirectory destination
  let failed ← copyEntries destination entries
  raiseIf (failed = true) "Error"

def copySide : String × Option (List (Path × Option (Content β))) → Program (Host (Site β)) String Unit
  | (_, none) => guard
  | (side, some entries) => do
    guard
    copyTree ["sources", "lidar", side] entries

def copySides : List (String × Option (List (Path × Option (Content β)))) → Program (Host (Site β)) String (List Issue)
  | [] => pure []
  | side :: rest => do
    let first ← stage (copySide side) "CAPTURE_SOURCE_COPY_FAILED" ("sources/lidar/" ++ side.1)
    let others ← copySides rest
    return first ++ others

/-- `try` the directory, `except` an issue, `else` the journals of the selected sides. -/
def copySources (r : Request β η) : Program (Host (Site β)) String (List Issue) := do
  let made ← tried (do
    check "STORAGE"
    makeDirectory ["sources", "lidar"])
  match made with
  | .error error => return [⟨"CAPTURE_SOURCE_COPY_FAILED", "sources/lidar", error⟩]
  | .ok _ => copySides r.journals

/-- `path.parent.mkdir(parents=True,exist_ok=True)`, from the top. -/
def makeParents (top : Path) : List String → Program (Host (Site β)) String Unit
  | [] => pure ()
  | name :: rest => do
    let there ← view "OSError" fun s => decide (s.IsDirectory (top ++ [name]))
    when (there = false) (makeDirectory (top ++ [name]))
    makeParents (top ++ [name]) rest

/-- `create_source_indexes`: all are opened, the records are read, and each gets its lines. -/
def createSourceIndexes : List (Path × Content β) → Program (Host (Site β)) String Unit
  | [] => check "records.jsonl"
  | (p, c) :: rest => do
    makeParents ["sources"] p.dropLast
    writeNew ("sources" :: p) .nothing
    createSourceIndexes rest
    writeFile ("sources" :: p) c

/-- The frozen files that are not there; `false` where the scan ends with an error. -/
def missingFiles : List (Path × η) → Program (Host (Site β)) String (Bool × List Issue)
  | [] => pure (true, [])
  | (p, _) :: rest => do
    let there ← tried (view "OSError" fun s => s.final.present p)
    match there with
    | .error error => return (false, [⟨"CAPTURE_HASH_SCAN_FAILED", ".", error⟩])
    | .ok true => missingFiles rest
    | .ok false => do
      let others ← missingFiles rest
      return (others.1, ⟨"CAPTURE_FROZEN_INPUT_MISSING", String.intercalate "/" p,
        "ValueError: immutable snapshot file is missing"⟩ :: others.2)

def unhashed : List String := ["capture_manifest.json", "health.json", "diagnosis_zh.md", "summary_zh.md"]

def compared [DecidableEq η] (p : Path) (frozen : Option η) (actual : η) : List Issue :=
  if frozen ≠ none ∧ frozen ≠ some actual then
    [⟨"CAPTURE_FROZEN_INPUT_CHANGED", String.intercalate "/" p, "ValueError: immutable snapshot hash changed"⟩]
  else []

def changedFiles [DecidableEq η] (digest : Content β → η) (hashes : Table η) :
    List Path → Program (Host (Site β)) String (List Issue)
  | [] => pure []
  | p :: rest => do
    let content ← tried (view "OSError" fun s => s.final.holds p)
    match content with
    | .error error => return [⟨"CAPTURE_HASH_SCAN_FAILED", ".", error⟩]
    | .ok none => changedFiles digest hashes rest
    | .ok (some c) =>
      if p.getLast?.getD "" ∈ unhashed then changedFiles digest hashes rest
      else do
        let failed ← stage (check "OSError") "CAPTURE_HASH_FAILED" (String.intercalate "/" p)
        let others ← changedFiles digest hashes rest
        return (if failed = [] then compared p (hashes.lookup p) (digest c) else failed) ++ others

def hashFiles [DecidableEq η] (digest : Content β → η) (r : Request β η) : Program (Host (Site β)) String (List Issue) := do
  let missing ← missingFiles r.hashes
  if missing.1 then do
    let changed ← changedFiles digest r.hashes r.listing
    return missing.2 ++ changed
  else return missing.2

/-- `synchronize_tree`: every file, and every directory, the deepest first. -/
def syncSteps (listing : List Path) (s : Site β) : List (Site β → Site β) :=
  listing.map (fun p => onFinal (Volume.syncFile p)) ++
    (s.dirs ++ [[]]).map fun d => onFinal (Volume.syncDir List.dropLast d)

def synchronizeTree (r : Request β η) : Program (Host (Site β)) String Unit := do
  let steps ← view "OSError" (syncSteps r.listing)
  each (atomic "OSError") steps
  check "OSError"

def resynchronizeTree (r : Request β η) : Program (Host (Site β)) String Unit :=
  fated r.resync "OSError" (fun s => (syncSteps r.listing s).foldl (fun s step => step s) s)
    fun way s => ((syncSteps r.listing s).take way).foldl (fun s step => step s) s

def evidenceOk (contract : Bool) (audit : Audit) : Bool :=
  if contract then audit.transportComplete == some true && audit.windowComplete == some true else audit.recordingComplete

/-- `qualify`. -/
def qualify (contract : Bool) (m : Memory) : Memory :=
  let complete := evidenceOk contract m.audit && m.prospective.durabilityComplete == some true && m.issues.isEmpty
  let pending := if contract then
      [("transport", m.audit.transportComplete), ("window", m.audit.windowComplete),
        ("durability", m.prospective.durabilityComplete)].filterMap fun e => if e.2 = some true then none else some e.1
    else []
  { m with prospective := { m.prospective with
      completionPending := pending
      recordingComplete := complete
      status := if complete then .complete else .partialOnly } }

def Memory.summary (m : Memory) : Content β := .summary m.prospective.status m.issues

/-- `write_summary` for the first time, with its guard, as one operation of a given fate. -/
def writeSummary (r : Request β η) (m : Memory) : Program (Host (Site β)) String Memory := do
  let m := { m with summaryAttempts := m.summaryAttempts + 1 }
  let written ← tried (fated r.summary "OSError" (onFinal (Volume.write summaryPath m.summary ())) (torn summaryPath m.summary))
  match written with
  | .ok _ => return { m with summaryStatus := some m.prospective.status }
  | .error error => return qualify r.contract (m.issue "CAPTURE_SUMMARY_WRITE_FAILED" "summary_zh.md" error)

/-- `write_summary(refresh=True)`. -/
def refreshSummary (steady : Bool) (r : Request β η) (m : Memory) : Program (Host (Site β)) String Memory := do
  let m := { m with summaryAttempts := m.summaryAttempts + 1 }
  let written ← tried (again steady (do
    guard
    writeFile summaryPath m.summary))
  match written with
  | .ok _ => return { m with summaryStatus := some m.prospective.status }
  | .error error => return qualify r.contract (m.issue "CAPTURE_SUMMARY_REFRESH_FAILED" "summary_zh.md" error)

/-- One of the two files of `write_health_report`, by a temporary name that is new. -/
def writeReport (fresh : String) (p : Path) (c : Content β) : Program (Host (Site β)) String Unit :=
  let temp := ["." ++ p.getLast?.getD "" ++ ".tmp-" ++ fresh]
  Program.ensure (do
    writeFile temp c
    atomic "OSError" (onFinal (Volume.rename temp p))) (do
    let there ← view "OSError" fun s => s.final.present temp
    when (there = true) (atomic "OSError" (onFinal (Volume.unlink temp))))

def writeHealthReport (r : Request β η) (m : Memory) : Program (Host (Site β)) String Unit := do
  guard
  check "ValueError"
  writeReport (r.fresh (2 * m.healthAttempts)) healthPath (.health m.prospective.status)
  writeReport (r.fresh (2 * m.healthAttempts + 1)) diagnosisPath (.diagnosis m.prospective.status)

/-- `write_health`, and whether it was written. -/
def writeHealth (steady refresh : Bool) (r : Request β η) (m : Memory) : Program (Host (Site β)) String (Bool × Memory) := do
  let m := { m with healthAttempts := m.healthAttempts + 1 }
  let written ← tried (if refresh then again steady (writeHealthReport r m) else writeHealthReport r m)
  match written with
  | .ok _ => return (true, { m with healthStatus := some m.prospective.status })
  | .error error => return (false, qualify r.contract (m.issue
      (if refresh then "CAPTURE_HEALTH_REPORT_REFRESH_FAILED" else "CAPTURE_HEALTH_REPORT_FAILED") "health.json; diagnosis_zh.md" error))

def failedPath (stamp : String) (p : Path) : Path :=
  if p = healthPath then ["health.failed_finalization_" ++ stamp ++ ".json"]
  else ["diagnosis_zh.failed_finalization_" ++ stamp ++ ".md"]

def retainReport (r : Request β η) (p : Path) : Program (Host (Site β)) String (List Issue) :=
  stage (do
    guard
    let there ← view "OSError" fun s => s.final.present p
    when (there = true) (atomic "OSError" (onFinal (Volume.rename p (failedPath r.stamp p)))))
    "CAPTURE_HEALTH_REPORT_RETENTION_FAILED" (p.getLast?.getD "")

def opened (r : Request β η) : Memory where
  issues := r.failures.map (fun f => ⟨"CAPTURE_INTERRUPTED", "logs", f⟩) ++
    r.controls.toList.map fun e => ⟨"CONTROL_FINAL_EVIDENCE_INVALID", "sources/wheel_summary.json", "ValueError: " ++ e⟩
  prospective := ⟨.partialOnly, false, "FINALIZING", [], none, [], false, none⟩
  audit := ⟨false, none, none, []⟩
  summaryStatus := none
  healthStatus := none
  healthAttempts := 0
  summaryAttempts := 0

def indexSources (r : Request β η) : Program (Host (Site β)) String (List Issue) :=
  if r.contract then stage (do
    guard
    createSourceIndexes r.indexes) "CAPTURE_SOURCE_INDEX_FAILED" "sources"
  else pure []

def audited (r : Request β η) (m : Memory) : Memory :=
  let m := match r.audit with
    | .ok audit => Memory.note { m with audit } audit.issues
    | .error error => m.issue "CAPTURE_AUDIT_FAILED" "sources/index.jsonl; bag; sources" error
  if ∃ e ∈ r.results, e.2 ≠ some 0 ∧ e.1 ≠ "preview" then m.issue "CAPTURE_PROCESS_INCOMPLETE" "logs" "ValueError" else m

def Memory.synced (m : Memory) : Except String Unit → Memory
  | .ok _ => { m with prospective := { m.prospective with durabilityComplete := some true } }
  | .error error =>
    Memory.issue { m with prospective := { m.prospective with durabilityComplete := some false } }
      "CAPTURE_DURABILITY_FAILED" "sources; bag; configuration; software" error

/-- Between the checkpoint and the first `qualify`. -/
def collectEvidence [DecidableEq η] (digest : Content β → η) (r : Request β η) (m : Memory) :
    Program (Host (Site β)) String Memory := do
  let copied ← copySources r
  let indexed ← indexSources r
  let hashed ← hashFiles digest r
  let synced ← tried (do
    guard
    synchronizeTree r)
  let noted := (audited r ((m.note copied).note indexed)).note hashed
  let final := { noted with prospective := { noted.prospective with finalizationState := "FINALIZED" } }
  return qualify r.contract (final.synced synced)

/-- Up to the first `qualify`; `false` where the checkpoint could not be written. -/
def prepare [DecidableEq η] (steady : Bool) (digest : Content β → η) (r : Request β η) :
    Program (Host (Site β)) String (Bool × Memory) := do
  guard
  check "JSONDecodeError"
  let checkpoint ← persist steady "FINALIZING_CHECKPOINT" (opened r)
  if checkpoint.1 then do
    let m ← collectEvidence digest r checkpoint.2
    return (true, m)
  else return (false, checkpoint.2)

def restateSummary (steady : Bool) (r : Request β η) (m : Memory) : Program (Host (Site β)) String Memory :=
  if m.summaryStatus = some .complete ∧ m.summaryAttempts < 2 then refreshSummary steady r m else pure m

def retryHealth (steady : Bool) (r : Request β η) (m : Memory) : Program (Host (Site β)) String Memory := do
  let retried ← writeHealth steady true r m
  if retried.1 then restateSummary steady r retried.2
  else do
    let health ← retainReport r healthPath
    let diagnosis ← retainReport r diagnosisPath
    restateSummary steady r ((retried.2.note health).note diagnosis)

def firstReports (steady : Bool) (r : Request β η) (m : Memory) : Program (Host (Site β)) String Memory := do
  let m ← writeSummary r m
  let health ← writeHealth steady false r m
  if health.1 then pure health.2 else retryHealth steady r health.2

def writeReports (steady : Bool) (r : Request β η) (m : Memory) : Program (Host (Site β)) String Memory := do
  let m ← firstReports steady r m
  let synced ← tried (resynchronizeTree r)
  match synced with
  | .ok _ => return m
  | .error error => do
    let lost := { m with prospective := { m.prospective with durabilityComplete := some false } }
    let m ← refreshSummary steady r
      (qualify r.contract (lost.issue "CAPTURE_REPORT_DURABILITY_FAILED" "health.json; summary_zh.md" error))
    let health ← writeHealth steady true r m
    return health.2

def restateHealth (steady : Bool) (r : Request β η) (m : Memory) : Program (Host (Site β)) String Memory :=
  if m.healthStatus = some .complete ∧ m.healthAttempts < 2 then do
    let health ← writeHealth steady true r m
    if health.1 then pure health.2 else do
      let retained ← retainReport r healthPath
      return health.2.note retained
  else pure m

def downgrade (steady : Bool) (r : Request β η) (m : Memory) : Program (Host (Site β)) String Memory := do
  let restated ← restateHealth steady r m
  let restated ← restateSummary steady r restated
  if restated.issues.length = m.issues.length then return restated
  else do
    let _ ← tried (again steady (writeManifest restated))
    return restated

def commit (steady : Bool) (r : Request β η) (m : Memory) : Program (Host (Site β)) String (ℕ × Memory) := do
  let committed ← persist steady "FINAL_RESULT" m
  if committed.1 then return (if committed.2.prospective.recordingComplete then 0 else 2, committed.2)
  else do
    let m ← downgrade steady r committed.2
    return (2, m)

/-- `finalize_capture`: the exit code, and the variables at the end. -/
def finalizeCapture [DecidableEq η] (steady : Bool) (digest : Content β → η) (r : Request β η) :
    Program (Host (Site β)) String (ℕ × Memory) := do
  let prepared ← prepare steady digest r
  if prepared.1 then do
    let m ← writeReports steady r prepared.2
    commit steady r m
  else return (2, prepared.2)

end
end Smartwheel.Capture
