import Smartwheel.Interactive.Control
import Mathlib.Logic.Function.Basic
import Mathlib.Algebra.Order.Ring.Rat

/-! `InteractiveCoordinator`: one persistent preview window with separate mapping sessions. A single worker runs
the backend's start and stop; the main loop, the handlers and the final block of `run` are cut into the segments
between which the worker, the window, the save process and the readers of the two files may act. -/
namespace Smartwheel.Interactive
open Effect

/-- What `session_request` passes to the backend. -/
structure Request where
  sessionId : String
  outputDir : String
  mode : String
  mappingEnabled : Bool
  cloudSource : Option String
  retentionProfile : String
  /-- The optional settings copied from the requested profile. -/
  options : Document
deriving DecidableEq, Repr

inductive Operation where
  | startMap | startPreview | stopMap | stopPreview
deriving DecidableEq, Repr

namespace Operation

/-- `operation.startswith('start_')`. -/
def starts : Operation → Bool
  | .startMap | .startPreview => true
  | .stopMap | .stopPreview => false

end Operation

/-- `backend.stop`'s dictionary; the exit code is `none` where it is missing or no integer. -/
structure CloseState where
  state : String
  exitCode : Option ℤ
  cleanupErrors : List String
deriving DecidableEq, Repr

/-- `normal_close`; `none` is a value that is no dictionary. -/
def normalClose : Option CloseState → Bool
  | some c => c.state = "STOPPED" ∧ c.exitCode = some 0 ∧ c.cleanupErrors = []
  | none => false

/-- What a submitted operation returns; a session is `none` where `backend.start` returned no dictionary, and
`text` is `str` of what `backend.stop` returned. -/
inductive Answer where
  | cancelledBeforeStart
  | session (handle : Option Handle)
  | closed (state : Option CloseState) (text : String)
deriving DecidableEq, Repr

inductive Work where
  | start (request : Request)
  | stop (handle : Handle)
deriving DecidableEq, Repr

inductive Progress where
  | queued
  | running
  | done (result : Except String Answer)

structure Future where
  work : Work
  progress : Progress

/-- `OwnedSave`, with the exit code of its process once that has ended. -/
structure OwnedSave where
  handle : Handle
  job : Nat
  cancelled : Bool
  exitCode : Option ℤ
deriving DecidableEq, Repr

inductive After where
  | map | preview | close
deriving DecidableEq, Repr

inductive Call where
  | start (request : Request)
  | started (request : Request) (handle : Handle)
  | startFailed (request : Request)
  | stopped (handle : Handle) (result : Option (Option CloseState))
  | discard (handle : Handle)
deriving DecidableEq, Repr

structure Coordinator where
  request : Request
  control : WindowControl
  future : Option Future
  operation : Option Operation
  nextRequest : Option Request
  active : Option Handle
  /-- The window's process, with its exit code once it has ended. -/
  gui : Option (Option ℤ)
  guiRetryUsed : Bool
  saver : Option OwnedSave
  pendingMap : Option Handle
  closing : Bool
  cancelStart : Bool
  errors : List String
  results : List SaveResult
  sequence : Nat
  saveSequence : Nat
  lastStorageCheck : Option ℚ
  desiredAfterStop : Option After
  stopAttempts : String → Nat
  unconfirmed : List Handle
  failedOperation : Option Operation
  savePollError : Option String
  /-- The backend calls so far, the latest first. -/
  calls : List Call

/-- `save-<job>.result.json`. -/
structure ResultDocument where
  windowId : String
  job : String
  sessionId : String
  result : Option SaveResult
deriving DecidableEq, Repr

/-- `backend.storage_status`, each number `none` where it is no integer. -/
structure StorageStatus where
  freeBytes : Option ℤ
  stopFreeBytes : Option ℤ
deriving DecidableEq, Repr

structure Answers where
  stopRequested : Bool
  /-- `rviz_startup_retry`, and what opening the window again raises. -/
  retry : Except String Bool
  reopenGui : Option String
  command : CommandFile
  /-- The `uuid4().hex` of the next command token. -/
  token : String
  /-- What `prepare_request` raises. -/
  prepare : Option String
  openGui : Option String
  startSave : Option String
  discard : Except String String
  /-- The file a save process leaves, and what reading it raises. -/
  saveFile : Option (Except String ResultDocument)
  /-- The state of the session `backend.inspect` found, and the whole answer as text. -/
  inspect : Except String (String × String)
  storage : Option (Except String StorageStatus)
  now : ℚ
  closeGui : Option String

abbrev Act (α : Type) := Program Coordinator String α

def onControl {α : Type} (x : Program WindowControl String α) : Act α := fun s =>
  ((x s.control).1, { s with control := (x s.control).2 })

def raiseWhere (error : Option String) : Act Unit :=
  match error with
  | some e => .raise e
  | none => return ()

/-- `str` of a list of texts. -/
def listText (l : List String) : String := "[" ++ ", ".intercalate (l.map fun e => "'" ++ e ++ "'") ++ "]"

namespace OwnedSave

def expected : String → Option ℤ
  | "SAVED" => some 0
  | "DISCARDED" => some 0
  | "SAVE_PENDING" => some 3
  | "FAILED" => some 2
  | _ => none

/-- `SIGTERM` to a process that still runs, once. -/
def cancel (v : OwnedSave) : OwnedSave := { v with cancelled := v.cancelled || v.exitCode.isNone }

def isRunning (v : OwnedSave) : Bool := v.exitCode.isNone

def poll (owner : Owner) (v : OwnedSave) (file : Option (Except String ResultDocument)) :
    Except String (Option SaveResult) :=
  match v.exitCode with
  | none => .ok none
  | some code =>
    match file with
    | some (.error e) => .error e
    | some (.ok value) =>
      if value.windowId ≠ owner.windowId ∨ value.job ≠ toString v.job ∨ value.sessionId ≠ v.handle.sessionId then
        .error "Save result identity mismatch"
      else match value.result with
        | none => .error "Save result session mismatch"
        | some result =>
          if result.sessionId ≠ v.handle.sessionId then .error "Save result session mismatch"
          else if expected result.status = none then .error "Unknown save result"
          else if ¬v.cancelled ∧ expected result.status ≠ some code then
            .error "Save exit status disagrees with its result"
          else .ok (some result)
    | none => .ok (some {
        status := "SAVE_PENDING", sessionId := v.handle.sessionId, directory := v.handle.directory, errors := []
        message := some "保存操作已取消或异常结束；保留现有数据，未声明保存成功。", cleanupErrors := [] })

end OwnedSave

namespace Coordinator

/-- `state`: a published transition. -/
def state (state : State) (message : String) (start stop : Bool) (values : Status → Status) : Act Unit :=
  onControl (WindowControl.publish true fun s => values { s with state, message, canStart := start, canStop := stop })

/-- `str(sequence).zfill(4)`. -/
def zfill (n : Nat) : String := String.ofList (List.replicate (4 - (toString n).length) '0') ++ toString n

def sessionName (windowId : String) (mapping : Bool) (sequence : Nat) : String :=
  String.ofList (windowId.toList.take 52) ++ (if mapping then "_m" else "_p") ++ zfill sequence

def sibling (path name : String) : String :=
  String.ofList ((path.toList.reverse.dropWhile (· ≠ '/')).reverse ++ name.toList)

def copiedOptions : List String :=
  ["panel_layout", "estimator", "live_scheme", "motion_correction", "process_noise", "geometry",
    "cloud_filter_enabled"]

def sessionOptions (requested : Document) (mapping : Bool) : Document :=
  let copied := requested.filter fun o => o.1 ∈ copiedOptions
  if mapping then copied
  else copied.filter (fun o => o.1 ∉ ["motion_correction", "geometry", "process_noise"]) ++
    [("motion_correction", .bool false), ("geometry", .bool false), ("process_noise", .str "legacy")]

def nextSession (s : Coordinator) (mapping : Bool) : Request :=
  let name := sessionName s.control.status.owner.windowId mapping s.sequence
  { s.request with
    sessionId := name, outputDir := sibling s.request.outputDir name, mappingEnabled := mapping
    options := sessionOptions s.request.options mapping }

def sessionRequest (a : Answers) (mapping : Bool) : Act Request := do
  .modify fun s => { s with sequence := s.sequence + 1 }
  let s ← .get
  raiseWhere a.prepare
  return s.nextSession mapping

def beginStart (a : Answers) (mapping : Bool) : Act Unit := do
  let request ← sessionRequest a mapping
  .modify fun s => { s with
    nextRequest := some request
    operation := some (if mapping then .startMap else .startPreview)
    future := some ⟨.start request, .queued⟩ }

def beginStop (after : After) : Act Unit := do
  let s ← .get
  match s.active with
  | none => .raise "No owned session to stop"
  | some active =>
    .modify fun s => { s with desiredAfterStop := some after }
    .raiseIf (2 ≤ s.stopAttempts active.sessionId) "Owned stop attempt budget exhausted"
    .modify fun s => { s with
      stopAttempts := Function.update s.stopAttempts active.sessionId (s.stopAttempts active.sessionId + 1)
      operation := some (if active.mappingEnabled then .stopMap else .stopPreview)
      future := some ⟨.stop active, .queued⟩ }

def openGui (error : Option String) : Act Unit := do
  raiseWhere error
  .modify fun s => { s with gui := some none }

def cancelSaver (s : Coordinator) : Coordinator := { s with saver := s.saver.map OwnedSave.cancel }

def addError (error : Option String) : Act Unit := .modify fun s => { s with errors := s.errors ++ error.toList }

def requestClose (error : Option String) : Act Unit := do
  addError error
  let s ← .get
  .when (s.closing = false) do
    .modify fun s => { s with closing := true }
    state .closing "正在停止本窗口的设备与保存进程；未完成地图将保留。" false false id
  .modify cancelSaver

def startSave (a : Answers) (handle : Handle) : Act Unit := do
  .modify fun s => { s with saveSequence := s.saveSequence + 1, pendingMap := none, savePollError := none }
  match a.startSave with
  | some e =>
    .modify fun s => { s with pendingMap := some handle }
    .raise e
  | none =>
    .modify fun s => { s with saver := some ⟨handle, s.saveSequence, false, none⟩ }
    state .saving "已恢复当前帧预览，正在处理上一份地图的保存选择。" false false
      fun v => { v with save := ⟨"RUNNING", some handle.sessionId, none⟩ }

def sessionStarted (a : Answers) (operation : Operation) : Act Unit := do
  let s ← .get
  if s.closing then beginStop .close
  else if operation = .startMap ∧ s.cancelStart then do
    state .stopping "已取消开始，正在正常关闭刚启动的会话。" false false id
    beginStop .preview
  else
    .when (s.gui = none) (openGui a.openGui)
    if operation = .startMap then state .mapping "正在建图；再次点击停止并保存。" false true id
    else match s.pendingMap with
      | some handle => startSave a handle
      | none => state .preview "当前帧实时预览；点击开始建立一份新地图。" true false id

def identified (next : Option Request) (handle : Handle) : Bool :=
  next.any fun r => r.sessionId = handle.sessionId ∧ r.mappingEnabled = handle.mappingEnabled

def startCompleted (a : Answers) (operation : Operation) (answer : Answer) : Act Unit := do
  match answer with
  | .cancelledBeforeStart =>
    .modify fun s => { s with failedOperation := none }
    .when a.stopRequested (requestClose none)
    let s ← .get
    .when (s.closing = false) do
      .modify fun s => { s with cancelStart := false }
      beginStart a false
      state .stopping "已取消开始，正在恢复当前帧预览。" false false id
  | .session (some handle) =>
    let s ← .get
    .raiseIf (identified s.nextRequest handle = false) "Started session identity mismatch"
    .modify fun s => { s with active := some handle, failedOperation := none }
    onControl (WindowControl.bind (some handle))
    sessionStarted a operation
  | .session none | .closed .. => .raise "Started session identity mismatch"

def disposeStopped (a : Answers) (operation : Operation) (stopped : Handle) : Act Unit := do
  if operation = .stopMap then .modify fun s => { s with pendingMap := some stopped }
  else
    .modify fun s => { s with calls := .discard stopped :: s.calls }
    match a.discard with
    | .error e => .raise e
    | .ok status => .raiseIf (status ≠ "SESSION_DATA_DISCARDED") "Stopped preview cleanup was not confirmed"

def sessionStopped (a : Answers) : Act Unit := do
  let s ← .get
  if s.closing then onControl (WindowControl.publish true id)
  else if s.desiredAfterStop = some .map ∧ s.cancelStart = false then do
    beginStart a true
    state .starting "正在切换：启动新的建图会话。" false true id
  else
    .modify fun s => { s with cancelStart := false }
    beginStart a false
    state .stopping "正在切换：恢复当前帧实时预览。" false false id

def stopCompleted (a : Answers) (operation : Operation) (answer : Answer) : Act Unit := do
  match answer with
  | .closed closed text =>
    .raiseIf (normalClose closed = false) ("Owned session did not close normally: " ++ text)
    let s ← .get
    .modify fun s => { s with failedOperation := none, active := none }
    onControl (WindowControl.bind none)
    match s.active with
    | some stopped =>
      disposeStopped a operation stopped
      sessionStopped a
    | none => .raise "'NoneType' object is not subscriptable"
  | .cancelledBeforeStart => .raise "Owned session did not close normally: \x7b'cancelled_before_start': True\x7d"
  | .session _ => .raise "Owned session did not close normally"

def completeOperation (a : Answers) : Act Unit := do
  let s ← .get
  match s.future, s.operation with
  | some ⟨_, .done result⟩, some operation =>
    .modify fun s => { s with future := none, operation := none, failedOperation := some operation }
    match result with
    | .error e => .raise e
    | .ok answer => if operation.starts then startCompleted a operation answer else stopCompleted a operation answer
  | _, _ => return ()

def saved (result : SaveResult) : Act Unit := do
  .modify fun s => { s with results := s.results ++ [result], saver := none }
  onControl (WindowControl.publish false fun v => { v with save := ⟨result.status, some result.sessionId, some result⟩ })
  let s ← .get
  .when (s.closing = false) do
    let message :=
      if result.status = "SAVED" ∧ result.cleanupErrors ≠ [] then
        "地图已保存；收尾警告：" ++ listText result.cleanupErrors
      else result.message.getD result.status
    state .preview (message ++ " 当前为实时预览。") true false id

def pollSave (a : Answers) : Act Unit := do
  let s ← .get
  match s.saver with
  | none => return ()
  | some saver =>
    .when s.closing (.modify cancelSaver)
    let saver := if s.closing then saver.cancel else saver
    match saver.poll s.control.status.owner a.saveFile with
    | .ok none => return ()
    | .ok (some result) => saved result
    | .error e =>
      .when (s.savePollError = none) do
        .modify fun s => { s with savePollError := some e }
        requestClose (some ("保存进程结果未通过核验: " ++ e))
      if saver.isRunning then .modify cancelSaver
      else saved {
        status := "FAILED", sessionId := saver.handle.sessionId, directory := saver.handle.directory
        errors := [s.savePollError.getD e]
        message := some "保存进程结果无法核验；保留原件及现有保存目录，不重试删除。", cleanupErrors := [] }

def command (action : Action) : Act Unit := do
  match action with
  | .start =>
    .modify fun s => { s with cancelStart := false }
    state .starting "正在切换：停止预览并准备新地图。" false true id
    beginStop .map
  | .stop =>
    let s ← .get
    if s.control.status.state = .starting then do
      .modify fun s => { s with cancelStart := true }
      state .starting "正在取消开始，等待当前设备切换正常收尾。" false false id
    else
      state .stopping "正在停止建图并关闭数据库，随后恢复实时预览。" false false id
      beginStop .preview

def releaseUnconfirmed (active : Handle) : Act Unit := do
  .modify fun s => { s with
    unconfirmed := s.unconfirmed ++ [active]
    pendingMap := if active.mappingEnabled then some active else s.pendingMap
    active := none }
  onControl (WindowControl.bind none)

def giveUp : Act Unit := do
  let s ← .get
  match s.failedOperation, s.active with
  | some operation, some active =>
    .when (operation.starts = false ∧ 2 ≤ s.stopAttempts active.sessionId) (releaseUnconfirmed active)
  | _, _ => return ()

def operationFailed (error : String) : Act Unit := do
  requestClose (some error)
  giveUp
  .modify fun s => { s with failedOperation := none }

def inspectActive (a : Answers) : Act Unit := do
  let s ← .get
  .when (s.active ≠ none ∧ s.future.isNone ∧ s.closing = false) do
    match a.inspect with
    | .error e => .raise e
    | .ok (observed, text) =>
      .raiseIf (observed ≠ "RUNNING") ("Owned session exited unexpectedly: " ++ text)
      match a.storage with
      | none => return ()
      | some check =>
        .when (s.lastStorageCheck.all fun last => 1 ≤ a.now - last) do
          match check with
          | .error e => .raise e
          | .ok value =>
            .modify fun s => { s with lastStorageCheck := some a.now }
            .raiseIf (¬∃ free ∈ value.freeBytes, ∃ stop ∈ value.stopFreeBytes, 0 < stop ∧ stop < free)
              "Storage unavailable or below finalization threshold; data retained"

/-- `rviz_startup_retry`, asked only where it may be used. -/
def retryEvidence (a : Answers) (code : ℤ) : Act Bool := do
  let s ← .get
  if code ≠ 0 ∧ s.active ≠ none ∧ s.guiRetryUsed = false ∧ s.future.isNone then
    match a.retry with
    | .ok evidence => return evidence
    | .error e => .raise e
  else return false

def watchWindow (a : Answers) : Act Unit := do
  let s ← .get
  match s.gui with
  | some (some code) =>
    .when (s.closing = false) do
      let evidence ← retryEvidence a code
      if evidence then do
        .modify fun s => { s with guiRetryUsed := true }
        openGui a.reopenGui
      else requestClose (if code = 0 then none else some ("RViz exited with code " ++ toString code))
  | _ => return ()

def takeCommand (a : Answers) : Act Unit := do
  let s ← .get
  .when (s.closing = false) do
    let received ← onControl (WindowControl.receive a.command a.token)
    match received with
    | some action => command action
    | none => return ()

def openingRound (a : Answers) : Act Unit := do
  .when a.stopRequested (requestClose none)
  watchWindow a
  takeCommand a

/-- The main loop after `complete_operation`; true where it breaks. -/
def closingRound (a : Answers) : Act Bool := do
  pollSave a
  let s ← .get
  if s.closing then do
    .when (s.future.isNone ∧ s.active ≠ none) (beginStop .close)
    let s ← .get
    return s.future.isNone ∧ s.active = none ∧ s.saver = none
  else do
    inspectActive a
    return false

/-- One `try` of the final block. A future that is not done blocks it. -/
def finishOperation (a : Answers) : Act Unit := do
  let s ← .get
  match s.future with
  | none => beginStop .close
  | some ⟨_, .done (.error e)⟩ => .raise e
  | some ⟨_, .done (.ok _)⟩ => completeOperation a
  | some _ => return ()

def operationDropped (error : String) : Act Unit := do
  let s ← .get
  .when s.future.isSome (.modify fun s => { s with failedOperation := s.operation, future := none, operation := none })
  operationFailed error

/-- `pending_sessions[session_id] = row`: a known session keeps its place. -/
def putPending (rows : List PendingSession) (row : PendingSession) : List PendingSession :=
  if rows.any fun r => r.sessionId = row.sessionId then
    rows.map fun r => if r.sessionId = row.sessionId then row else r
  else rows ++ [row]

def pendingSessions (s : Coordinator) : List PendingSession :=
  let saved := (s.results.filter fun r => r.status = "SAVE_PENDING" ∨ r.status = "FAILED").map fun r =>
    PendingSession.mk r.sessionId r.directory r.status
  let waiting := s.pendingMap.toList.map fun p => PendingSession.mk p.sessionId p.directory "SAVE_PENDING"
  (saved ++ waiting).foldl putPending []

def finalErrors (s : Coordinator) : List String :=
  s.errors ++ (s.results.filter fun r => r.status = "FAILED").map fun r =>
    "地图收尾失败 " ++ r.sessionId ++ ": " ++ listText r.errors

def finalResult (s : Coordinator) : RunResult where
  status :=
    if s.finalErrors ≠ [] then "FAILED" else if s.pendingSessions ≠ [] then "SAVE_PENDING" else "INTERACTIVE_COMPLETE"
  windowId := s.control.status.owner.windowId
  errors := s.finalErrors
  unconfirmedOwnedSessions := s.unconfirmed
  saves := s.results
  pendingSessions := s.pendingSessions
  cleanupErrors := (s.results.filter fun r => r.cleanupErrors ≠ []).map fun r => (r.sessionId, r.cleanupErrors)
  message := "本窗口已关闭；未完成的地图保留，未自动丢弃。"

def exitCode (s : Coordinator) : Nat :=
  if s.finalErrors ≠ [] then 2 else if s.pendingSessions ≠ [] then 3 else 0

/-- The end of `run`: the window closed, the result published and returned. -/
def conclude : Act (RunResult × Nat) := do
  let s ← .get
  onControl (WindowControl.bind none)
  onControl (WindowControl.publish true fun v => { v with
    state := if s.finalErrors ≠ [] then .failed else .closed
    canStart := false, canStop := false, message := s.finalResult.message, result := some s.finalResult })
  return (s.finalResult, s.exitCode)

def cancelledResult (s : Coordinator) : RunResult where
  status := "CANCELLED_BEFORE_START"
  windowId := s.control.status.owner.windowId
  errors := []
  unconfirmedOwnedSessions := []
  saves := []
  pendingSessions := []
  cleanupErrors := []
  message := ""

/-- The worker's progress. `check` is `preflight` with the test before `backend.start`. -/
inductive WorkStep where
  | check (preflight : Option String) (stopRequested : Bool)
  | start (answer : Request → Except String (Option Handle))
  | stop (answer : Handle → Except String (Option CloseState × String))

def work (s : Coordinator) : WorkStep → Coordinator
  | .check preflight stopRequested =>
    match s.future with
    | some ⟨.start request, .queued⟩ =>
      match preflight with
      | some e => { s with future := some ⟨.start request, .done (.error e)⟩ }
      | none =>
        if s.closing ∨ stopRequested ∨ request.mappingEnabled ∧ s.cancelStart then
          { s with future := some ⟨.start request, .done (.ok .cancelledBeforeStart)⟩ }
        else { s with future := some ⟨.start request, .running⟩, calls := .start request :: s.calls }
    | _ => s
  | .start answer =>
    match s.future with
    | some ⟨.start request, .running⟩ =>
      match answer request with
      | .error e =>
        { s with future := some ⟨.start request, .done (.error e)⟩, calls := .startFailed request :: s.calls }
      | .ok handle => { s with
          future := some ⟨.start request, .done (.ok (.session handle))⟩
          calls := match handle with
            | some handle => .started request handle :: s.calls
            | none => s.calls }
    | _ => s
  | .stop answer =>
    match s.future with
    | some ⟨.stop handle, .queued⟩ =>
      match answer handle with
      | .error e =>
        { s with future := some ⟨.stop handle, .done (.error e)⟩, calls := .stopped handle none :: s.calls }
      | .ok (closed, text) => { s with
          future := some ⟨.stop handle, .done (.ok (.closed closed text))⟩
          calls := .stopped handle (some closed) :: s.calls }
    | _ => s

end Coordinator

/-- Where `run` is; `escaped` is the exception the final block ends with. -/
inductive Phase where
  | begin
  | opening
  | completing
  | closing
  | finishing (escaped : Option String)
  | collecting (escaped : Option String)
  | concluding (escaped : Option String)
  | ended (outcome : Except String (RunResult × Nat))

structure Machine where
  me : Coordinator
  phase : Phase

namespace Machine
open Coordinator

def leave (escaped : Option String) (s : Coordinator) : Machine :=
  match requestClose none s with
  | (.raised e, s') => ⟨s', .ended (.error e)⟩
  | (_, s') => ⟨s', .finishing escaped⟩

/-- A segment inside the `try` of the main loop. -/
def guarded {α : Type} (x : Act α) (next : α → Coordinator → Machine) (s : Coordinator) : Machine :=
  match x s with
  | (.value v, s') => next v s'
  | (.raised e, s') =>
    match operationFailed e s' with
    | (.raised e', s'') => leave (some e') s''
    | (_, s'') => ⟨s'', .opening⟩
  | (.cut, s') => ⟨s', .opening⟩

def advance (a : Answers) (m : Machine) : Machine :=
  match m.phase with
  | .begin =>
    if a.stopRequested then
      match onControl (WindowControl.publish true fun v => { v with
          state := .closed, message := "已在设备启动前取消。", result := some m.me.cancelledResult }) m.me with
      | (.raised e, s) => ⟨s, .ended (.error e)⟩
      | (_, s) => ⟨s, .ended (.ok (m.me.cancelledResult, 130))⟩
    else match beginStart a false m.me with
      | (.raised e, s) => leave (some e) s
      | (_, s) => ⟨s, .opening⟩
  | .opening => guarded (openingRound a) (fun _ s => ⟨s, .completing⟩) m.me
  | .completing => guarded (completeOperation a) (fun _ s => ⟨s, .closing⟩) m.me
  | .closing => guarded (closingRound a) (fun stop s => if stop then leave none s else ⟨s, .opening⟩) m.me
  | .finishing escaped =>
    if m.me.future.isNone ∧ m.me.active = none then ⟨cancelSaver m.me, .collecting escaped⟩
    else match finishOperation a |>.handle operationDropped <| m.me with
      | (.raised e, s) => ⟨s, .ended (.error e)⟩
      | (_, s) => ⟨s, .finishing escaped⟩
  | .collecting escaped =>
    if m.me.saver = none then ⟨m.me, .concluding escaped⟩
    else match pollSave a m.me with
      | (.raised e, s) => ⟨{ s with errors := s.errors ++ [e], saver := none }, .collecting escaped⟩
      | (_, s) => ⟨s, .collecting escaped⟩
  | .concluding escaped =>
    match escaped, addError a.closeGui m.me with
    | some e, (_, s) => ⟨s, .ended (.error e)⟩
    | none, (_, s) => match conclude s with
      | (.value result, s) => ⟨s, .ended (.ok result)⟩
      | (.raised e, s) => ⟨s, .ended (.error e)⟩
      | (.cut, s) => ⟨s, .concluding none⟩
  | .ended _ => m

/-- `KeyboardInterrupt` out of `self.wait` between two rounds. -/
def interrupt (m : Machine) : Machine :=
  match m.phase with
  | .opening =>
    match requestClose none m.me with
    | (.raised e, s) => leave (some e) s
    | (_, s) => leave none s
  | _ => m

end Machine

/-- What moves a window on: one segment of `run`, the worker, the window's process, the save process. -/
inductive Event where
  | advance (a : Answers)
  | interrupt
  | work (w : Coordinator.WorkStep)
  | guiExited (code : ℤ)
  | saverExited (code : ℤ)

def Machine.next (m : Machine) : Event → Machine
  | .advance a => m.advance a
  | .interrupt => m.interrupt
  | .work w => { m with me := m.me.work w }
  | .guiExited code =>
    if m.me.gui = some none then { m with me := { m.me with gui := some (some code) } } else m
  | .saverExited code => { m with me := { m.me with
      saver := m.me.saver.map fun v => { v with exitCode := v.exitCode.or (some code) } } }

def Coordinator.opened (request : Request) (control : WindowControl) : Coordinator where
  request
  control
  future := none
  operation := none
  nextRequest := none
  active := none
  gui := none
  guiRetryUsed := false
  saver := none
  pendingMap := none
  closing := false
  cancelStart := false
  errors := []
  results := []
  sequence := 0
  saveSequence := 0
  lastStorageCheck := none
  desiredAfterStop := none
  stopAttempts := fun _ => 0
  unconfirmed := []
  failedOperation := none
  savePollError := none
  calls := []

/-- A window whose first status document could be written, before `run`. -/
def Machine.open (request : Request) (owner : Owner) (token : String) (disk : Nat → Status → Option String) :
    Option Machine :=
  match WindowControl.publish false id (.opening owner token disk) with
  | (.value _, control) => some ⟨.opened request control, .begin⟩
  | _ => none

/-- Any number of events, each allowed by `P` in the state it meets. -/
abbrev Machine.Run (P : Machine → Event → Prop) : Machine → Machine → Prop :=
  Path fun m m' => ∃ e, P m e ∧ m.next e = m'

end Smartwheel.Interactive
