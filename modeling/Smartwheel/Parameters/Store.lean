import Smartwheel.Effect.Trial
import Smartwheel.Parameters.Groups

/-! `ParameterStore.save`: the checked edit of the configuration files, with every operation on a file by its name. -/
namespace Smartwheel.Parameters
open Effect
open Effect.Trial (operate examine alter peek lift forEach gather)
open Smartwheel.Calibration (Value Fields)
open Smartwheel.Profiles (Name files)

abbrev Bytes := List UInt8

def fileName : Name → String
  | .setup => "hardware_setup.json"
  | .mapping => "mapping_live.json"
  | .cameras => "cameras.json"

inductive Doc where
  | config (name : Name)
  | wheel | bindings | localBindings
deriving DecidableEq

inductive Folder where
  | backup (name : String)
  | live (name : String)
deriving DecidableEq

/-- Paths. `own` is config/local/project; a temporary file has a name of its own. -/
inductive Place where
  | config (own : Bool) (doc : Doc)
  | evidence (name : String)
  | inside (folder : Folder) (name : String)
  | elsewhere (path : String)
  | temporary (beside : Place)
deriving DecidableEq

structure Disk where
  file : Place → Option Bytes
  linked : Place → Bool
  parentLinked : Place → Bool
  rootLinked : Bool
  folder : Folder → Bool

structure EditToken where
  group : String
  revision : String
  expires : ℚ

structure EvidenceToken where
  source : Source
  revision : String
  expires : ℚ

structure World where
  disk : Disk
  tokens : List (String × EditToken)
  evidenceTokens : List (String × EvidenceToken)
  writtenEvidence : List Place

/-! ### The operations on files, by name -/

inductive Pass where
  | first | recheck | reread
deriving DecidableEq

/-- The calls of `selected_paths` and `selected_config_path`. -/
inductive Call where
  | snapshot (pass : Pass)
  | again (pass : Pass)
  | identity (pass : Pass)
  | checked
  | guarded (next : Option Name)
  | undo
  | undoing (name : Name)
deriving DecidableEq

/-- The operations of `selected_config_path`. -/
inductive Step where
  | root | own | present | chosen | stat | read
deriving DecidableEq

inductive IdentityStep where
  | link | ownLink | ownExists | exists | isFile | read
deriving DecidableEq

inductive Put where
  | link | stat | mkdir | opens | chmod | write | flush | fsync | close | replace | exists | unlink
deriving DecidableEq

inductive Site where
  | select (call : Call) (doc : Doc) (step : Step)
  | selected (call : Call) (name : Name)
  | raw (pass : Pass) (name : Name) (reading : Bool)
  | identity (pass : Pass) (doc : Doc) (step : IdentityStep)
  | source (pass : Pass) (index : ℕ) (reading : Bool)
  | field (pass : Pass) (name : String) (reading : ℕ)
  | verify (second : Bool)
  | original (token : String) (reading : Bool)
  | verifyValue
  | makeFolder (folder : Folder)
  | copy (name : Name) (put : Put)
  | record (last : Bool) (put : Put)
  | evidence (name : String) (put : Put)
  | dropEvidence (undo : Bool) (p : Place)
  | live (name : String) (put : Put)
  | bytes (next : Option Name) (name : Name) (reading : Bool)
  | config (undo : Bool) (name : Name) (put : Put)
  | compare (name : Name) (reading : Bool)
deriving DecidableEq

abbrev Act := Program (Trial Site World) String

structure Record where
  sourcePaths : Name → Bool
  group : String
  beforeRevision : String
  afterRevision : Option String
  changedFiles : List Name
  time : ℚ

structure Live where
  calibration : Value
  metadata : Value
  rawFiles : List (String × Bytes)

/-- What the store is given: `json`, the hash, the texts of paths, and what other modules make of files. -/
structure Env extends Validators where
  loads : Bytes → Except String Value
  dumps : Value → Except String Bytes
  loads_dumps : ∀ v raw, dumps v = .ok raw → loads raw = .ok v
  sha256 : Bytes → String
  utf8 : String → Bytes
  pathIdentity : (Name → Bool) → Bytes
  encodeRecord : Record → Bytes
  text : Place → String
  place : String → Place
  /-- `config_path`, and `path.with_name(path.stem+'.evidence.json')`. -/
  configPath : Disk → Value → Except String Place
  evidencePath : Place → Place
  verifyGeometrySources : Disk → Fields → Except String Unit
  verifyValue : Disk → Value → Except String Live

structure Request where
  group : String
  value : Value
  warningToken : Option String
  expectedRevision : Option String
  evidenceTokens : Value
  now : ℚ
  /-- The name of the directory of its backup. -/
  directory : String

structure Snapshot where
  raw : Name → Bytes
  configs : Name → Value
  revision : String
  paths : Name → Bool

section store
variable (env : Env)

/-! ### Operations -/

def osError : String := "[Errno 5] Input/output error"

def notFound : String := "[Errno 2] No such file or directory"

def fileExists : String := "[Errno 17] File exists"

def World.put (p : Place) (content : Option Bytes) (w : World) : World :=
  { w with disk := { w.disk with file := Function.update w.disk.file p content } }

def World.rename (a b : Place) (w : World) : World := (w.put b (w.disk.file a)).put a none

def World.make (folder : Folder) (w : World) : World :=
  { w with disk := { w.disk with folder := Function.update w.disk.folder folder true } }

def once (site : Site) (f : World → World) : Act Unit := operate site osError f fun way => if way = 0 then id else f

def touch (site : Site) : Act Unit := operate site osError id fun _ => id

def ask (site : Site) (f : Disk → Bool) : Act Bool := examine site osError fun w => f w.disk

def fetch (site : Site) (p : Place) : Act Bytes := do
  let content ← examine site osError fun w => w.disk.file p
  .need content notFound

/-- `ordinary`. -/
def ordinary (site : Site) (p : Place) : Act Unit := do
  let linked ← ask site fun d => d.linked p
  .raiseIf (linked = true) ("数据路径不能包含符号链接或目录联接: " ++ env.text p)

/-- `selected_config_path`: whether the machine's own file is selected. -/
def selectedConfigPath (call : Call) (doc : Doc) : Act Bool := do
  let linked ← ask (.select call doc .root) Disk.rootLinked
  .raiseIf (linked = true) "PROJECT_CONFIG_LINKED_PATH"
  let linked ← ask (.select call doc .own) fun d => d.linked (.config true doc)
  .raiseIf (linked = true) ("PROJECT_CONFIG_LINKED_PATH: " ++ env.text (.config true doc))
  let own ← ask (.select call doc .present) fun d => (d.file (.config true doc)).isSome
  let linked ← ask (.select call doc .chosen) fun d => d.linked (.config own doc)
  .raiseIf (linked = true) ("PROJECT_CONFIG_LINKED_PATH: " ++ env.text (.config own doc))
  let there ← ask (.select call doc .stat) fun d => (d.file (.config own doc)).isSome
  .raiseIf (there = false) notFound
  let raw ← fetch (.select call doc .read) (.config own doc)
  let _ ← lift (env.loads raw)
  return own

/-- What `body` gives for each of `FILES`, in order. -/
def forFiles {α : Type} (body : Name → Act α) : Act (Name → α) := do
  let setup ← body .setup
  let mapping ← body .mapping
  let cameras ← body .cameras
  return fun
    | .setup => setup
    | .mapping => mapping
    | .cameras => cameras

/-- `selected_paths`. -/
def selectedPaths (call : Call) : Act (Name → Bool) := forFiles fun name => do
  let own ← selectedConfigPath env call (.config name)
  ordinary env (.selected call name) (.config own (.config name))
  return own

/-- `require_paths`. -/
def requirePaths (call : Call) (paths : Name → Bool) : Act Unit := do
  let selected ← selectedPaths env call
  .raiseIf (∃ name ∈ files, selected name ≠ paths name) "配置来源路径已改变，请刷新；保留备份和未完成事务"

/-- `local.exists() or path.exists()`. -/
def wheelExists (pass : Pass) (own : Bool) : Act Bool :=
  if own then pure true else ask (.identity pass .wheel .exists) fun d => (d.file (.config false .wheel)).isSome

def wheelSelected (pass : Pass) (there : Bool) : Act Bool :=
  if there then selectedConfigPath env (.identity pass) .wheel else pure false

/-- `identity_paths`. -/
def identityPaths (pass : Pass) : Act (List (Doc × Place)) := do
  ordinary env (.identity pass .bindings .link) (.config false .bindings)
  ordinary env (.identity pass .localBindings .link) (.config false .localBindings)
  ordinary env (.identity pass .wheel .link) (.config false .wheel)
  ordinary env (.identity pass .wheel .ownLink) (.config true .wheel)
  let own ← ask (.identity pass .wheel .ownExists) fun d => (d.file (.config true .wheel)).isSome
  let there ← wheelExists pass own
  let chosen ← wheelSelected env pass there
  return [(.bindings, .config false .bindings), (.localBindings, .config false .localBindings), (.wheel, .config chosen .wheel)]

def identityContent (pass : Pass) (entry : Doc × Place) (isFile : Bool) : Act Bytes :=
  if isFile then fetch (.identity pass entry.1 .read) entry.2 else pure (env.utf8 ":ABSENT")

def identityPart (pass : Pass) (entry : Doc × Place) : Act Bytes := do
  let isFile ← ask (.identity pass entry.1 .isFile) fun d => (d.file entry.2).isSome
  let content ← identityContent env pass entry isFile
  return env.utf8 (env.text entry.2) ++ content

/-- `try x except (OSError,ValueError)`. -/
def attempt {α : Type} (x : Act α) : Act (Option α) :=
  Program.handle (do
    let a ← x
    return some a) fun _ => pure none

def sourcePart (pass : Pass) (entry : ℕ × String) : Act Bytes := do
  let content ← attempt do
    ordinary env (.source pass entry.1 false) (env.place entry.2)
    let content ← fetch (.source pass entry.1 true) (env.place entry.2)
    .raiseIf (maxEvidenceBytes < content.length) "证据文件过大"
    return content
  return env.utf8 entry.2 ++ content.getD (env.utf8 ":UNAVAILABLE")

def calibrationFile (site : Site) (p : Place) (unavailable : Bytes) (next : Act Bytes) : Act Bytes := do
  match ← attempt (fetch site p) with
  | none => return env.utf8 (env.text p) ++ unavailable
  | some content =>
    let rest ← next
    return env.utf8 (env.text p) ++ content ++ rest

def fieldPart (pass : Pass) (mapping : Fields) (field : String) : Act Bytes :=
  let value := mapping.get field
  let unavailable := env.utf8 (field ++ ":UNAVAILABLE")
  if truthy value then do
    let path ← attempt do
      touch (.field pass field 0)
      let d ← peek World.disk
      lift (env.configPath d value)
    match path with
    | none => return unavailable
    | some p =>
      calibrationFile env (.field pass field 1) p unavailable
        (calibrationFile env (.field pass field 2) (env.evidencePath p) unavailable (pure []))
  else pure []

/-- `_snapshot`. -/
def snapshot (pass : Pass) : Act Snapshot := do
  let paths ← selectedPaths env (.snapshot pass)
  let raw ← forFiles fun name => do
    ordinary env (.raw pass name false) (.config (paths name) (.config name))
    fetch (.raw pass name true) (.config (paths name) (.config name))
  let configs ← forFiles fun name => lift (env.loads (raw name))
  let identities ← gather (identityPart env pass) (← identityPaths env pass)
  let documents ← lift (snapshotPaths (configs .setup))
  let sources ← gather (sourcePart env pass) (documents.mapIdx fun k name => (k, name))
  let mapping ← lift (fieldsOf (configs .mapping))
  let calibrations ← gather (fieldPart env pass mapping) ["gyro_bias_config", "live_motion_calibration_config"]
  requirePaths env (.again pass) paths
  let digest := env.pathIdentity paths ++ (files.map fun name => env.utf8 (fileName name) ++ raw name).flatten ++
    identities.flatten ++ sources.flatten ++ calibrations.flatten
  return ⟨raw, configs, env.sha256 digest, paths⟩

/-! ### Writes -/

/-- A new file beside `p` that replaces it: the `try` of `_write_config` and of `atomic_json`, with its `finally`. -/
def swap (site : Put → Site) (p : Place) (raw : Bytes) (mode : Bool) : Act Unit :=
  Program.ensure (do
    once (site .opens) (World.put (.temporary p) (some []))
    Program.ensure (do
      .when (mode = true) (touch (site .chmod))
      operate (site .write) osError (World.put (.temporary p) (some raw)) fun way => World.put (.temporary p) (some (raw.take way))
      touch (site .flush)
      touch (site .fsync)) (touch (site .close))
    once (site .replace) (World.rename (.temporary p) p)) (do
    let there ← ask (site .exists) fun d => (d.file (.temporary p)).isSome
    .when (there = true) (once (site .unlink) (World.put (.temporary p) none)))

/-- `_write_config`. -/
def writeConfig (undo : Bool) (name : Name) (own : Bool) (raw : Bytes) : Act Unit := do
  ordinary env (.config undo name .link) (.config own (.config name))
  let there ← ask (.config undo name .stat) fun d => (d.file (.config own (.config name))).isSome
  .raiseIf (there = false) notFound
  swap (.config undo name) (.config own (.config name)) raw true

/-- `atomic_json`, of contents that are encoded. -/
def atomicJson (site : Put → Site) (p : Place) (raw : Bytes) : Act Unit := do
  let linked ← ask (site .link) fun d => d.parentLinked p
  .raiseIf (linked = true) ("数据路径不能包含符号链接或目录联接: " ++ env.text p)
  touch (site .mkdir)
  swap site p raw false

/-- `open('xb')`, what is written, and the end of the `with`; `opened` is done when it is open. -/
def writeNew (site : Put → Site) (p : Place) (raw : Bytes) (synced : Bool) (opened : World → World) : Act Unit := do
  let there ← peek fun w => (w.disk.file p).isSome
  .raiseIf (there = true) fileExists
  once (site .opens) (World.put p (some []))
  Program.ensure (do
    alter opened
    operate (site .write) osError (World.put p (some raw)) fun way => World.put p (some (raw.take way))
    .when (synced = true) do
      touch (site .flush)
      touch (site .fsync)) (touch (site .close))

def makeFolder (folder : Folder) : Act Unit := do
  let there ← peek fun w => w.disk.folder folder
  .raiseIf (there = true) fileExists
  once (.makeFolder folder) (World.make folder)

/-! ### `save` -/

structure Plan where
  raw : Name → Bytes
  encoded : Name → Bytes
  changed : List Name
  paths : Name → Bool
  revision : String
  live : Option Live
  evidenceTokens : List String

structure Saved where
  revision : String
  provenance : Option Value

/-- `_verify_sources`. -/
def verifySources (second : Bool) (setup : Value) : Act Unit := do
  let fields ← lift (fieldsOf setup)
  .when (same (fields.get "schema_version") (.int 2) = true) do
    touch (.verify second)
    let d ← peek World.disk
    lift (env.verifyGeometrySources d fields)

def confirmed (w : World) (r : Request) (revision : String) : Bool :=
  match r.warningToken.bind fun token => w.tokens.lookup token with
  | some token => token.group == r.group && token.revision == revision && decide (r.now ≤ token.expires)
  | none => false

/-- The texts of `evidence_tokens`. -/
def tokenList (value : Value) : Except String (List String) :=
  match value with
  | .null => .ok []
  | .list items => do
    let texts ← items.mapM fun i => match i with
      | .text s => .ok s
      | _ => .error "测量依据令牌列表无效"
    require texts.Nodup "测量依据令牌列表无效"
    return texts
  | _ => .error "测量依据令牌列表无效"

def importEvidence (r : Request) (revision : String) (transforms : List Value) (token : String) : Act (Source × Bytes) := do
  let known ← peek fun w => w.evidenceTokens.lookup token
  let evidence ← .need known "测量依据导入已过期或配置改变，请重新导入"
  .raiseIf (evidence.revision ≠ revision ∨ evidence.expires < r.now) "测量依据导入已过期或配置改变，请重新导入"
  let bound ← lift (references transforms)
  .raiseIf ((bound.any fun b => b.isText evidence.source.id) = false) "导入的测量依据尚未绑定具体外参分量"
  ordinary env (.original token false) (env.place evidence.source.originalPath)
  let data ← fetch (.original token true) (env.place evidence.source.originalPath)
  .raiseIf (maxEvidenceBytes < data.length ∨ env.sha256 data ≠ evidence.source.sha256) "待导入的测量依据文件已改变，请重新导入"
  return (evidence.source, data)

def importAll (r : Request) (revision : String) (transforms : List Value) : List String → Fields → Act (Fields × List (Source × Bytes))
  | [], setup => return (setup, [])
  | token :: rest, setup => do
    let imported ← importEvidence env r revision transforms token
    let setup ← lift (appendSource setup imported.1)
    let others ← importAll r revision transforms rest setup
    return (others.1, imported :: others.2)

def edit (r : Request) (s : Snapshot) (tokens : List String) : Act (Edit × List (Source × Bytes) × Option Live) := do
  if r.group = "extrinsics" then
    let setup ← lift (fieldsOf (s.configs .setup))
    let transforms ← lift (extrinsicItems setup r.value)
    verifySources env false (s.configs .setup)
    let result ← importAll env r s.revision transforms tokens (setItem setup "data_transforms" r.value)
    return (⟨setConfig s.configs .setup result.1, [.setup]⟩, result.2, none)
  else if r.group = "wheels" then
    let edit ← lift (wheels s.configs r.value)
    return (edit, [], none)
  else if r.group = "display" then
    let edit ← lift (display s.configs r.value)
    return (edit, [], none)
  else if r.group = "algorithms" then
    let edit ← lift (algorithms env.toValidators s.configs r.value)
    return (edit, [], none)
  else if r.group = "live_motion" then
    touch .verifyValue
    let d ← peek World.disk
    let live ← lift (env.verifyValue d r.value)
    return (⟨s.configs, [.mapping]⟩, [], some live)
  else .raise "未知参数组"

/-- `for path in written_evidence: path.unlink()`. -/
def dropEvidence (undo : Bool) : Act Unit := do
  let written ← peek World.writtenEvidence
  forEach (fun p => once (.dropEvidence undo p) (World.put p none)) written

def keepEvidence (entry : Source × Bytes) : Act Unit := do
  let p := Place.evidence entry.1.file
  ordinary env (.evidence entry.1.file .link) p
  touch (.evidence entry.1.file .mkdir)
  writeNew (.evidence entry.1.file) p entry.2 true fun w => { w with writtenEvidence := w.writtenEvidence ++ [p] }

def keepAll (r : Request) (setup : Value) (pending : List (Source × Bytes)) : Act Unit :=
  Program.handle (do
    forEach (keepEvidence env) pending
    .when (r.group = "extrinsics") (verifySources env true setup)) fun e => do
      dropEvidence false
      .raise e

def keepLive (r : Request) (configs : Name → Value) (live : Live) : Act (Name → Value) := do
  let folder := Folder.live r.directory
  makeFolder folder
  forEach (fun entry => writeNew (.live entry.1) (.inside folder entry.1) entry.2 true id) live.rawFiles
  let calibration ← lift (env.dumps live.calibration)
  atomicJson env (.live "live_motion_calibration.json") (.inside folder "live_motion_calibration.json") calibration
  let provenance ← lift (env.dumps live.metadata)
  atomicJson env (.live "provenance.json") (.inside folder "provenance.json") provenance
  let mapping ← lift (fieldsOf (configs .mapping))
  let root := "config/calibration/panel_live/" ++ r.directory ++ "/"
  let mapping := setItem mapping "live_motion_calibration_config" (.text (root ++ "live_motion_calibration.json"))
  let mapping := setItem mapping "gyro_bias_config" (.text (root ++ "confirmed_gyro_bias.json"))
  return setConfig configs .mapping (pop (pop mapping "live_motion_calibration") "confirmed_gyro_bias")

def withLive (r : Request) (configs : Name → Value) : Option Live → Act (Name → Value)
  | some live => keepLive env r configs live
  | none => pure configs

def encode (changed : List Name) (raw : Name → Bytes) (configs : Name → Value) (name : Name) : Act Bytes :=
  if name ∈ changed then lift (env.dumps (configs name)) else pure (raw name)

def writeRecord (r : Request) (plan : Name → Bool) (changed : List Name) (before : String) (after : Option String) : Act Unit :=
  atomicJson env (.record after.isSome) (.inside (.backup r.directory) "revision.json")
    (env.encodeRecord ⟨plan, r.group, before, after, changed, r.now⟩)

/-- `save` up to its first write of a configuration: the checks, the backup and the evidence. -/
def prepare (r : Request) : Act Plan := do
  alter fun w => { w with writtenEvidence := [] }
  let s ← snapshot env .first
  .raiseIf (r.expectedRevision ≠ some s.revision) "配置已改变或缺少版本信息，请重新打开参数窗口"
  let w ← peek id
  .raiseIf (["extrinsics", "wheels", "live_motion"].contains r.group = true ∧ confirmed w r s.revision = false)
    "请先阅读并确认外参/轮参数修改警告"
  .raiseIf (truthy r.evidenceTokens = true ∧ r.group ≠ "extrinsics") "测量依据只能用于外参参数组"
  let tokens ← lift (tokenList r.evidenceTokens)
  let made ← edit env r s tokens
  lift (env.resolveHardwareSetup (made.1.configs .setup))
  forEach (fun name => do
    let _ ← lift (env.dumps (made.1.configs name))
    return ()) made.1.changed
  let again ← snapshot env .recheck
  .raiseIf (again.revision ≠ s.revision) "配置在校验过程中改变，请刷新后重试"
  requirePaths env .checked s.paths
  makeFolder (.backup r.directory)
  forEach (fun name => writeNew (.copy name) (.inside (.backup r.directory) (fileName name)) (s.raw name) false id) made.1.changed
  writeRecord env r s.paths made.1.changed s.revision none
  keepAll env r (made.1.configs .setup) made.2.1
  let configs ← withLive env r made.1.configs made.2.2
  let encoded ← forFiles fun name => encode env made.1.changed s.raw configs name
  return ⟨s.raw, encoded, made.1.changed, s.paths, s.revision, made.2.2, tokens⟩

/-- `require_bytes`. -/
def requireBytes (next : Option Name) (paths : Name → Bool) (expected : Name → Bytes) : Act Unit := do
  requirePaths env (.guarded next) paths
  forEach (fun name => do
    ordinary env (.bytes next name false) (.config (paths name) (.config name))
    let content ← fetch (.bytes next name true) (.config (paths name) (.config name))
    .raiseIf (content ≠ expected name) "配置在写入期间改变，保留备份并停止修改") files

def replaceAll (plan : Plan) : List Name → (Name → Bytes) → Act Unit
  | [], expected => requireBytes env none plan.paths expected
  | name :: rest, expected => do
    requireBytes env (some name) plan.paths expected
    writeConfig env false name (plan.paths name) (plan.encoded name)
    replaceAll plan rest (Function.update expected name (plan.encoded name))

def undo (r : Request) (plan : Plan) : Act Unit := do
  requirePaths env .undo plan.paths
  forEach (fun name => do
    ordinary env (.compare name false) (.config (plan.paths name) (.config name))
    let content ← fetch (.compare name true) (.config (plan.paths name) (.config name))
    .raiseIf (content ≠ plan.raw name ∧ content ≠ plan.encoded name) ("配置存在其他修改，未覆盖；原始备份：" ++ r.directory)) plan.changed
  forEach (fun name => do
    requirePaths env (.undoing name) plan.paths
    writeConfig env true name (plan.paths name) (plan.raw name)) plan.changed
  dropEvidence true

def commit (r : Request) (plan : Plan) : Act Unit :=
  Program.handle (replaceAll env plan plan.changed plan.raw) fun e => do
    undo env r plan
    .raise e

def finish (r : Request) (plan : Plan) : Act Saved := do
  alter fun w => { w with
    tokens := w.tokens.filter fun t => some t.1 ≠ r.warningToken
    evidenceTokens := w.evidenceTokens.filter fun t => plan.evidenceTokens.contains t.1 = false }
  let s ← snapshot env .reread
  writeRecord env r s.paths plan.changed plan.revision (some s.revision)
  return ⟨s.revision, plan.live.map Live.metadata⟩

def save (r : Request) : Act Saved := do
  let plan ← prepare env r
  commit env r plan
  finish env r plan

end store

end Smartwheel.Parameters
