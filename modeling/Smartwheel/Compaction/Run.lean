import Mathlib.Data.List.Dedup
import Smartwheel.Disk.Volume
import Smartwheel.Effect.Faulty
import Smartwheel.Instances

/-! The plan of a run, the files of the run, and what compaction writes there. Times and free space that the receipt
and the manifest note without anything reading them are left out. -/
namespace Smartwheel.Compaction
open Disk

abbrev Bytes := List UInt8

/-- The parts of a path under the run. -/
abbrev Relative := List String

def metaFolder : String := "archive_pre_compaction"
def receiptName : String := "compaction_receipt.json"
def packedName : String := "compaction_manifest.json.xz"
def noteName : String := "COMPACTION.md"

/-- A file of the plan with its `.xz` and its `.xz.partial`, and the files of compaction itself with the temporary one
that each of them is written to. -/
inductive Name where
  | file (r : Relative)
  | xz (r : Relative)
  | xzPartial (r : Relative)
  | backup | backupNew | receipt | receiptNew | packed | packedPartial | note | noteNew
deriving DecidableEq, Repr

/-- `str(path) + suffix`. -/
def withSuffix (suffix : String) (r : Relative) : Relative := r.dropLast ++ [r.getLast?.getD "" ++ suffix]

/-- `str.endswith`. -/
def EndsWith (suffix : String) (r : Relative) : Prop := suffix.toList <:+ (r.getLast?.getD "").toList

instance (suffix : String) (r : Relative) : Decidable (EndsWith suffix r) := by
  unfold EndsWith
  infer_instance

/-- Without the last `n` characters. -/
def cut (n : Nat) (r : Relative) : Relative :=
  r.dropLast ++ [String.ofList ((r.getLast?.getD "").toList.take ((r.getLast?.getD "").toList.length - n))]

def Name.path (manifestName : String) : Name → Relative
  | .file r => r
  | .xz r => withSuffix ".xz" r
  | .xzPartial r => withSuffix ".xz.partial" r
  | .backup => [metaFolder, manifestName]
  | .backupNew => [metaFolder, manifestName ++ ".new"]
  | .receipt => [receiptName]
  | .receiptNew => [receiptName ++ ".new"]
  | .packed => [packedName]
  | .packedPartial => [packedName ++ ".partial"]
  | .note => [noteName]
  | .noteNew => [noteName ++ ".new"]

def folder : Name → Relative
  | .file r | .xz r | .xzPartial r => r.dropLast
  | .backup | .backupNew => [metaFolder]
  | _ => []

/-- `excluded`: what a run has besides the planned files. -/
def Excluded (r : Relative) : Prop :=
  r.head? = some metaFolder ∨
    r.getLast?.getD "" ∈ [receiptName, receiptName ++ ".new", packedName, packedName ++ ".partial", noteName, noteName ++ ".new"] ∨
    EndsWith ".ply.xz" r ∨ EndsWith ".ply.xz.partial" r

instance (r : Relative) : Decidable (Excluded r) := by
  unfold Excluded
  infer_instance

inductive Action where
  | omitCdr
  | losslessXz
deriving DecidableEq, Repr

structure Row (κ : Type) where
  bytes : Nat
  allocated : Nat
  mtime : Int
  inode : Nat
  device : Nat
  sha : κ
deriving DecidableEq, Repr

structure Selected (κ : Type) where
  path : Relative
  row : Row κ
  action : Action
deriving DecidableEq, Repr

/-- The plan of a run, as `build_run_plan` makes it and `load_plan` checks it. -/
structure Item (κ : Type) where
  manifestName : String
  manifestRow : Row κ
  selected : List (Selected κ)
  protectedFiles : List (Relative × Row κ)
  manifest : ([manifestName], manifestRow) ∈ protectedFiles
  once : (selected.map Selected.path).Nodup
  apart : ∀ s ∈ selected, ∀ p ∈ protectedFiles, s.path ≠ p.1
  ply : ∀ s ∈ selected, s.action = .losslessXz → ∃ directory stem, s.path = directory ++ [stem ++ ".ply"]
  own : ∀ r ∈ selected.map Selected.path ++ protectedFiles.map Prod.fst, ¬Excluded r

/-- `identity` and `xz_delta32_lzma2_preset3`. -/
inductive Codec where
  | identity
  | xz
deriving DecidableEq, Repr

/-- A row of `compressed_maps`. -/
structure Compressed (κ : Type) where
  original : Relative
  archive : Name
  originalSha : κ
  originalBytes : Nat
  archiveSha : κ
  archiveBytes : Nat
  codec : Codec
deriving DecidableEq, Repr

/-- A row of `omitted_cdr`. -/
structure Omitted (κ : Type) where
  path : Relative
  bytes : Nat
  sha : κ
  allocated : Nat
deriving DecidableEq, Repr

/-- `COMPRESSING`, `VERIFIED_READY_TO_PRUNE`, `PRUNING` and `COMPLETE`. -/
inductive Status where
  | compressing
  | ready
  | pruning
  | complete
deriving DecidableEq, Repr

structure Totals (κ : Type) where
  omitted : Nat
  allocated : Nat
  manifestSha : κ
deriving DecidableEq, Repr

structure Receipt (κ : Type) where
  status : Status
  plan : κ
  compressed : List (Compressed κ)
  totals : Option (Totals κ)
deriving DecidableEq, Repr

structure Manifest (κ : Type) where
  plan : κ
  compressed : List (Compressed κ)
  omitted : List (Omitted κ)
  protectedFiles : List (Relative × Row κ)
deriving DecidableEq, Repr

inductive Content (κ : Type) where
  | bytes (b : Bytes)
  | receipt (r : Receipt κ)
  | packed (m : Manifest κ)
  | note
  | torn
deriving DecidableEq, Repr

def Content.raw {κ : Type} : Content κ → Option Bytes
  | .bytes b => some b
  | _ => none

def Content.size {κ : Type} (content : Content κ) : Nat := (content.raw.getD []).length

def Content.part {κ : Type} (way : Nat) : Content κ → Content κ
  | .bytes b => .bytes (b.take way)
  | _ => .torn

/-- Of a file there is kept when it was modified. -/
abbrev Disk (κ : Type) := Volume Name Relative (Content κ) Int

/-- The compressor, the hash, the device, and `metadata` of the protected files and the manifest. -/
structure Config (κ : Type) where
  xz : Bytes → Bytes
  unxz : Bytes → Option Bytes
  sha : Content κ → κ
  device : Nat
  metadata : List (Relative × Option (Content κ)) → Option (Content κ) → Bool

structure World (κ : Type) where
  disk : Disk κ
  made : Bool
  removals : List (Relative × Disk κ)

variable {κ : Type}

def Item.names (item : Item κ) : List Name :=
  item.protectedFiles.map (fun p => .file p.1) ++ item.selected.flatMap (fun s => [.file s.path, .xz s.path, .xzPartial s.path]) ++
    [.backup, .backupNew, .receipt, .receiptNew, .packed, .packedPartial, .note, .noteNew]

def Item.planned (item : Item κ) : List Relative := item.selected.map Selected.path ++ item.protectedFiles.map Prod.fst

def original (r : Relative) : Relative := if EndsWith ".partial" r then cut ".xz.partial".length r else cut 3 r

end Smartwheel.Compaction

/-! ### `compact_run`: every selected cloud is compressed and checked, the receipt says so, the planned files go, and the
manifest, the note and the receipt say what has gone. -/
namespace Smartwheel.Compaction
open Effect Disk
open Effect.Program hiding pure bind

inductive Fault where
  | os
  | value (message : String)
deriving DecidableEq, Repr

variable {κ : Type} [DecidableEq κ]

abbrev Part (κ α : Type) := Program (Host (World κ)) Fault α

def onDisk (f : Disk κ → Disk κ) (w : World κ) : World κ := { w with disk := f w.disk }

def change (f : Disk κ → Disk κ) : Part κ Unit := atomic .os (onDisk f)

/-- `sync_dir(run)`: the directory of the backup is a name in it. -/
def syncRun (w : World κ) : World κ :=
  let disk := w.disk.syncDir folder []
  { w with disk := { disk with linked := Function.update disk.linked [metaFolder] (disk.linked [metaFolder] || w.made) } }

/-- `sync_dir` of a directory of the run. -/
def synced (directory : Relative) (w : World κ) : World κ :=
  if directory = [] then syncRun w else onDisk (Volume.syncDir folder directory) w

def syncAt (directory : Relative) : Part κ Unit := atomic .os (synced directory)

def syncFolder (name : Name) : Part κ Unit := syncAt (folder name)

def present (name : Name) : Part κ Bool := view .os fun w => w.disk.present name

def create (name : Name) (content : Content κ) : Part κ Unit := do
  let there ← present name
  raiseIf (there = true) .os
  attempt .os (onDisk (Volume.write name content 0)) fun way => onDisk (Volume.write name (content.part way) 0)

def contents (name : Name) : Part κ (Content κ) := do
  let found ← view .os fun w => w.disk.file name
  let file ← need found .os
  return file.content

def require (p : Prop) [Decidable p] (message : String) : Part κ Unit := raiseIf (¬p) (.value message)

def outside (message : String) : Part κ Unit := atomic (.value message) id

def guard : Part κ Unit := outside "storage guard"

/-- `stat_row`. -/
structure Stat where
  bytes : Nat
  mtime : Int
  inode : Nat
  device : Nat
deriving DecidableEq, Repr

def statOf (c : Config κ) (disk : Disk κ) (name : Name) : Option Stat :=
  (disk.now name).map fun i => ⟨(disk.inode i).content.size, (disk.inode i).attributes, i, c.device⟩

def statRow (c : Config κ) (name : Name) : Part κ Stat := do
  let found ← view .os fun w => statOf c w.disk name
  need found .os

def digest (c : Config κ) (name : Name) : Part κ κ := do
  let content ← contents name
  return c.sha content

def verifyFile (c : Config κ) (name : Name) (row : Row κ) : Part κ Unit := do
  let current ← statRow c name
  require (current.bytes = row.bytes) "file size changed"
  let sha ← digest c name
  require (sha = row.sha) "file hash changed"

/-- What the decoded contents have for hash and length; none where `lzma` raises. -/
def Config.decoded (c : Config κ) (content : Content κ) : Option (κ × Nat) :=
  (content.raw.bind c.unxz).map fun b => (c.sha (.bytes b), b.length)

def decodedHash (c : Config κ) (name : Name) : Part κ (Option (κ × Nat)) := do
  let content ← contents name
  return c.decoded content

def requireDecodes (c : Config κ) (name : Name) (row : Row κ) (message : String) : Part κ Unit := do
  let decoded ← decodedHash c name
  require (decoded = some (row.sha, row.bytes)) message

def Content.asReceipt : Content κ → Option (Receipt κ)
  | .receipt r => some r
  | _ => none

def Content.asPacked : Content κ → Option (Manifest κ)
  | .packed m => some m
  | _ => none

def readReceipt : Part κ (Receipt κ) := do
  let content ← contents .receipt
  need content.asReceipt (.value "JSON")

def readPacked : Part κ (Manifest κ) := do
  let content ← contents .packed
  need content.asPacked (.value "JSON")

def clear (temporary : Name) : Part κ Unit := do
  let there ← present temporary
  when (there = true) do
    guard
    change (Volume.unlink temporary)
    syncFolder temporary

def publish (temporary name : Name) (content : Content κ) (check : Part κ Unit) : Part κ Unit := do
  create temporary content
  change (Volume.syncFile temporary)
  check
  change (Volume.rename temporary name)
  syncFolder name

/-- `atomic_json` of the receipt. -/
def writeReceipt (r : Receipt κ) : Part κ Unit := do
  clear .receiptNew
  publish .receiptNew .receipt (.receipt r) (pure ())

/-- `metadata`. -/
def metadata (c : Config κ) (item : Item κ) : Part κ Unit := do
  let accepted ← view .os fun w =>
    c.metadata (item.protectedFiles.map fun p => (p.1, (w.disk.file (.file p.1)).map Inode.content))
      (((w.disk.file .backup).orElse fun _ => w.disk.file (.file [item.manifestName])).map Inode.content)
  require (accepted = true) "run is not successfully complete"

/-- `compare_inventory`. -/
def compareInventory (c : Config κ) (item : Item κ) (pruningStarted : Bool) : Part κ Unit := do
  let listed ← view .os fun w => (item.names.filter w.disk.present).map (Name.path item.manifestName)
  require (∀ r ∈ listed, EndsWith ".ply.xz" r ∨ EndsWith ".ply.xz.partial" r → original r ∈ item.selected.map Selected.path)
    "unplanned compressed cloud appeared"
  require (∀ r ∈ listed, ¬Excluded r → r ∈ item.planned) "unplanned run files appeared"
  each (fun p => verifyFile c (.file p.1) p.2) item.protectedFiles
  each (fun s => do
    let there ← present (.file s.path)
    if there then verifyFile c (.file s.path) s.row
    else
      require (pruningStarted = true) "target missing before durable pre-pruning verification"
      when (s.action = .losslessXz) (requireDecodes c (.xz s.path) s.row "archived PLY differs")) item.selected

/-- `backup_manifest`. -/
def backupManifest (c : Config κ) (item : Item κ) : Part κ Unit := do
  let made ← view .os World.made
  when (made = false) do
    guard
    atomic .os fun w => { w with made := true }
    syncAt []
  let there ← present .backup
  when (there = false) do
    let left ← present .backupNew
    when (left = true) do
      guard
      change (Volume.unlink .backupNew)
    let content ← contents (.file [item.manifestName])
    publish .backupNew .backup content do
      verifyFile c .backupNew item.manifestRow
      guard
  verifyFile c .backup item.manifestRow

/-- What `compress_ply` returns for a compressed file that is there. -/
def archived (c : Config κ) (s : Selected κ) : Part κ (Compressed κ) := do
  requireDecodes c (.xz s.path) s.row "XZ round-trip failure; original retained"
  let compressed ← statRow c (.xz s.path)
  let sha ← digest c (.xz s.path)
  return ⟨s.path, .xz s.path, s.row.sha, s.row.bytes, sha, compressed.bytes, .xz⟩

def Selected.kept (s : Selected κ) : Compressed κ :=
  ⟨s.path, .file s.path, s.row.sha, s.row.bytes, s.row.sha, s.row.bytes, .identity⟩

/-- A `.xz.partial` that does not decode to the cloud goes. -/
def dropIncomplete (c : Config κ) (s : Selected κ) : Part κ Unit := do
  let there ← present (.xzPartial s.path)
  when (there = true) do
    let decoded ← decodedHash c (.xzPartial s.path)
    when (decoded ≠ some (s.row.sha, s.row.bytes)) do
      let state ← readReceipt
      require (state.status = .compressing) "partial XZ has no owned compression state"
      guard
      change (Volume.unlink (.xzPartial s.path))
      syncFolder (.xzPartial s.path)

def makePartial (c : Config κ) (s : Selected κ) : Part κ Unit := do
  let there ← present (.xzPartial s.path)
  when (there = false) do
    outside "compression temporary space insufficient"
    let content ← contents (.file s.path)
    let b ← need content.raw .os
    create (.xzPartial s.path) (.bytes (c.xz b))
    change (Volume.syncFile (.xzPartial s.path))

/-- `compress_ply`. -/
def compressPly (c : Config κ) (s : Selected κ) : Part κ (Compressed κ) := do
  let there ← present (.xz s.path)
  if there then archived c s
  else
    let source ← present (.file s.path)
    require (source = true) "both original and compressed PLY missing"
    verifyFile c (.file s.path) s.row
    dropIncomplete c s
    makePartial c s
    requireDecodes c (.xzPartial s.path) s.row "partial XZ round-trip failure; original retained"
    let made ← statRow c (.xzPartial s.path)
    guard
    if made.bytes ≥ s.row.bytes then
      change (Volume.unlink (.xzPartial s.path))
      syncFolder (.xzPartial s.path)
      return s.kept
    else
      change (Volume.rename (.xzPartial s.path) (.xz s.path))
      syncFolder (.xz s.path)
      archived c s

def Item.clouds (item : Item κ) : List (Selected κ) := item.selected.filter fun s => s.action = .losslessXz

def unlinkPlanned (r : Relative) (w : World κ) : World κ :=
  { w with disk := w.disk.unlink (.file r), removals := (r, w.disk) :: w.removals }

def keptPly (compressed : List (Compressed κ)) : List Relative :=
  (compressed.filter fun k => k.codec = .identity).map Compressed.original

def prune (c : Config κ) (item : Item κ) (compressed : List (Compressed κ)) : Part κ Unit :=
  each (fun s => do
    let there ← present (.file s.path)
    when (there = true) do
      let current ← statRow c (.file s.path)
      require (current = ⟨s.row.bytes, s.row.mtime, s.row.inode, s.row.device⟩) "target changed after full SHA verification"
      guard
      atomic .os (unlinkPlanned s.path)) (item.selected.filter fun s => s.path ∉ keptPly compressed)

def Item.omitted (item : Item κ) (compressed : List (Compressed κ)) : List (Omitted κ) :=
  (item.selected.filter fun s => s.path ∉ keptPly compressed ∧ s.action = .omitCdr).map fun s =>
    ⟨s.path, s.row.bytes, s.row.sha, s.row.allocated⟩

def packManifest (m : Manifest κ) : Part κ Unit := do
  let there ← present .packed
  if there then
    let previous ← readPacked
    require (previous.plan = m.plan ∧ previous.omitted = m.omitted ∧ previous.compressed = m.compressed)
      "existing retention manifest differs"
  else
    clear .packedPartial
    publish .packedPartial .packed (.packed m) do
      let back ← contents .packedPartial
      require (back = .packed m) "retention manifest round trip differs"
      guard

def writeNote : Part κ Unit := do
  let there ← present .note
  when (there = false) do
    clear .noteNew
    publish .noteNew .note .note guard

/-- `verify_compacted_run`. -/
def verifyCompacted (c : Config κ) (item : Item κ) (plan : κ) : Part κ Unit := do
  let state ← readReceipt
  require (state.status = .complete ∧ state.plan = plan) "run not compacted with this plan"
  let sha ← digest c .packed
  require (state.totals.map Totals.manifestSha = some sha) "retention manifest changed"
  let manifest ← readPacked
  require (manifest.plan = plan ∧ manifest.protectedFiles = item.protectedFiles) "retention plan binding mismatch"
  each (fun p => verifyFile c (.file p.1) p.2) item.protectedFiles
  each (fun s => do
    if (manifest.compressed.find? fun k => k.original = s.path).map Compressed.codec = some .identity then
      verifyFile c (.file s.path) s.row
    else
      let there ← present (.file s.path)
      require (there = false) "uncompacted selected file remains"
      when (s.action = .losslessXz) (requireDecodes c (.xz s.path) s.row "compressed map differs")) item.selected
  each (fun k => do
    let sha ← digest c k.archive
    require (sha = k.archiveSha) "compressed file hash differs") manifest.compressed

def recognise (c : Config κ) (item : Item κ) (plan : κ) : Part κ (Option (Receipt κ)) := do
  guard
  outside "active process references run"
  metadata c item
  let there ← present .receipt
  if there then
    let state ← readReceipt
    require (state.plan = plan) "existing run receipt belongs to another plan"
    compareInventory c item (state.status ≠ .compressing)
    return some state
  else
    compareInventory c item false
    return none

def ready (c : Config κ) (item : Item κ) (plan : κ) (state : Option (Receipt κ)) : Part κ (List (Compressed κ)) := do
  backupManifest c item
  when ((state.map Receipt.status).getD .compressing = .compressing) do
    writeReceipt ⟨.compressing, plan, [], none⟩
  let compressed ← collect (compressPly c) item.clouds
  guard
  outside "open run file"
  writeReceipt ⟨.ready, plan, compressed, none⟩
  return compressed

def complete (c : Config κ) (item : Item κ) (plan : κ) (compressed : List (Compressed κ)) : Part κ Unit := do
  prune c item compressed
  each syncAt (item.selected.map fun s => s.path.dropLast).dedup
  each (fun p => verifyFile c (.file p.1) p.2) item.protectedFiles
  packManifest ⟨plan, compressed, item.omitted compressed, item.protectedFiles⟩
  writeNote
  let sha ← digest c .packed
  let omitted := item.omitted compressed
  writeReceipt ⟨.complete, plan, compressed, some ⟨omitted.length, (omitted.map Omitted.allocated).sum, sha⟩⟩
  guard
  verifyCompacted c item plan

/-- `compact_run`. -/
def compactRun (c : Config κ) (item : Item κ) (plan : κ) : Part κ Unit := do
  let state ← recognise c item plan
  if (state.map Receipt.status) = some .complete then verifyCompacted c item plan
  else
    let compressed ← ready c item plan state
    complete c item plan compressed

end Smartwheel.Compaction
