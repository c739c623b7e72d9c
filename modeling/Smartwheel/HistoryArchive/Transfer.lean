import Smartwheel.Effect.Faulty
import Smartwheel.Disk.Volume

/-! `archive_one` and `restore`, for one file: its compressed archive, the receipt of the move, and the temporary files
of both. What other processes do with the file is what the checks of them raise. -/
namespace Smartwheel.HistoryArchive
open Effect Disk
open Effect.Program hiding pure bind

abbrev Bytes := List UInt8

/-- The file, `target` with its `.partial`, the receipt with its `.tmp`, and the `.restoring` of the file. -/
inductive Name where
  | source | target | targetTemporary | receipt | receiptTemporary | restoring
deriving DecidableEq, Repr

def names : List Name := [.source, .target, .targetTemporary, .receipt, .receiptTemporary, .restoring]

inductive Place where
  | sources | archives | receipts
deriving DecidableEq, Repr

def place : Name → Place
  | .source | .restoring => .sources
  | .target | .targetTemporary => .archives
  | .receipt | .receiptTemporary => .receipts

/-- The mode bits of `st_mode`, and `st_mtime_ns`. -/
structure Attributes where
  mode : Nat
  mtime : Int
deriving DecidableEq, Repr

/-- `VERIFIED_ORIGINAL_RETAINED` and `ARCHIVED`. -/
inductive Status where
  | verified
  | archived
deriving DecidableEq, Repr

structure Record (κ : Type) where
  status : Status
  path : String
  archivePath : String
  codec : String
  originalSha : κ
  originalBytes : Nat
  archiveSha : κ
  archiveBytes : Nat
  originalMode : Nat
  originalMtime : Int
deriving DecidableEq, Repr

inductive Content (κ : Type) where
  | bytes (b : Bytes)
  | record (r : Record κ)
deriving DecidableEq, Repr

abbrev Disk (κ : Type) := Volume Name Place (Content κ) Attributes

structure Config (κ : Type) where
  xz : Bytes → Bytes
  unxz : Bytes → Option Bytes
  sha : Bytes → κ
  lowGain : Nat → Nat → Bool
  device : Nat
  path : String
  archivePath : String

structure Row (κ : Type) where
  bytes : Nat
  mtime : Int
  sha : Option κ
  inode : Option Nat
  device : Option Nat
  nlink : Option Nat
deriving DecidableEq, Repr

structure World (κ : Type) where
  disk : Disk κ
  removals : List (Row κ × Disk κ)

inductive Fault where
  | os
  | value (message : String)
deriving DecidableEq, Repr

/-- Of a file, as `stat` has it. -/
structure Stat where
  size : Nat
  attributes : Attributes
  inode : Nat
  device : Nat
  nlink : Nat
deriving DecidableEq, Repr

variable {κ : Type} [DecidableEq κ]

abbrev Part (κ α : Type) := Program (Host (World κ)) Fault α

def Content.size : Content κ → Nat
  | .bytes b => b.length
  | .record _ => 0

def Content.raw : Content κ → Option Bytes
  | .bytes b => some b
  | .record _ => none

def Content.json : Content κ → Option (Record κ)
  | .bytes _ => none
  | .record r => some r

def onDisk (f : Disk κ → Disk κ) (w : World κ) : World κ := { w with disk := f w.disk }

def change (f : Disk κ → Disk κ) : Part κ Unit := atomic .os (onDisk f)

def create (name : Name) (content : Content κ) (torn : Nat → Content κ) (attributes : Attributes) : Part κ Unit :=
  attempt .os (onDisk (Volume.write name content attributes)) fun way => onDisk (Volume.write name (torn way) attributes)

def present (name : Name) : Part κ Bool := view .os fun w => w.disk.present name

def contents (name : Name) : Part κ (Content κ) := do
  let found ← view .os fun w => w.disk.file name
  let file ← need found .os
  return file.content

def read (name : Name) : Part κ Bytes := do
  let content ← contents name
  need content.raw .os

def links (disk : Disk κ) (i : Nat) : Nat := names.countP fun name => disk.now name = some i

def statOf (c : Config κ) (disk : Disk κ) (name : Name) : Option Stat :=
  (disk.now name).map fun i =>
    ⟨(disk.inode i).content.size, (disk.inode i).attributes, i, c.device, links disk i⟩

def stat (c : Config κ) (name : Name) : Part κ Stat := do
  let found ← view .os fun w => statOf c w.disk name
  need found .os

def outside (message : String) : Part κ Unit := atomic (.value message) id

def digest (c : Config κ) (name : Name) : Part κ κ := do
  let b ← read name
  return c.sha b

def hashDecoded (c : Config κ) (name : Name) : Part κ (κ × Nat) := do
  let b ← read name
  let decoded ← need (c.unxz b) .os
  return (c.sha decoded, decoded.length)

/-- `atomic_json` of source_archive. -/
def atomicJson (r : Record κ) : Part κ Unit := do
  create .receiptTemporary (.record r) (fun _ => .bytes []) ⟨0o644, 0⟩
  change (Volume.syncFile .receiptTemporary)
  change (Volume.rename .receiptTemporary .receipt)
  change (Volume.syncDir place .receipts)

def receiptDiffers : Fault := .value "prior receipt differs from reviewed allowlist; recovery review required"
def archiveFails : Fault := .value "prior compressed archive verification failed; original retained if present"
def identityDiffers : Fault := .value "source identity differs from reviewed allowlist; original retained"
def hashDiffers : Fault := .value "source hash differs from reviewed allowlist; original retained"
def openMessage : String := "original changed/open; retained"
def cleanupMessage : String := "archive changed or original opened before cleanup; original retained"

/-- `verify_receipt`. -/
def verifyReceipt (c : Config κ) (row : Row κ) (r : Record κ) : Part κ Unit := do
  raiseIf (r.path ≠ c.path ∨ r.archivePath ≠ c.archivePath ∨ r.codec ≠ "xz" ∨ r.originalBytes ≠ row.bytes ∨
    r.originalMtime ≠ row.mtime ∨ (row.sha.any fun sha => r.originalSha ≠ sha) = true) receiptDiffers
  let there ← present .target
  raiseIf (there = false) (.value "prior compressed archive missing; recovery review required")
  let before ← stat c .target
  let sha ← digest c .target
  let decoded ← hashDecoded c .target
  raiseIf (before.size ≠ r.archiveBytes ∨ sha ≠ r.archiveSha ∨ decoded ≠ (r.originalSha, r.originalBytes)) archiveFails
  let after ← stat c .target
  raiseIf (before ≠ after) (.value "prior compressed archive changed during verification; recovery review required")

def Row.admits (row : Row κ) (s : Stat) : Prop :=
  row.bytes = s.size ∧ row.mtime = s.attributes.mtime ∧ (∀ i ∈ row.inode, i = s.inode) ∧
    (∀ d ∈ row.device, d = s.device) ∧ ∀ n ∈ row.nlink, n = s.nlink

instance (row : Row κ) (s : Stat) : Decidable (row.admits s) := by
  unfold Row.admits
  infer_instance

/-- `verify_reviewed_source`. -/
def verifySource (c : Config κ) (row : Row κ) (expected : Option κ) : Part κ (Stat × κ) := do
  let before ← stat c .source
  raiseIf (¬row.admits before) identityDiffers
  let current ← digest c .source
  raiseIf ((∃ sha ∈ row.sha, current ≠ sha) ∨ ∃ sha ∈ expected, current ≠ sha) hashDiffers
  let after ← stat c .source
  raiseIf (before ≠ after) (.value "source changed during identity verification; original retained")
  return (before, current)

def remove (c : Config κ) (row : Row κ) (r : Record κ) : Part κ (Record κ) := do
  let sha ← digest c .target
  raiseIf (sha ≠ r.archiveSha) (.value cleanupMessage)
  outside cleanupMessage
  let _ ← verifySource c row (some r.originalSha)
  atomic .os fun w => { disk := w.disk.unlink .source, removals := (row, w.disk) :: w.removals }
  change (Volume.syncDir place .sources)
  let r := { r with status := .archived }
  atomicJson r
  return r

/-- What `archive_one` returns. -/
inductive Answer (κ : Type) where
  | record (r : Record κ)
  | skippedTempCapacity
  | skippedLowGain
deriving DecidableEq, Repr

def resume (c : Config κ) (row : Row κ) (r : Record κ) (compressOnly : Bool) : Part κ (Answer κ) := do
  verifyReceipt c row r
  let _ ← verifySource c row (some r.originalSha)
  outside openMessage
  if compressOnly then return .record r
  else
    outside "guard"
    change (Volume.syncWay place .archives)
    change (Volume.syncWay place .receipts)
    let r ← remove c row r
    return .record r

def compress (c : Config κ) : Part κ Unit := do
  let recovered ← present .targetTemporary
  if recovered then change (Volume.syncFile .targetTemporary)
  else
    let b ← read .source
    create .targetTemporary (.bytes (c.xz b)) (fun way => .bytes ((c.xz b).take way)) ⟨0o644, 0⟩
    change (Volume.syncFile .targetTemporary)

def recordOf (c : Config κ) (before : Stat) (original : κ) (archive : κ) (archiveBytes : Nat) : Record κ :=
  ⟨.verified, c.path, c.archivePath, "xz", original, before.size, archive, archiveBytes, before.attributes.mode &&& 0o777,
    before.attributes.mtime⟩

/-- A compressed file is verified and takes its place; `before` and `original` are of the source. -/
def publish (c : Config κ) (before : Stat) (original : κ) : Part κ (Record κ) := do
  let decoded ← hashDecoded c .targetTemporary
  raiseIf (decoded ≠ (original, before.size)) (.value "archive round trip differs; original retained")
  let after ← stat c .source
  raiseIf (after.size ≠ before.size ∨ after.attributes.mtime ≠ before.attributes.mtime ∨ after.inode ≠ before.inode)
    (.value "source changed during compression; original retained")
  outside "source changed or opened before cleanup; original retained"
  let again ← digest c .source
  raiseIf (again ≠ original) (.value "source changed or opened before cleanup; original retained")
  change (Volume.rename .targetTemporary .target)
  change (Volume.syncWay place .archives)
  let sha ← digest c .target
  let archive ← stat c .target
  let r := recordOf c before original sha archive.size
  atomicJson r
  change (Volume.syncWay place .receipts)
  return r

def begin (c : Config κ) (row : Row κ) (capacity compressOnly : Bool) : Part κ (Answer κ) := do
  let before ← stat c .source
  raiseIf (before.size ≠ row.bytes ∨ before.attributes.mtime ≠ row.mtime) (.value "source changed since inventory")
  outside "source currently open"
  if !capacity then return .skippedTempCapacity
  else
    let there ← present .target
    raiseIf (there = true) (.value "archive target already exists without matching receipt; recovery review required")
    outside "archive temporary is still being written"
    let verified ← verifySource c row none
    compress c
    let archive ← stat c .targetTemporary
    if c.lowGain archive.size before.size then
      change (Volume.unlink .targetTemporary)
      return .skippedLowGain
    else
      let r ← publish c before verified.2
      if compressOnly then return .record r
      else
        outside "guard"
        let r ← remove c row r
        return .record r

/-- `archive_one`; `capacity` says that there is space for the temporary file. -/
def archiveOne (c : Config κ) (row : Row κ) (capacity compressOnly : Bool) : Part κ (Answer κ) := do
  outside "guard"
  let there ← present .receipt
  if there then
    let content ← contents .receipt
    let r ← need content.json .os
    let source ← present .source
    if r.status = .archived ∧ source = false then
      verifyReceipt c row r
      return .record r
    else if r.status = .verified then resume c row r compressOnly
    else begin c row capacity compressOnly
  else begin c row capacity compressOnly

/-- `restore`. -/
def restore (c : Config κ) (r : Record κ) : Part κ Unit := do
  outside "guard"
  let there ← present .source
  raiseIf (there = true) (.value "restore never overwrites an existing file")
  let sha ← digest c .target
  raiseIf (sha ≠ r.archiveSha) (.value "stored archive hash mismatch")
  outside "insufficient restore space; archive retained"
  let taken ← present .restoring
  raiseIf (taken = true) .os
  let b ← read .target
  let decoded := (c.unxz b).getD []
  create .restoring (.bytes decoded) (fun way => .bytes (decoded.take way)) ⟨0o644, 0⟩
  raiseIf (c.unxz b = none) .os
  change (Volume.syncFile .restoring)
  let restored ← digest c .restoring
  let made ← stat c .restoring
  raiseIf (restored ≠ r.originalSha ∨ made.size ≠ r.originalBytes) (.value "restored bytes differ; archive retained")
  change (Volume.setAttributes .restoring ⟨r.originalMode, r.originalMtime⟩)
  outside "guard"
  change (Volume.rename .restoring .source)
  change (Volume.syncWay place .sources)

end Smartwheel.HistoryArchive
