import Smartwheel.Effect.Faulty
import Mathlib.Logic.Function.Basic

/-! `ConfigProfiles.apply` with the recovery of what it leaves, and `ParameterStore.save`, over the files they share.
Every operation on the disk may fail, and the process may be killed at it. A file is written under another name and
then replaced, so that it has its old contents or its new ones. -/
namespace Smartwheel.Profiles
open Effect
open Effect.Program hiding pure bind

inductive Name where
  | setup | mapping | cameras
deriving DecidableEq, Repr

/-- `FILES`. -/
def files : List Name := [.setup, .mapping, .cameras]

theorem mem_files (name : Name) : name ∈ files := by cases name <;> decide

inductive State where
  | prepared | rollingBack | rolledBack | complete
deriving DecidableEq, Repr

structure Journal (β κ π : Type) where
  state : State
  before : Name → κ
  after : Name → κ
  activeBefore : Option β
  sourcePaths : π

structure Backup (β κ π : Type) where
  original : Name → Option β
  journal : Option (Journal β κ π)

/-- `pointer` is what .transaction.json names; directories are numbered as they are made. -/
structure Disk (β κ π : Type) where
  config : Name → β
  active : Option β
  pointer : Option Nat
  backups : List (Backup β κ π)

inductive Fault where
  | os
  | check (message : String)
  | paths
  | ended
  | backup (id : Nat)
  | changed (id : Nat)
  | during
  | rollback (id : Nat) (cause : Fault)
  | bytes
  | apply (id : Nat) (cause : Fault)
  | saved (directory : String)
deriving DecidableEq, Repr

def Fault.message (directory : Nat → String) (os : String) : Fault → String
  | .os => os
  | .check message => message
  | .paths => "配置来源路径已改变或旧记录缺少本机路径绑定；保留记录，请人工核对"
  | .ended => "已结束事务的配置文件已改变，保留恢复记录"
  | .backup id => "配置回滚备份不完整，保留恢复记录：" ++ directory id
  | .changed id => "配置切换中检测到其他修改，未覆盖；请使用备份核查：" ++ directory id
  | .during => "配置回滚期间出现其他修改，保留原始备份"
  | .rollback id cause => "配置回滚未完成；原始配置和恢复记录已保留在 " ++ directory id ++ "：" ++ cause.message directory os
  | .bytes => "配置在写入期间改变，保留备份并停止修改"
  | .apply id cause => "配置切换失败，已恢复原配置；备份：" ++ directory id ++ "；原因：" ++ cause.message directory os
  | .saved directory => "配置存在其他修改，未覆盖；原始备份：" ++ directory

variable {β κ π : Type} [DecidableEq β] [DecidableEq κ] [DecidableEq π]

structure Store (β κ π : Type) where
  sha : β → κ
  paths : π

namespace Disk

def write (name : Name) (raw : β) (d : Disk β κ π) : Disk β κ π := { d with config := Function.update d.config name raw }

def writeOriginal (id : Nat) (name : Name) (raw : β) (d : Disk β κ π) : Disk β κ π :=
  { d with backups := d.backups.modify id fun b => { b with original := Function.update b.original name (some raw) } }

def writeJournal (id : Nat) (j : Journal β κ π) (d : Disk β κ π) : Disk β κ π :=
  { d with backups := d.backups.modify id fun b => { b with journal := some j } }

def makeBackup (d : Disk β κ π) : Disk β κ π := { d with backups := d.backups ++ [⟨fun _ => none, none⟩] }

end Disk

/-- A part of the panel, on a disk that may fail. -/
abbrev Part (β κ π α : Type) := Program (Host (Disk β κ π)) Fault α

/-- `_journal_paths`, of a journal that has all its fields. -/
def journalPaths (c : Store β κ π) (j : Journal β κ π) : Part β κ π Unit :=
  raiseIf (j.sourcePaths ≠ c.paths) .paths

def unlinkPointer : Part β κ π Unit := do
  let pointer ← view .os Disk.pointer
  raiseIf (pointer = none) .os
  atomic .os fun d => { d with pointer := none }

/-- The first loop of `_rollback`. -/
def originals (c : Store β κ π) (id : Nat) (j : Journal β κ π) : List Name → Part β κ π (List (Name × β))
  | [] => pure []
  | name :: rest => do
    let original ← view .os fun d => (d.backups[id]?).bind fun b => b.original name
    let original ← need original .os
    raiseIf (c.sha original ≠ j.before name) (.backup id)
    let current ← view .os fun d => d.config name
    raiseIf (c.sha current ≠ j.before name ∧ c.sha current ≠ j.after name) (.changed id)
    let rest ← originals c id j rest
    return (name, original) :: rest

def restore (c : Store β κ π) (j : Journal β κ π) : List (Name × β) → Part β κ π Unit :=
  each fun (name, raw) => do
    let current ← view .os fun d => d.config name
    raiseIf (c.sha current ≠ j.before name ∧ c.sha current ≠ j.after name) .during
    atomic .os (Disk.write name raw)

/-- `_rollback`. -/
def rollback (c : Store β κ π) (id : Nat) (j : Journal β κ π) : Part β κ π Unit := do
  journalPaths c j
  let originals ← originals c id j files
  let body : Part β κ π Unit := do
    atomic .os (Disk.writeJournal id { j with state := .rollingBack })
    restore c j originals
    atomic .os fun d => { d with active := j.activeBefore }
    atomic .os (Disk.writeJournal id { j with state := .rolledBack })
    unlinkPointer
  body.handle fun error => raise (.rollback id error)

def forget (c : Store β κ π) (expected : Name → κ) : Part β κ π Unit := do
  let config ← view .os Disk.config
  raiseIf (∃ name ∈ files, c.sha (config name) ≠ expected name) .ended
  unlinkPointer

/-- `_recover`. -/
def recover (c : Store β κ π) : Part β κ π Unit := do
  let pointer ← view .os Disk.pointer
  match pointer with
  | none => pure ()
  | some id => do
    let journal ← view .os fun d => (d.backups[id]?).bind Backup.journal
    let j ← need journal .os
    journalPaths c j
    match j.state with
    | .complete => forget c j.after
    | .rolledBack => forget c j.before
    | .prepared | .rollingBack => rollback c id j

/-- `require_bytes`. -/
def requireBytes (expected : Name → β) : Part β κ π Unit := do
  let config ← view .os Disk.config
  raiseIf (∃ name ∈ files, config name ≠ expected name) .bytes

def replaceFiles (encoded : Name → β) : List Name → (Name → β) → Part β κ π Unit
  | [], expected => requireBytes expected
  | name :: rest, expected => do
    requireBytes expected
    atomic .os (Disk.write name (encoded name))
    replaceFiles encoded rest (Function.update expected name (encoded name))

structure Request (β : Type) where
  candidate : (Name → β) → Except String (Name → β)
  marker : (Name → β) → β

def prepare (id : Nat) (raw : Name → β) (j : Journal β κ π) : Part β κ π Unit := do
  atomic .os Disk.makeBackup
  each (fun name => atomic .os (Disk.writeOriginal id name (raw name))) files
  atomic .os (Disk.writeJournal id j)
  atomic .os fun d => { d with pointer := some id }

def switch (r : Request β) (id : Nat) (raw encoded : Name → β) (j : Journal β κ π) : Part β κ π Unit := do
  replaceFiles encoded files raw
  let config ← view .os Disk.config
  atomic .os fun d => { d with active := some (r.marker config) }
  atomic .os (Disk.writeJournal id { j with state := .complete })

/-- What `apply` does when nothing is pending. It returns why the pointer could not be removed, if it could not. -/
def transact (c : Store β κ π) (r : Request β) : Part β κ π (Option Fault) := do
  let raw ← view .os Disk.config
  match r.candidate raw with
  | .error message => raise (.check message)
  | .ok encoded => do
    let active ← view .os Disk.active
    let id ← view .os fun d => d.backups.length
    let j : Journal β κ π := ⟨.prepared, c.sha ∘ raw, c.sha ∘ encoded, active, c.paths⟩
    prepare id raw j
    (switch r id raw encoded j).handle fun error => do
      rollback c id j
      raise (.apply id error)
    let cleanup : Part β κ π (Option Fault) := do
      unlinkPointer
      return none
    cleanup.handle fun error => if error = .os then pure (some error) else raise error

/-- `apply`. -/
def apply (c : Store β κ π) (r : Request β) : Part β κ π (Option Fault) := do
  recover c
  transact c r

structure Edit (β : Type) where
  changed : List Name
  candidate : (Name → β) → Except String (Name → β)
  directory : String

/-- The handler of `save`. -/
def undo (e : Edit β) (raw encoded : Name → β) : Part β κ π Unit := do
  atomic .os id
  each (fun name => do
    let current ← view .os fun d => d.config name
    raiseIf (current ≠ raw name ∧ current ≠ encoded name) (.saved e.directory)) e.changed
  each (fun name => atomic .os (Disk.write name (raw name))) e.changed

/-- `save`. Its backup, its evidence and its revision.json are files that nothing else reads. -/
def save (e : Edit β) : Part β κ π Unit := do
  let raw ← view .os Disk.config
  match e.candidate raw with
  | .error message => raise (.check message)
  | .ok encoded => do
    atomic .os id
    (replaceFiles encoded e.changed raw).handle fun error => do
      undo e raw encoded
      raise error
    atomic .os id

end Smartwheel.Profiles
