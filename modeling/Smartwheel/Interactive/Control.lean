import Mathlib.Algebra.Group.Int.Defs
import Smartwheel.Effect.Guarantee

/-! `WindowControl`: the status document one mapping window publishes and the commands it receives, through two
files of a private directory. -/
namespace Smartwheel.Interactive
open Effect

inductive Json where
  | null
  | bool (b : Bool)
  | int (n : ℤ)
  | str (s : String)
  | other (text : String)
deriving DecidableEq, Repr

/-- A JSON object, by its keys. -/
abbrev Document := List (String × Json)

/-- `command.get(key)`. -/
def Document.get (d : Document) (key : String) : Json := (d.lookup key).getD .null

structure Owner where
  projectRoot : String
  windowId : String
  ownerPid : Nat
  ownerStartTicks : String
  controlDirectory : String
deriving DecidableEq, Repr

/-- The `IDENTITY_FIELDS` of an owner. -/
def Owner.identity (o : Owner) : Document :=
  [("schema_version", .int 1), ("window_id", .str o.windowId), ("owner_pid", .int o.ownerPid),
    ("owner_start_ticks", .str o.ownerStartTicks)]

/-- `COMMAND_FIELDS`. -/
def commandFields : List String :=
  ["schema_version", "window_id", "owner_pid", "owner_start_ticks", "generation", "active_session_id",
    "command_token", "sequence", "nonce", "action"]

structure Handle where
  sessionId : String
  directory : String
  runtime : String
  mappingEnabled : Bool
deriving DecidableEq, Repr

/-- `active_session` of a status document. -/
structure Session where
  sessionId : String
  directory : String
  runtime : String
  viewPath : String
  mappingEnabled : Bool
deriving DecidableEq, Repr

inductive State where
  | opening | preview | starting | mapping | stopping | saving | closing | failed | closed
deriving DecidableEq, Repr

structure LastCommand where
  nonce : Json
  sequence : Json
  accepted : Bool
  reason : String
deriving DecidableEq, Repr

/-- What a save process reports; `directory` is `session_output`, else `output`. -/
structure SaveResult where
  status : String
  sessionId : String
  directory : String
  errors : List String
  message : Option String
  cleanupErrors : List String
deriving DecidableEq, Repr

structure SaveInfo where
  state : String
  sessionId : Option String
  result : Option SaveResult
deriving DecidableEq, Repr

structure PendingSession where
  sessionId : String
  directory : String
  status : String
deriving DecidableEq, Repr

/-- What `run` returns beside its exit code. -/
structure RunResult where
  status : String
  windowId : String
  errors : List String
  unconfirmedOwnedSessions : List Handle
  saves : List SaveResult
  pendingSessions : List PendingSession
  cleanupErrors : List (String × List String)
  message : String
deriving DecidableEq, Repr

/-- The document in `status.json`. -/
structure Status where
  owner : Owner
  generation : Nat
  viewGeneration : Nat
  state : State
  message : String
  canStart : Bool
  canStop : Bool
  commandToken : String
  lastSequence : ℤ
  lastCommand : Option LastCommand
  activeSession : Option Session
  save : SaveInfo
  result : Option RunResult
deriving DecidableEq, Repr

inductive Action where
  | start | stop
deriving DecidableEq, Repr

def Action.text : Action → String
  | .start => "start"
  | .stop => "stop"

def Action.ofText : String → Option Action
  | "start" => some .start
  | "stop" => some .stop
  | _ => none

/-- `status['can_'+action]`. -/
def Status.can (s : Status) : Action → Bool
  | .start => s.canStart
  | .stop => s.canStop

/-- `active['session_id'] if active else None`. -/
def Status.activeId (s : Status) : Json := (s.activeSession.map (Json.str ·.sessionId)).getD .null

/-- The regular expression `[0-9a-f]{32}`. -/
def hex32 (s : String) : Bool := s.length == 32 && s.toList.all fun c => c.isDigit || ('a' ≤ c && c ≤ 'f')

/-- What is found at `command.json`. -/
inductive CommandFile where
  | absent
  | unreadable (error : String)
  | document (d : Document)
deriving DecidableEq, Repr

/-- What `bind` shows of a session. -/
def Handle.session (h : Handle) : Session :=
  ⟨h.sessionId, h.directory, h.runtime, h.directory ++ "/view.rviz", h.mappingEnabled⟩

structure WindowControl where
  status : Status
  lastDocument : Option Document
  nonces : List String
  /-- Every version of `status.json`, the one on disk first. -/
  published : List Status
  /-- What the n-th replacement of `status.json` by a document raises. -/
  disk : Nat → Status → Option String
  writes : Nat
  /-- Accepted commands, newest first, each with the status it was checked against. -/
  accepted : List (Document × Status)

namespace WindowControl

/-- `atomic_document(self.directory/'status.json', self.status)`. -/
def write : Program WindowControl String Unit := do
  let c ← .get
  .modify fun c => { c with writes := c.writes + 1 }
  match c.disk c.writes c.status with
  | some error => .raise error
  | none => .modify fun c => { c with published := c.status :: c.published }

def bump (transition : Bool) (s : Status) : Status :=
  if transition then { s with generation := s.generation + 1 } else s

def publish (transition : Bool) (values : Status → Status) : Program WindowControl String Unit := do
  .modify fun c => { c with status := values (bump transition c.status) }
  write

def bind (handle : Option Handle) : Program WindowControl String Unit :=
  .modify fun c => { c with
    status := { c.status with
      viewGeneration := c.status.viewGeneration + 1, activeSession := handle.map Handle.session } }

def rejectReason (c : WindowControl) (command : Document) : Option String :=
  if ¬(command.map Prod.fst ⊆ commandFields ∧ commandFields ⊆ command.map Prod.fst) then
    some "INVALID_COMMAND_SCHEMA"
  else if ∃ field ∈ c.status.owner.identity, command.lookup field.1 ≠ some field.2 then
    some "OWNER_IDENTITY_MISMATCH"
  else if command.get "generation" ≠ .int c.status.generation then some "STALE_GENERATION"
  else if command.get "active_session_id" ≠ c.status.activeId then some "ACTIVE_SESSION_MISMATCH"
  else if command.get "command_token" ≠ .str c.status.commandToken then some "STALE_COMMAND_TOKEN"
  else match command.get "sequence" with
    | .int sequence =>
      if ¬(c.status.lastSequence < sequence ∧ sequence < 2 ^ 53) then some "STALE_SEQUENCE"
      else match command.get "nonce" with
        | .str nonce =>
          if ¬hex32 nonce then some "INVALID_NONCE"
          else if nonce ∈ c.nonces then some "REUSED_NONCE"
          else match command.get "action" with
            | .str action =>
              match Action.ofText action with
              | some action => if c.status.can action then none else some "ACTION_NOT_AVAILABLE"
              | none => some "ACTION_NOT_AVAILABLE"
            | _ => some "ACTION_NOT_AVAILABLE"
        | _ => some "INVALID_NONCE"
    | _ => some "STALE_SEQUENCE"

/-- What accepting a command that was checked against `checked` adds. -/
def taken (c : WindowControl) (command : Document) (checked : Status) (token : String) : WindowControl :=
  { c with
    status := { c.status with
      lastSequence := match command.get "sequence" with
        | .int sequence => sequence
        | _ => c.status.lastSequence
      commandToken := token }
    nonces := match command.get "nonce" with
      | .str nonce => nonce :: c.nonces
      | _ => c.nonces
    accepted := (command, checked) :: c.accepted }

/-- What checking a new command leaves, before it is published; `token` is the new `uuid4().hex`. -/
def answered (c : WindowControl) (command : Document) (token : String) : WindowControl :=
  let reason := c.rejectReason command
  let noted := { c with
    lastDocument := some command
    status := { c.status with
      lastCommand := some ⟨command.get "nonce", command.get "sequence", reason.isNone, reason.getD "ACCEPTED"⟩ } }
  if reason = none then noted.taken command c.status token else noted

def action (command : Document) : Option Action :=
  match command.get "action" with
  | .str text => Action.ofText text
  | _ => none

def receive (file : CommandFile) (token : String) : Program WindowControl String (Option Action) := do
  match file with
  | .absent => return none
  | .unreadable error => .raise error
  | .document command =>
    let c ← .get
    if c.lastDocument = some command then return none
    else
      .modify fun c => c.answered command token
      publish false id
      return if c.rejectReason command = none then action command else none

/-- `__init__`, before its first `publish`. -/
def opening (owner : Owner) (token : String) (disk : Nat → Status → Option String) : WindowControl where
  status := {
    owner, generation := 0, viewGeneration := 0, state := .opening, message := "正在打开实时预览。"
    canStart := false, canStop := false, commandToken := token, lastSequence := 0, lastCommand := none
    activeSession := none, save := ⟨"IDLE", none, none⟩, result := none }
  lastDocument := none
  nonces := []
  published := []
  disk
  writes := 0
  accepted := []

end WindowControl
end Smartwheel.Interactive
