import Smartwheel.Text.Json

/-! What `WindowControl.receive` does with any JSON object: the nonce and the sequence of a command are repeated in the status document, also
those of a rejected one. -/
namespace Smartwheel.WindowReceive
open StrictJson

def MAX_DOCUMENT_BYTES : ℕ := 262144

def hexDigit (c : ℕ) : Bool := (48 ≤ c && c ≤ 57) || (97 ≤ c && c ≤ 102)

/-- `re.fullmatch('[0-9a-f]{32}', nonce)`. -/
def hex32 (s : Text) : Bool := s.length == 32 && s.all hexDigit

/-- `uuid.uuid4().hex`. -/
structure Token where
  text : Text
  hex : hex32 text

structure Owner where
  projectRoot : Text
  windowId : Text
  ownerPid : ℤ
  ownerStartTicks : Text
  controlDirectory : Text

/-- `active_session`, with what else `bind` shows. -/
structure Session where
  sessionId : Text
  shown : Fields

structure LastCommand where
  nonce : Value
  sequence : Value
  accepted : Bool
  reason : String

/-- `status`; what no command is checked against is in `others`. -/
structure Status where
  owner : Owner
  generation : ℕ
  canStart : Bool
  canStop : Bool
  commandToken : Token
  lastSequence : ℤ
  lastCommand : Option LastCommand
  activeSession : Option Session
  others : Fields

def fields : List (String × Value) → Fields → Fields
  | [], rest => rest
  | (key, value) :: more, rest => .field (Text.of key) value (fields more rest)

def LastCommand.json (l : LastCommand) : Value :=
  .object (fields [("accepted", .bool l.accepted), ("nonce", l.nonce), ("reason", .text (Text.of l.reason)), ("sequence", l.sequence)] .empty)

def Session.json (s : Session) : Value := .object (fields [("session_id", .text s.sessionId)] s.shown)

/-- The document in `status.json`. The order of its keys changes neither its length nor what is refused. -/
def Status.document (s : Status) : Value :=
  .object (fields [
    ("active_session", (s.activeSession.map Session.json).getD .null), ("can_start", .bool s.canStart), ("can_stop", .bool s.canStop),
    ("command_token", .text s.commandToken.text), ("control_directory", .text s.owner.controlDirectory), ("generation", .int s.generation),
    ("last_command", (s.lastCommand.map LastCommand.json).getD .null), ("last_sequence", .int s.lastSequence),
    ("owner_pid", .int s.owner.ownerPid), ("owner_start_ticks", .text s.owner.ownerStartTicks), ("project_root", .text s.owner.projectRoot),
    ("schema_version", .int 1), ("window_id", .text s.owner.windowId)] s.others)

def IDENTITY_FIELDS : List String := ["schema_version", "window_id", "owner_pid", "owner_start_ticks"]

def COMMAND_FIELDS : List String :=
  IDENTITY_FIELDS ++ ["generation", "active_session_id", "command_token", "sequence", "nonce", "action"]

/-- The value of each of the `IDENTITY_FIELDS`. -/
def Owner.identity (o : Owner) : List (Text × Value) :=
  (IDENTITY_FIELDS.map Text.of).zip [.int 1, .text o.windowId, .int o.ownerPid, .text o.ownerStartTicks]

structure WindowControl where
  status : Status
  /-- The bytes of the last document stand for their hash. -/
  lastDocument : Option (List UInt8)
  nonces : List Text
  /-- The versions of `status.json`, the one on disk first. -/
  published : List Status

/-- `command.get(key)`. -/
def asked (command : Fields) (key : String) : Value := command.get (Text.of key)

namespace WindowControl
variable (limit : ℕ) (c : WindowControl) (command : Fields)

/-- `status.get('can_'+action)`, for one of the two actions. -/
def available (action : Value) : Bool :=
  (action = .text (Text.of "start") && c.status.canStart) || (action = .text (Text.of "stop") && c.status.canStop)

def rejectReason : Option String :=
  if ¬(command.keys ⊆ COMMAND_FIELDS.map Text.of ∧ COMMAND_FIELDS.map Text.of ⊆ command.keys) then some "INVALID_COMMAND_SCHEMA"
  else if ∃ field ∈ c.status.owner.identity, command.lookup field.1 ≠ some field.2 then some "OWNER_IDENTITY_MISMATCH"
  else if asked command "generation" ≠ .int c.status.generation then some "STALE_GENERATION"
  else if asked command "active_session_id" ≠ (c.status.activeSession.map fun session => Json.text session.sessionId).getD .null then
    some "ACTIVE_SESSION_MISMATCH"
  else if asked command "command_token" ≠ .text c.status.commandToken.text then some "STALE_COMMAND_TOKEN"
  else match asked command "sequence" with
    | .int sequence =>
      if ¬(c.status.lastSequence < sequence ∧ sequence < 2 ^ 53) then some "STALE_SEQUENCE"
      else match asked command "nonce" with
        | .text nonce =>
          if ¬hex32 nonce then some "INVALID_NONCE"
          else if nonce ∈ c.nonces then some "REUSED_NONCE"
          else if c.available (asked command "action") then none
          else some "ACTION_NOT_AVAILABLE"
        | _ => some "INVALID_NONCE"
    | _ => some "STALE_SEQUENCE"

def answer : LastCommand :=
  ⟨asked command "nonce", asked command "sequence", (c.rejectReason command).isNone, (c.rejectReason command).getD "ACCEPTED"⟩

/-- `last_sequence` with a command. -/
def sequenceAfter : ℤ :=
  match c.rejectReason command, asked command "sequence" with
  | none, .int sequence => sequence
  | _, _ => c.status.lastSequence

def noncesAfter : List Text :=
  match c.rejectReason command, asked command "nonce" with
  | none, .text nonce => nonce :: c.nonces
  | _, _ => c.nonces

def answered (raw : List UInt8) (token : Token) : WindowControl :=
  { c with
    lastDocument := some raw
    nonces := c.noncesAfter command
    status := { c.status with
      lastCommand := some (c.answer command)
      lastSequence := c.sequenceAfter command
      commandToken := if c.rejectReason command = none then token else c.status.commandToken } }

/-- `atomic_document` of the status, of which only the encoder and the length can refuse. -/
def write : WindowControl × Except Json.Refusal Unit :=
  match c.status.document.refusal limit (MAX_DOCUMENT_BYTES - 1) with
  | some refusal => (c, .error refusal)
  | none => ({ c with published := c.status :: c.published }, .ok ())

def receive (raw : List UInt8) (token : Token) : WindowControl × Except Json.Refusal (Option Value) :=
  if c.lastDocument = some raw then (c, .ok none)
  else
    match (c.answered command raw token).write limit with
    | (c', .error refusal) => (c', .error refusal)
    | (c', .ok ()) => (c', .ok (if c.rejectReason command = none then some (asked command "action") else none))

/-- `publish`, with the values that the coordinator has changed and bound before. -/
def publish (transition canStart canStop : Bool) (session : Option Session) (others : Fields) : WindowControl × Except Json.Refusal Unit :=
  { c with
    status := { c.status with
      generation := if transition then c.status.generation + 1 else c.status.generation
      canStart, canStop, activeSession := session, others } }.write limit

/-- `__init__`, before it publishes. -/
def opening (owner : Owner) (token : Token) : WindowControl where
  status := {
    owner, generation := 0, canStart := false, canStop := false, commandToken := token, lastSequence := 0, lastCommand := none
    activeSession := none
    others := fields [("message", .text (Text.of "正在打开实时预览。")),
      ("save", .object (fields [("result", .null), ("session_id", .null), ("state", .text (Text.of "IDLE"))] .empty)),
      ("state", .text (Text.of "OPENING")), ("view_generation", .int 0)] .empty }
  lastDocument := none
  nonces := []
  published := []

inductive Reachable : WindowControl → Prop
  | opened {owner : Owner} {token : Token} {c : WindowControl} (h : (opening owner token).write limit = (c, .ok ())) : Reachable c
  | published {c c' : WindowControl} {transition canStart canStop : Bool} {session : Option Session} {others : Fields} (before : Reachable c)
      (h : c.publish limit transition canStart canStop session others = (c', .ok ())) : Reachable c'
  | received {c c' : WindowControl} {command : Fields} {raw : List UInt8} {token : Token} {action : Option Value} (before : Reachable c)
      (h : c.receive limit command raw token = (c', .ok action)) : Reachable c'

end WindowControl

/-! ### Documents -/

variable {limit : ℕ}

theorem strict_fields {rest : Fields} (entries : List (String × Value)) :
    Json.Strict limit (fields entries rest) ↔ (∀ entry ∈ entries, Json.Strict limit entry.2) ∧ Json.Strict limit rest := by
  induction entries with
  | nil => simp [fields]
  | cons entry entries ih =>
    obtain ⟨key, value⟩ := entry
    simp only [fields, Json.strict_field, Json.of_encodable, true_and, ih, List.forall_mem_cons, and_assoc]

theorem strict_empty : Json.Strict limit Json.empty := ⟨Nat.zero_le _, rfl, rfl⟩

theorem LastCommand.strict {l : LastCommand} :
    Json.Strict limit l.json ↔ 1 ≤ limit ∧ Json.Strict (limit - 1) l.nonce ∧ Json.Strict (limit - 1) l.sequence := by
  have accepted : Json.Strict (limit - 1) (.bool l.accepted) := Json.strict_of_flat rfl rfl rfl
  have reason : Json.Strict (limit - 1) (.text (Text.of l.reason)) := Json.strict_text.mpr (Json.of_encodable l.reason)
  simp only [LastCommand.json, Json.strict_object, strict_fields, List.forall_mem_cons, List.not_mem_nil, false_implies, implies_true, and_true,
    strict_empty, accepted, reason, true_and]

theorem hexDigit_encodable {c : ℕ} (h : hexDigit c) : surrogate c = false := by
  simp only [hexDigit, Bool.or_eq_true, Bool.and_eq_true, decide_eq_true_eq] at h
  simp only [surrogate, Bool.and_eq_false_iff, decide_eq_false_iff_not]
  omega

theorem hexDigit_size {c : ℕ} (h : hexDigit c) : codeSize c = 1 := by
  simp only [hexDigit, Bool.or_eq_true, Bool.and_eq_true, decide_eq_true_eq] at h
  unfold codeSize
  rw [if_neg (by omega), if_neg (by omega), if_pos (by omega)]

theorem Token.encodable (t : Token) : t.text.any surrogate = false := by
  have all := t.hex
  simp only [hex32, Bool.and_eq_true, List.all_eq_true] at all
  rw [List.any_eq_false]
  intro c inside
  rw [hexDigit_encodable (all.2 c inside)]
  exact Bool.false_ne_true

theorem Token.size (t : Token) : Text.size t.text = 34 := by
  have all := t.hex
  simp only [hex32, Bool.and_eq_true, List.all_eq_true, beq_iff_eq] at all
  have ones : t.text.map codeSize = List.replicate t.text.length 1 :=
    List.eq_replicate_iff.mpr ⟨List.length_map _, fun n inside => by
      obtain ⟨c, here, rfl⟩ := List.mem_map.mp inside
      exact hexDigit_size (all.2 c here)⟩
  rw [Text.size, ones, all.1]
  rfl

def Status.answered (s : Status) (answer : Option LastCommand) (sequence : ℤ) (token : Token) : Status :=
  { s with lastCommand := answer, lastSequence := sequence, commandToken := token }

theorem Status.answered_strict {s : Status} (h : Json.Strict limit s.document) (answer : LastCommand) (sequence : ℤ) (token : Token) :
    Json.Strict limit (s.answered (some answer) sequence token).document ↔ Json.Strict (limit - 1) answer.json := by
  simp only [Status.document, Json.strict_object, strict_fields, List.forall_mem_cons, List.not_mem_nil, false_implies, implies_true,
    and_true] at h
  obtain ⟨positive, ⟨session, start, stop, was, directory, generation, last, number, pid, ticks, root, version, window⟩, others⟩ := h
  have next : Json.Strict (limit - 1) (.text token.text) := Json.strict_text.mpr token.encodable
  have count : Json.Strict (limit - 1) (.int sequence) := Json.strict_of_flat rfl rfl rfl
  simp only [Status.answered, Status.document, Json.strict_object, strict_fields, List.forall_mem_cons, List.not_mem_nil, false_implies,
    implies_true, and_true, positive, session, start, stop, next, directory, generation, count, pid, ticks, root, version, window, others,
    Option.map_some, Option.getD_some, true_and]

theorem Status.answered_size (s : Status) (answer : LastCommand) (sequence : ℤ) (token token' : Token) :
    (s.answered (some answer) sequence token).document.size + 4 = (s.answered none sequence token').document.size + answer.json.size := by
  simp only [Status.answered, Status.document, fields, Json.size, Json.gap, Token.size, Option.map_some, Option.map_none, Option.getD_some,
    Option.getD_none]
  omega

namespace WindowControl
variable {c c' : WindowControl} {command : Fields} {raw : List UInt8} {token : Token}

structure Current (limit : ℕ) (c : WindowControl) : Prop where
  strict : Json.Strict limit c.status.document
  fits : c.status.document.size ≤ MAX_DOCUMENT_BYTES - 1
  disk : c.published.head? = some c.status

theorem write_ok (h : c.write limit = (c', .ok ())) : c' = { c with published := c.status :: c.published } ∧ Current limit c' := by
  unfold write at h
  split at h
  · cases h
  · next none =>
    cases h
    obtain ⟨strict, fits⟩ := Json.refusal_eq_none.mp none
    exact ⟨rfl, strict, fits, rfl⟩

theorem receive_new (fresh : c.lastDocument ≠ some raw) {action : Option Value} (h : c.receive limit command raw token = (c', .ok action)) :
    (c.answered command raw token).write limit = (c', .ok ()) ∧
      action = if c.rejectReason command = none then some (asked command "action") else none := by
  unfold receive at h
  rw [if_neg fresh] at h
  split at h
  · cases h
  · next written =>
    cases h
    exact ⟨written, rfl⟩

theorem Reachable.current (h : Reachable limit c) : Current limit c := by
  induction h with
  | opened h => exact (write_ok h).2
  | published before h ih => exact (write_ok h).2
  | @received c c' command raw token action before h ih =>
    by_cases again : c.lastDocument = some raw
    · unfold receive at h
      rw [if_pos again] at h
      cases h
      exact ih
    · exact (write_ok (receive_new again h).1).2

/-- What is promised for a command that was read: nothing is raised, what is on disk says so of a new one, and a refused one changes nothing
else. -/
def Promised (limit : ℕ) (c : WindowControl) (command : Fields) (raw : List UInt8) (token : Token) : Prop :=
  ∃ c' action, c.receive limit command raw token = (c', .ok action) ∧ c'.published.head? = some c'.status ∧
    (c.lastDocument ≠ some raw → c'.status.lastCommand = some (c.answer command)) ∧
    (c.rejectReason command ≠ none →
      action = none ∧ c'.status = { c.status with lastCommand := c'.status.lastCommand } ∧ c'.nonces = c.nonces)

structure Echoable (limit : ℕ) (c : WindowControl) (command : Fields) : Prop where
  nonce : Json.Strict (limit - 2) (asked command "nonce")
  sequence : Json.Strict (limit - 2) (asked command "sequence")
  deep : 2 ≤ limit
  room : (c.status.answered none (c.sequenceAfter command) c.status.commandToken).document.size + (c.answer command).json.size <
    MAX_DOCUMENT_BYTES + 4

theorem answered_status (c : WindowControl) (command : Fields) (raw : List UInt8) (token : Token) :
    (c.answered command raw token).status = c.status.answered (some (c.answer command)) (c.sequenceAfter command)
      (if c.rejectReason command = none then token else c.status.commandToken) := rfl

theorem answered_accepts_iff (h : Current limit c) (raw : List UInt8) (token : Token) :
    (c.answered command raw token).status.document.refusal limit (MAX_DOCUMENT_BYTES - 1) = none ↔ Echoable limit c command := by
  rw [Json.refusal_eq_none, answered_status, Status.answered_strict h.strict, LastCommand.strict]
  have size := c.status.answered_size (c.answer command) (c.sequenceAfter command)
    (if c.rejectReason command = none then token else c.status.commandToken) c.status.commandToken
  have positive : 0 < MAX_DOCUMENT_BYTES := by decide
  have twice : limit - 1 - 1 = limit - 2 := by omega
  rw [twice]
  constructor
  · rintro ⟨⟨deep, nonce, sequence⟩, fits⟩
    exact ⟨nonce, sequence, by omega, by omega⟩
  · rintro ⟨nonce, sequence, deep, room⟩
    exact ⟨⟨by omega, nonce, sequence⟩, by omega⟩

theorem answered_refused (h : c.rejectReason command ≠ none) (raw : List UInt8) (token : Token) :
    (c.answered command raw token).status = { c.status with lastCommand := some (c.answer command) } ∧
      (c.answered command raw token).nonces = c.nonces := by
  cases refused : c.rejectReason command with
  | none => exact absurd refused h
  | some reason =>
    simp only [answered, sequenceAfter, noncesAfter, refused, reduceCtorEq, if_false, and_self]

/-- A command that was read is answered exactly where it was before, or where the status can hold what it repeats of the command. -/
theorem receive_promised_iff (h : Reachable limit c) :
    Promised limit c command raw token ↔ c.lastDocument = some raw ∨ Echoable limit c command := by
  have current := h.current
  constructor
  · rintro ⟨c', action, received, -⟩
    by_cases again : c.lastDocument = some raw
    · exact .inl again
    · refine .inr ((answered_accepts_iff current raw token).mp ?_)
      obtain ⟨written, -⟩ := receive_new again received
      unfold write at written
      split at written
      · cases written
      · next none => exact none
  · intro either
    by_cases again : c.lastDocument = some raw
    · refine ⟨c, none, by rw [receive, if_pos again], current.disk, fun new => absurd again new, fun _ => ⟨rfl, rfl, rfl⟩⟩
    · have accepted := (answered_accepts_iff current raw token).mpr (either.resolve_left again)
      refine ⟨_, _, by rw [receive, if_neg again, write, accepted], rfl, fun _ => rfl, fun refused => ?_⟩
      obtain ⟨status, nonces⟩ := answered_refused refused raw token
      exact ⟨if_neg refused, status, nonces⟩

namespace Bench

def zeros : Token := ⟨List.replicate 32 48, by decide⟩

def owner : Owner := ⟨Text.of "/a", Text.of "w", 7, Text.of "11", Text.of "/a/w"⟩

def control : WindowControl := ((opening owner zeros).write 1000).1

theorem reachable : Reachable 1000 control := by
  have written : ((opening owner zeros).write 1000).2 = .ok () := by decide +kernel
  exact .opened (Prod.ext rfl written)

/-- `{"nonce": NaN}`. -/
def unordered : Fields := .field (Text.of "nonce") (.float .nan) .empty

end Bench

theorem receive_promised_iff_opened : Promised 1000 Bench.control Bench.unordered [] Bench.zeros ↔
    Bench.control.lastDocument = some [] ∨ Echoable 1000 Bench.control Bench.unordered := receive_promised_iff Bench.reachable

/-- A nonce that is no number is refused as a command, and then by the encoder. -/
theorem nan_raises : Reachable 1000 Bench.control ∧ Bench.control.rejectReason Bench.unordered = some "INVALID_COMMAND_SCHEMA" ∧
    (Bench.control.receive 1000 Bench.unordered [] Bench.zeros).2 = .error .outOfRange ∧
    ¬Promised 1000 Bench.control Bench.unordered [] Bench.zeros := by
  have raises : (Bench.control.receive 1000 Bench.unordered [] Bench.zeros).2 = .error .outOfRange := by decide +kernel
  refine ⟨Bench.reachable, by decide +kernel, raises, ?_⟩
  rintro ⟨c', action, received, -⟩
  rw [received] at raises
  cases raises

end WindowControl
end Smartwheel.WindowReceive
