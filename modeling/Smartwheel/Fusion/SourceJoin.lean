import Smartwheel.Effect.History
import Smartwheel.Fusion.Core

/-! `RawFilteredJoin`: raw and filtered messages of one frame are paired exactly, whatever comes between them. -/
namespace Smartwheel.Fusion.Join

/-- `frame_identity`. -/
structure Identity where
  sessionId : String
  side : String
  sensorId : String
  streamEpoch : String
  frameSequence : Int
deriving DecidableEq, Repr

structure Stamp where
  sec : Int
  nanosec : Int
deriving DecidableEq, Repr

structure Header where
  frameId : String
  stamp : Stamp
deriving DecidableEq, Repr

/-- `acquisition_signature`. -/
structure Acquisition where
  header : Header
  cloudHeader : Header
  deviceTimestampValid : Bool
  deviceTimestampRaw : Int
  deviceTimestampUnit : String
  deviceTimeComponentsValid : Bool
  deviceTimestampSeconds : Int
  deviceTimestampNanoseconds : Int
  deviceTimeType : String
  deviceSyncState : String
  hostReceiveTime : Stamp
  hostMonotonicNs : Int
  commonTimeValid : Bool
  commonTimeNs : Int
  clockModelId : String
  timeSource : String
  uncertaintyValid : Bool
  uncertaintyNs : Int
  coordinateConvention : String
  units : String
deriving DecidableEq, Repr

/-- What the join reads of a `SourceFrame`. -/
structure Message where
  identity : Identity
  acquisition : Acquisition
  sourceConfigHash : String
  cloudData : List UInt8
  diagnosticFlags : List String
deriving DecidableEq

inductive Kind where
  | raw | filtered
deriving DecidableEq, Repr

structure Row where
  key : Identity
  received : Int
  raw : Option Message
  filtered : Option Message
deriving DecidableEq

structure Content where
  acquisition : Acquisition
  sourceConfigHash : String
  digest : String
deriving DecidableEq

structure Completed where
  key : Identity
  raw : Content
  filtered : Content
deriving DecidableEq

structure Pair where
  raw : Message
  filtered : Message
deriving DecidableEq

/-- `sha256` gives the hexadecimal digest. -/
structure Config where
  capacity : Nat
  timeoutNs : Int
  sha256 : List UInt8 → String
  bounds : 1 ≤ capacity ∧ 1 ≤ timeoutNs

structure State where
  pending : List Row
  completed : List Completed
deriving DecidableEq

def Row.get (row : Row) : Kind → Option Message
  | .raw => row.raw
  | .filtered => row.filtered

def Row.set (row : Row) (kind : Kind) (message : Message) : Row :=
  match kind with
  | .raw => { row with raw := some message }
  | .filtered => { row with filtered := some message }

def Completed.get (entry : Completed) : Kind → Content
  | .raw => entry.raw
  | .filtered => entry.filtered

def Pair.get (pair : Pair) : Kind → Message
  | .raw => pair.raw
  | .filtered => pair.filtered

section
variable (c : Config)

def contentSignature (m : Message) : Content := ⟨m.acquisition, m.sourceConfigHash, c.sha256 m.cloudData⟩

def References (raw filtered : Message) : Prop :=
  "raw_source_config_hash=" ++ raw.sourceConfigHash ∈ filtered.diagnosticFlags ∧
    "before_host_filter_cloud_sha256=" ++ c.sha256 raw.cloudData ∈ filtered.diagnosticFlags

instance (raw filtered : Message) : Decidable (References c raw filtered) := inferInstanceAs (Decidable (_ ∧ _))

def remembered (pair : Pair) : Completed :=
  ⟨pair.raw.identity, contentSignature c pair.raw, contentSignature c pair.filtered⟩

/-- `expire`: what is raised, if anything, and what is left. -/
def State.expire (s : State) (now : Int) : Except Failure Unit × State :=
  if s.pending.any fun row => !decide (0 ≤ now - row.received ∧ now - row.received ≤ c.timeoutNs) then
    (reject "RAW_FILTERED_FRAME_TIMEOUT", { s with pending := [] })
  else (.ok (), s)

def State.join (s : State) (key : Identity) (raw filtered : Message) : Except Failure (Option Pair) × State :=
  let s := { s with pending := s.pending.filter (·.key ≠ key) }
  if raw.acquisition ≠ filtered.acquisition then (reject "RAW_FILTERED_ACQUISITION_MISMATCH", s)
  else if ¬References c raw filtered then (reject "RAW_FILTERED_CONTENT_REFERENCE_MISMATCH", s)
  else
    let entry : Completed := ⟨key, contentSignature c raw, contentSignature c filtered⟩
    let completed := s.completed ++ [entry]
    (.ok (some ⟨raw, filtered⟩), { s with completed := completed.drop (completed.length - c.capacity * 4) })

def State.meet (s : State) (kind : Kind) (message : Message) (row : Row) : Except Failure (Option Pair) × State :=
  if (row.get kind).isSome then (reject "RAW_FILTERED_DUPLICATE_BRANCH", s)
  else
    let row := row.set kind message
    match row.raw, row.filtered with
    | some raw, some filtered => s.join c row.key raw filtered
    | _, _ => (.ok none, { s with pending := s.pending.map fun r => if r.key = row.key then row else r })

/-- `push`, with what it returns or raises. No kind stands for any other text. -/
def State.push (s : State) (kind : Option Kind) (message : Message) (now : Field Int) :
    Except Failure (Option Pair) × State :=
  match kind with
  | none => (reject "UNKNOWN_FILTER_BRANCH", s)
  | some kind =>
    match integerNs now with
    | .error e => (.error e, s)
    | .ok now =>
      match s.expire c now with
      | (.error e, s) => (.error e, s)
      | (.ok (), s) =>
        let key := message.identity
        match s.completed.find? (·.key = key) with
        | some entry =>
          if entry.get kind ≠ contentSignature c message then (reject "RAW_FILTERED_COMPLETED_CONTENT_CHANGED", s)
          else (.ok none, s)
        | none =>
          match s.pending.find? (·.key = key) with
          | some row => s.meet c kind message row
          | none =>
            if c.capacity ≤ s.pending.length then (reject "RAW_FILTERED_QUEUE_FULL", s)
            else
              let row : Row := ⟨key, now, none, none⟩
              { s with pending := s.pending ++ [row] }.meet c kind message row

end

inductive Call where
  | push (kind : Option Kind) (message : Message) (now : Field Int)
  | clear
  | expire (now : Int)

structure World where
  state : State
  emitted : List Pair

def World.call (c : Config) (w : World) : Call → World
  | .push kind message now =>
    match w.state.push c kind message now with
    | (.ok (some pair), s) => ⟨s, pair :: w.emitted⟩
    | (_, s) => { w with state := s }
  | .clear => { w with state := { w.state with pending := [] } }
  | .expire now => { w with state := (w.state.expire c now).2 }

def initial : World := ⟨⟨[], []⟩, []⟩

def run (c : Config) (calls : List Call) : World := calls.foldl (World.call c) initial

end Smartwheel.Fusion.Join
