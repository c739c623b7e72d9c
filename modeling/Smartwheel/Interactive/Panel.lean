import Smartwheel.Interactive.Control

/-! `Panel` of the RViz window: it polls the status document and requests one command at a time. The poll and the
commit of a command are separate, as the other process may publish in between. -/
namespace Smartwheel.Interactive
open Effect Effect.Program

inductive PanelFault where
  | invalidInteger
  | otherOwner
  | movedBackwards
  | invalidCapability
  | changedWithinGeneration
  | changedWithoutView
  | regressed
  | noActiveSession
  | exhausted
  | external (text : String)
deriving DecidableEq, Repr

def PanelFault.text : PanelFault → String
  | .invalidInteger => "Invalid integer in mapping status"
  | .otherOwner => "Mapping status belongs to another owner/window"
  | .movedBackwards => "Mapping generation moved backwards"
  | .invalidCapability => "Invalid mapping command capability"
  | .changedWithinGeneration => "Mapping binding/state changed within generation"
  | .changedWithoutView => "Mapping session changed without a new view generation"
  | .regressed => "Mapping acknowledgement sequence regressed"
  | .noActiveSession => "Display state has no active session"
  | .exhausted => "Mapping command sequence exhausted"
  | .external text => text

structure Click where
  status : Status
  sequence : ℤ
  nonce : String
  action : Action
deriving DecidableEq, Repr

/-- The document written to `command.json`. -/
def Click.document (owner : Owner) (c : Click) : Document :=
  owner.identity ++ [("generation", .int c.status.generation), ("active_session_id", c.status.activeId),
    ("command_token", .str c.status.commandToken), ("sequence", .int c.sequence), ("nonce", .str c.nonce),
    ("action", .str c.action.text)]

structure Panel where
  owner : Owner
  /-- The status last polled; `generation_` and `view_generation_` are its own, or -1. -/
  status : Option Status
  pendingNonce : Option String
  localSequence : ℤ
  action : Option Action
  boundView : Option Nat
  suspended : Bool
  failed : Option PanelFault
  /-- The request on its way to `command.json`. -/
  sending : Option Click
  /-- The requests so far, newest first, and the nonces cleared by a poll that showed no acknowledgement. -/
  clicks : List Click
  abandoned : List String

namespace Panel

abbrev Act (α : Type) := Program Panel PanelFault α

def new (owner : Owner) : Panel where
  owner
  status := none
  pendingNonce := none
  localSequence := 0
  action := none
  boundView := none
  suspended := false
  failed := none
  sending := none
  clicks := []
  abandoned := []

/-- `number`: an integer that a double holds exactly. -/
def number (n : ℤ) : Except PanelFault ℤ :=
  if 0 ≤ n ∧ n ≤ 9007199254740991 then .ok n else .error .invalidInteger

def require (c : Prop) [Decidable c] (fault : PanelFault) : Except PanelFault Unit :=
  if c then .ok () else .error fault

def checkAgainst (before next : Status) : Except PanelFault Unit := do
  require (next.generation ≠ before.generation ∨ next.activeSession = before.activeSession ∧
    next.viewGeneration = before.viewGeneration ∧ next.state = before.state) .changedWithinGeneration
  require (next.viewGeneration ≠ before.viewGeneration ∨ next.activeSession = before.activeSession)
    .changedWithoutView
  let last ← number before.lastSequence
  require (last ≤ next.lastSequence) .regressed

def check (p : Panel) (next : Status) : Except PanelFault Unit := do
  require (next.owner = p.owner) .otherOwner
  let _ ← number next.generation
  let _ ← number next.viewGeneration
  let _ ← number next.lastSequence
  require (∀ before ∈ p.status, before.generation ≤ next.generation ∧ before.viewGeneration ≤ next.viewGeneration)
    .movedBackwards
  require (hex32 next.commandToken) .invalidCapability
  match p.status with
  | some before => checkAgainst before next
  | none => .ok ()

def acknowledged (p : Panel) (next : Status) (nonce : String) : Except PanelFault Bool :=
  match next.lastCommand with
  | some ack =>
    if ack.nonce = .str nonce then
      match ack.sequence with
      | .int n => do
        let sequence ← number n
        return sequence = p.localSequence
      | _ => .error .invalidInteger
    else .ok false
  | none => .ok false

def superseded (p : Panel) (next : Status) : Bool :=
  p.status.any fun before => next.generation ≠ before.generation ∨ next.commandToken ≠ before.commandToken ∨
    next.activeSession ≠ before.activeSession

def liftCheck {α : Type} : Except PanelFault α → Act α
  | .ok v => return v
  | .error fault => .raise fault

def settlePending (next : Status) : Act Unit := do
  let p ← .get
  match p.pendingNonce with
  | none => return ()
  | some nonce =>
    let ack ← liftCheck (p.acknowledged next nonce)
    .when (ack ∨ p.superseded next) (.modify fun p => { p with
      pendingNonce := none
      abandoned := if ack then p.abandoned else nonce :: p.abandoned })

def offer (s : Status) : Option Action :=
  if s.state = .preview ∧ s.canStart then some .start
  else if (s.state = .mapping ∨ s.state = .starting) ∧ s.canStop then some .stop
  else none

def displays (s : Status) : Bool := s.state = .preview ∨ s.state = .saving ∨ s.state = .mapping

/-- `suspend_once`. -/
def suspendOnce : Act Unit := .modify fun p => { p with suspended := true }

/-- The view follows the binding; `bindError` is what `bind_` raises. -/
def showSession (next : Status) (bindError : Option String) : Act Unit := do
  let p ← .get
  .raiseIf (displays next ∧ next.activeSession = none) .noActiveSession
  if displays next ∧ p.pendingNonce = none then
    .when (p.boundView ≠ some next.viewGeneration ∨ p.suspended) do
      match bindError with
      | some text => .raise (.external text)
      | none => .modify fun p => { p with boundView := some next.viewGeneration, suspended := false }
  else suspendOnce

structure Answers where
  identity : Option String
  bind : Option String

def follow (next : Status) (a : Answers) : Act Unit := do
  match a.identity with
  | some text => .raise (.external text)
  | none =>
    let p ← .get
    liftCheck (p.check next)
    settlePending next
    .modify fun p => { p with status := some next }
    showSession next a.bind
    .modify fun p => { p with action := offer next }

/-- `fail`: the window is closed. -/
def fail (fault : PanelFault) : Act Unit := .modify fun p => { p with failed := some fault, suspended := true }

def poll (next : Status) (a : Answers) : Act Unit := do
  let p ← .get
  .when (p.failed = none) ((follow next a).handle fail)

/-- The request of one click, up to the file; `identity` is what the second check of the owner raises. -/
def prepare (nonce : String) (identity : Option String) : Act Unit := do
  let p ← .get
  match p.status, p.action with
  | some status, some action =>
    match identity with
    | some text => .raise (.external text)
    | none =>
      let last ← liftCheck (number status.lastSequence)
      .raiseIf (¬max p.localSequence last < 9007199254740991) .exhausted
      let click := Click.mk status (max p.localSequence last + 1) nonce action
      .modify fun p => { p with
        localSequence := click.sequence, pendingNonce := some nonce, sending := some click
        clicks := click :: p.clicks }
  | _, _ => return ()

def request (next : Status) (a : Answers) (nonce : String) (identity : Option String) : Act Unit := do
  poll next a
  let p ← .get
  .when (p.failed = none ∧ p.pendingNonce = none) ((prepare nonce identity).handle fail)

/-- Writing `command.json`: what it raises, or the document that replaces it. -/
def commit (p : Panel) (error : Option String) : Panel × Option Document :=
  match p.sending with
  | none => (p, none)
  | some click =>
    match error with
    | some text => ({ p with sending := none, failed := some (.external text), suspended := true }, none)
    | none => ({ p with sending := none, suspended := true }, some (click.document p.owner))

end Panel

/-- What a panel does: it polls a document, is clicked (with the poll of a document before), writes `command.json`. -/
inductive PanelEvent where
  | poll (read : Status) (a : Panel.Answers)
  | click (read : Status) (a : Panel.Answers) (nonce : String) (identity : Option String)
  | commit (error : Option String)

def PanelEvent.reads : PanelEvent → Option Status
  | .poll read _ | .click read .. => some read
  | .commit _ => none

def Panel.next (p : Panel) : PanelEvent → Panel
  | .poll read a => (poll read a p).2
  | .click read a nonce identity => (request read a nonce identity p).2
  | .commit error => (p.commit error).1

/-! ### What a panel does with a document it polls and when it is clicked. -/

namespace PanelFault

def Contradiction (fault : PanelFault) : Prop := fault = .changedWithinGeneration ∨ fault = .changedWithoutView

end PanelFault

namespace Panel
variable {p p' : Panel} {read : Status} {a : Answers} {nonce : String}

structure Keeps (p p' : Panel) : Prop where
  owner : p'.owner = p.owner
  sending : p'.sending = p.sending
  clicks : p'.clicks = p.clicks

structure Following (p p' : Panel) : Prop extends Keeps p p' where
  failed : p'.failed = p.failed

inductive Pending (p : Panel) (read : Status) (p' : Panel) : Prop
  | still (same : p'.pendingNonce = p.pendingNonce) (kept : p'.abandoned = p.abandoned)
      (current : p.pendingNonce ≠ none → p.superseded read = false)
  | acknowledged (cleared : p'.pendingNonce = none) (kept : p'.abandoned = p.abandoned)
  | superseded (nonce : String) (pending : p.pendingNonce = some nonce) (moved : p.superseded read = true)
      (cleared : p'.pendingNonce = none) (dropped : p'.abandoned = nonce :: p.abandoned)

structure Seen (p : Panel) (read : Status) (p' : Panel) : Prop where
  checked : p.check read = .ok ()
  status : p'.status = some read
  pending : p.Pending read p'

structure Unseen (p p' : Panel) : Prop where
  status : p'.status = p.status
  action : p'.action = p.action
  pendingNonce : p'.pendingNonce = p.pendingNonce
  abandoned : p'.abandoned = p.abandoned

structure Polled (p : Panel) (read : Status) (p' : Panel) : Prop where
  keeps : p.Keeps p'
  seen : p.Unseen p' ∨ p.Seen read p'
  followed : p'.failed = none → p.Seen read p' ∧ p'.action = offer read
  accused : ∀ fault, p'.failed = some fault → fault.Contradiction → p.failed = some fault ∨ p.check read = .error fault

def following : Guarantee Panel where
  step _ _ := True
  whole := Following
  cuts := False
  whole_refl _ := ⟨⟨rfl, rfl, rfl⟩, rfl⟩
  whole_trans h k := ⟨⟨k.owner.trans h.owner, k.sending.trans h.sending, k.clicks.trans h.clicks⟩,
    k.failed.trans h.failed⟩

theorem change_goes {f : Panel → Panel} {E : PanelFault → Panel → Prop} (keeps : p.Following (f p)) :
    (Program.modify f).Goes following (fun _ p' => p' = f p) E p :=
  .modify (.single trivial) keeps rfl

theorem liftCheck_goes {α : Type} {x : Except PanelFault α} {F : α → Panel → Prop} {E : PanelFault → Panel → Prop}
    (ok : ∀ v, x = .ok v → F v p) (error : ∀ fault, x = .error fault → E fault p) :
    (liftCheck x).Goes following F E p := by
  cases x with
  | ok v => exact .pure (ok v rfl)
  | error fault => exact .raise (error fault rfl)

theorem acknowledged_error {fault : PanelFault} (h : p.acknowledged read nonce = .error fault) :
    ¬fault.Contradiction := by
  have invalid : fault = .invalidInteger := by
    unfold acknowledged at h
    split at h
    case h_2 => cases h
    split at h
    case isFalse => cases h
    split at h
    · rename_i n _
      unfold number at h
      split at h
      · cases h
      · cases h
        rfl
    · cases h
      rfl
  rw [invalid]
  rintro (h | h) <;> cases h

theorem settlePending_goes :
    (settlePending read).Goes following (fun _ p' => p.Pending read p' ∧ p'.status = p.status)
      (fun fault p' => p' = p ∧ ¬fault.Contradiction) p := by
  unfold settlePending
  apply Goes.get_bind
  cases hp : p.pendingNonce with
  | none => exact .pure ⟨.still rfl rfl fun h => absurd hp h, rfl⟩
  | some nonce =>
    apply Goes.bind (F := fun _ p' => p' = p)
    · apply liftCheck_goes
      · exact fun _ _ => rfl
      · exact fun fault error => ⟨rfl, acknowledged_error error⟩
    rintro ack p rfl
    apply Goes.when
    · intro clears
      apply (change_goes (by exact ⟨⟨rfl, rfl, rfl⟩, rfl⟩)).ensures
      rintro _ _ rfl
      refine ⟨?_, rfl⟩
      cases ack with
      | true => exact .acknowledged rfl rfl
      | false =>
        have moved : p.superseded read = true := by simpa using clears
        exact .superseded nonce hp moved rfl rfl
    · intro stays
      have current : p.superseded read = false := by
        simp only [not_or, Bool.not_eq_true] at stays
        exact stays.2
      exact ⟨.still rfl rfl fun _ => current, rfl⟩

structure Shows (p p' : Panel) : Prop where
  status : p'.status = p.status
  pendingNonce : p'.pendingNonce = p.pendingNonce
  abandoned : p'.abandoned = p.abandoned

theorem Pending.shown {q : Panel} (h : p.Pending read p') (pendingNonce : q.pendingNonce = p'.pendingNonce)
    (abandoned : q.abandoned = p'.abandoned) : p.Pending read q := by
  cases h with
  | still same kept current => exact .still (pendingNonce.trans same) (abandoned.trans kept) current
  | acknowledged cleared kept => exact .acknowledged (pendingNonce.trans cleared) (abandoned.trans kept)
  | superseded nonce pending moved cleared dropped =>
    exact .superseded nonce pending moved (pendingNonce.trans cleared) (abandoned.trans dropped)

theorem showSession_goes (bindError : Option String) :
    (showSession read bindError).Goes following (fun _ => p.Shows)
      (fun fault p' => p.Shows p' ∧ ¬fault.Contradiction) p := by
  have shows : p.Shows p := ⟨rfl, rfl, rfl⟩
  have changes (f : Panel → Panel) (keeps : p.Following (f p)) (h : p.Shows (f p)) :
      (Program.modify f).Goes following (fun _ => p.Shows) (fun fault p' => p.Shows p' ∧ ¬PanelFault.Contradiction fault) p := by
    apply (change_goes keeps).ensures
    rintro _ _ rfl
    exact h
  unfold showSession
  apply Goes.get_bind
  apply Goes.bind (F := fun _ p' => p' = p)
  · exact .raiseIf (fun _ => ⟨shows, by simp [PanelFault.Contradiction]⟩) fun _ => rfl
  rintro _ p rfl
  apply Goes.ite
  · intro _
    apply Goes.when _ fun _ => shows
    intro _
    cases bindError with
    | some text => exact .raise ⟨shows, by simp [PanelFault.Contradiction]⟩
    | none => exact changes _ ⟨⟨rfl, rfl, rfl⟩, rfl⟩ ⟨rfl, rfl, rfl⟩
  · intro _
    exact changes _ ⟨⟨rfl, rfl, rfl⟩, rfl⟩ ⟨rfl, rfl, rfl⟩

theorem follow_goes :
    (follow read a).Goes following (fun _ p' => p.Seen read p' ∧ p'.action = offer read)
      (fun fault p' => (p' = p ∨ p.Seen read p') ∧ (fault.Contradiction → p.check read = .error fault)) p := by
  unfold follow
  cases a.identity with
  | some text => exact .raise ⟨.inl rfl, fun h => by rcases h with h | h <;> cases h⟩
  | none =>
    apply Goes.get_bind
    apply Goes.bind (F := fun _ p' => p' = p ∧ p.check read = .ok ())
    · apply liftCheck_goes
      · exact fun v h => ⟨rfl, h⟩
      · exact fun fault error => ⟨.inl rfl, fun _ => error⟩
    rintro _ q ⟨rfl, checked⟩
    apply Goes.bind (F := fun _ p' => q.Pending read p' ∧ p'.status = q.status)
    · apply settlePending_goes.weaken (fun _ _ h => h)
      rintro fault _ ⟨rfl, other⟩
      exact ⟨.inl rfl, fun h => absurd h other⟩
    rintro _ p₁ ⟨pending, -⟩
    apply Goes.bind (F := fun _ p' => p' = { p₁ with status := some read })
    · exact change_goes ⟨⟨rfl, rfl, rfl⟩, rfl⟩
    rintro _ _ rfl
    have seen {p' : Panel} (shows : Shows { p₁ with status := some read } p') : q.Seen read p' :=
      ⟨checked, shows.status, pending.shown shows.pendingNonce shows.abandoned⟩
    apply Goes.bind (F := fun _ => Shows { p₁ with status := some read })
    · apply (showSession_goes a.bind).weaken (fun _ _ h => h)
      rintro fault p' ⟨shows, other⟩
      exact ⟨.inr (seen shows), fun h => absurd h other⟩
    rintro _ p₂ shows
    apply (change_goes (by exact ⟨⟨rfl, rfl, rfl⟩, rfl⟩)).ensures
    rintro _ _ rfl
    exact ⟨seen ⟨shows.status, shows.pendingNonce, shows.abandoned⟩, rfl⟩

theorem poll_polled (p : Panel) (read : Status) (a : Answers) : p.Polled read (poll read a p).2 := by
  have follows := @follow_goes p read a
  by_cases working : p.failed = none
  · have polled : poll read a p = (follow read a).handle fail p := by
      change (Program.when (p.failed = none) ((follow read a).handle fail)) p = _
      rw [Program.when, if_pos working]
    rw [polled]
    unfold Program.handle
    cases hx : follow read a p with
    | mk outcome p₁ =>
      cases outcome with
      | value v =>
        obtain ⟨following, seen, action⟩ := follows.value (a := v) (by rw [hx])
        rw [hx] at following seen action
        refine ⟨following.toKeeps, .inr seen, fun _ => ⟨seen, action⟩, fun fault failed => ?_⟩
        rw [show p₁.failed = none from following.failed.trans working] at failed
        cases failed
      | raised fault =>
        obtain ⟨following, moved, accused⟩ := follows.raised (e := fault) (by rw [hx])
        rw [hx] at following moved
        refine ⟨⟨following.owner, following.sending, following.clicks⟩, ?_, fun h => (nomatch h), ?_⟩
        · rcases moved with rfl | seen
          · exact .inl ⟨rfl, rfl, rfl, rfl⟩
          · exact .inr ⟨seen.checked, seen.status, seen.pending.shown rfl rfl⟩
        · rintro _ ⟨⟩ contradiction
          exact .inr (accused contradiction)
      | cut => exact absurd (congrArg Prod.fst hx) (follows.uncut id)
  · have idle : poll read a p = (.value (), p) := by
      change (Program.when (p.failed = none) ((follow read a).handle fail)) p = _
      rw [Program.when, if_neg working]
      rfl
    rw [idle]
    exact ⟨⟨rfl, rfl, rfl⟩, .inl ⟨rfl, rfl, rfl, rfl⟩, fun h => absurd h working, fun fault h _ => .inl h⟩

inductive Refused (p : Panel) : Panel → Prop
  | fail (fault : PanelFault) (other : ¬fault.Contradiction) :
      p.Refused { p with failed := some fault, suspended := true }

inductive Clicked (p : Panel) (read : Status) (nonce : String) : Panel → Prop
  | click (c : Click) (status : c.status = read) (offered : offer read = some c.action) (named : c.nonce = nonce)
      (free : p.pendingNonce = none) (polled : p.status = some read) :
      p.Clicked read nonce { p with
        localSequence := c.sequence, pendingNonce := some nonce, sending := some c, clicks := c :: p.clicks }

def Requested (p : Panel) (read : Status) (nonce : String) (p' : Panel) : Prop :=
  p' = p ∨ p.Refused p' ∨ p.Clicked read nonce p'

theorem number_error {n : ℤ} {fault : PanelFault} (h : number n = .error fault) : ¬fault.Contradiction := by
  unfold number at h
  split at h
  · cases h
  · cases h
    simp [PanelFault.Contradiction]

theorem prepare_goes {identity : Option String} (status : p.status = some read) (action : p.action = offer read)
    (free : p.pendingNonce = none) :
    (prepare nonce identity).Goes following.loose (fun _ => p.Requested read nonce)
      (fun fault p' => p' = p ∧ ¬fault.Contradiction) p := by
  unfold prepare
  apply Goes.get_bind
  rw [status, action]
  cases hoffer : offer read with
  | none => exact .pure (.inl rfl)
  | some offered =>
    cases identity with
    | some text => exact .raise ⟨rfl, by simp [PanelFault.Contradiction]⟩
    | none =>
      apply Goes.bind (F := fun _ p' => p' = p)
      · apply Goes.relax
        apply liftCheck_goes
        · exact fun _ _ => rfl
        · exact fun fault error => ⟨rfl, number_error error⟩
      rintro last p rfl
      apply Goes.bind (F := fun _ p' => p' = p)
      · exact .raiseIf (fun _ => ⟨rfl, by simp [PanelFault.Contradiction]⟩) fun _ => rfl
      rintro _ p rfl
      apply Goes.modify (.single trivial) trivial
      exact .inr (.inr (.click ⟨read, _, nonce, offered⟩ rfl hoffer rfl free status))

theorem poll_value (p : Panel) (read : Status) (a : Answers) : (poll read a p).1 = .value () := by
  change (Program.when (p.failed = none) ((follow read a).handle fail) p).1 = _
  unfold Program.when
  split
  · have uncut := (@follow_goes p read a).uncut id
    unfold Program.handle
    cases hx : follow read a p with
    | mk outcome p₁ =>
      cases outcome with
      | value v => rfl
      | raised fault => rfl
      | cut => exact absurd (congrArg Prod.fst hx) uncut
  · rfl

theorem request_cases (p : Panel) (read : Status) (a : Answers) (nonce : String) (identity : Option String) :
    ∃ p₁, p.Polled read p₁ ∧ p₁.Requested read nonce (request read a nonce identity p).2 := by
  have polled := poll_polled p read a
  refine ⟨(poll read a p).2, polled, ?_⟩
  have requested : (request read a nonce identity p).2 = (Program.when ((poll read a p).2.failed = none ∧
      (poll read a p).2.pendingNonce = none) ((prepare nonce identity).handle fail) (poll read a p).2).2 := by
    change (Program.bind (poll read a) _ p).2 = _
    unfold Program.bind
    rw [show poll read a p = (.value (), (poll read a p).2) from Prod.ext (poll_value p read a) rfl]
    rfl
  rw [requested]
  generalize (poll read a p).2 = p₁ at polled
  unfold Program.when
  split
  · rename_i working
    obtain ⟨seen, action⟩ := polled.followed working.1
    have goes : ((prepare nonce identity).handle fail).Goes following.loose (fun _ => p₁.Requested read nonce)
        (fun _ _ => False) p₁ := by
      apply (prepare_goes seen.status action working.2).handle
      rintro fault _ ⟨rfl, other⟩
      exact .modify (.single trivial) trivial (.inr (.inl (.fail fault other)))
    cases hx : ((prepare nonce identity).handle fail p₁).1 with
    | value v => exact (goes.value hx).2
    | raised fault => exact (goes.raised hx).2.elim
    | cut => exact absurd hx (goes.uncut id)
  · exact .inl rfl

theorem commit_cases (p : Panel) (error : Option String) :
    (p.commit error).1 = p ∨ ({ p with sending := none, suspended := true } : Panel) = (p.commit error).1 ∨
      ({ p with sending := none } : Panel).Refused (p.commit error).1 := by
  unfold commit
  cases p.sending with
  | none => exact .inl rfl
  | some c =>
    cases error with
    | none => exact .inr (.inl rfl)
    | some text => exact .inr (.inr (.fail _ (by simp [PanelFault.Contradiction])))

theorem bind_ok {α : Type} {x : Except PanelFault α} {f : α → Except PanelFault Unit}
    (h : (x >>= f) = .ok ()) : ∃ v, x = .ok v ∧ f v = .ok () := by
  cases x with
  | error fault => cases h
  | ok v => exact ⟨v, rfl, h⟩

theorem require_ok {c : Prop} [Decidable c] {fault : PanelFault} (h : require c fault = .ok ()) : c := by
  unfold require at h
  split at h
  · assumption
  · cases h

theorem number_ok {n m : ℤ} (h : number n = .ok m) : m = n := by
  unfold number at h
  split at h
  · exact (Except.ok.inj h).symm
  · cases h

structure Succeeds (before read : Status) : Prop where
  generation : before.generation ≤ read.generation
  activeSession : read.generation = before.generation → read.activeSession = before.activeSession
  lastSequence : before.lastSequence ≤ read.lastSequence

theorem check_ok {before : Status} (h : p.check read = .ok ()) (polled : p.status = some before) :
    Succeeds before read := by
  unfold check at h
  obtain ⟨-, -, h⟩ := bind_ok h
  obtain ⟨-, -, h⟩ := bind_ok h
  obtain ⟨-, -, h⟩ := bind_ok h
  obtain ⟨-, -, h⟩ := bind_ok h
  obtain ⟨_, forwards, h⟩ := bind_ok h
  obtain ⟨-, -, h⟩ := bind_ok h
  rw [polled] at h
  unfold checkAgainst at h
  obtain ⟨_, bound, h⟩ := bind_ok h
  obtain ⟨-, -, h⟩ := bind_ok h
  obtain ⟨last, hlast, h⟩ := bind_ok h
  have forwards := require_ok forwards before polled
  have later := require_ok h
  rw [number_ok hlast] at later
  exact ⟨forwards.1, fun same => ((require_ok bound).resolve_left (not_not.mpr same)).1, later⟩

end Panel
end Smartwheel.Interactive
