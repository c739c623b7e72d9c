import Smartwheel.Interactive.Control

/-! What the operations of `WindowControl` do, one step for each change of the status and of the published
documents. -/
namespace Smartwheel.Interactive
open Effect.Program

namespace Status

structure Agrees (s d : Status) : Prop where
  state : d.state = s.state
  viewGeneration : d.viewGeneration = s.viewGeneration
  activeSession : d.activeSession = s.activeSession

theorem Agrees.symm {s d : Status} (h : s.Agrees d) : d.Agrees s :=
  ⟨h.state.symm, h.viewGeneration.symm, h.activeSession.symm⟩

theorem Agrees.trans {s d e : Status} (h : s.Agrees d) (k : d.Agrees e) : s.Agrees e :=
  ⟨k.state.trans h.state, k.viewGeneration.trans h.viewGeneration, k.activeSession.trans h.activeSession⟩

structure Keeps (values : Status → Status) : Prop where
  owner : ∀ s, (values s).owner = s.owner
  generation : ∀ s, (values s).generation = s.generation
  viewGeneration : ∀ s, (values s).viewGeneration = s.viewGeneration
  activeSession : ∀ s, (values s).activeSession = s.activeSession
  commandToken : ∀ s, (values s).commandToken = s.commandToken
  lastSequence : ∀ s, (values s).lastSequence = s.lastSequence
  lastCommand : ∀ s, (values s).lastCommand = s.lastCommand

end Status

namespace WindowControl
variable {c c' : WindowControl} {C : Prop} {file : CommandFile} {token : String}

def Agreeing (c : WindowControl) : Prop :=
  ∀ d ∈ c.published, d.generation = c.status.generation → c.status.Agrees d

structure Behind (c : WindowControl) : Prop where
  generation : ∀ d ∈ c.published, d.generation ≤ c.status.generation
  view : ∀ d ∈ c.published, d.viewGeneration ≤ c.status.viewGeneration
  binding : ∀ d ∈ c.published, d.viewGeneration = c.status.viewGeneration → d.activeSession = c.status.activeSession

/-- One change. `C` is what the documents' agreement rests on. -/
inductive Moved (C : Prop) (file : CommandFile) (token : String) (c : WindowControl) : WindowControl → Prop
  | transition (values : Status → Status) (keeps : Status.Keeps values) :
      Moved C file token c { c with status := values (bump true c.status) }
  | noted (values : Status → Status) (keeps : Status.Keeps values) (state : ∀ s, (values s).state = s.state) :
      Moved C file token c { c with status := values c.status }
  | bound (handle : Option Handle) :
      Moved C file token c { c with status := { c.status with
        viewGeneration := c.status.viewGeneration + 1, activeSession := handle.map Handle.session } }
  | answered (command : Document) (found : file = .document command) (fresh : c.lastDocument ≠ some command) :
      Moved C file token c (c.answered command token)
  | counted : Moved C file token c { c with writes := c.writes + 1 }
  | published (agreeing : C → c.Agreeing) : Moved C file token c { c with published := c.status :: c.published }

def guarantee (C : Prop) (file : CommandFile) (token : String) : Guarantee WindowControl where
  step := Moved C file token
  whole _ _ := True
  cuts := False
  whole_refl _ := trivial
  whole_trans _ _ := trivial

theorem Agreeing.of_status (h : c.Agreeing) (status : Status) (same : c.status.Agrees status)
    (generation : status.generation = c.status.generation) : ({ c with status } : WindowControl).Agreeing := by
  intro d hd hg
  exact same.symm.trans (h d hd (hg.trans generation))

theorem Behind.of_status (h : c.Behind) {status : Status} (generation : c.status.generation ≤ status.generation)
    (view : status.viewGeneration = c.status.viewGeneration) (active : status.activeSession = c.status.activeSession) :
    ({ c with status } : WindowControl).Behind where
  generation d hd := (h.generation d hd).trans generation
  view d hd := (h.view d hd).trans view.ge
  binding d hd same := (h.binding d hd (same.trans view)).trans active.symm

variable {values : Status → Status}

theorem Behind.bumped (h : c.Behind) (keeps : Status.Keeps values) :
    ({ c with status := values (bump true c.status) } : WindowControl).Agreeing := by
  intro d hd same
  have older := h.generation d hd
  have newer : d.generation = c.status.generation + 1 := by simpa [keeps.generation, bump] using same
  omega

theorem Behind.transition (h : c.Behind) (keeps : Status.Keeps values) :
    ({ c with status := values (bump true c.status) } : WindowControl).Behind :=
  h.of_status (by simp [keeps.generation, bump]) (by simp [keeps.viewGeneration, bump])
    (by simp [keeps.activeSession, bump])

theorem Behind.noted (h : c.Behind) (keeps : Status.Keeps values) :
    ({ c with status := values c.status } : WindowControl).Behind :=
  h.of_status (keeps.generation _).ge (keeps.viewGeneration _) (keeps.activeSession _)

theorem Behind.bound (h : c.Behind) (session : Option Session) :
    ({ c with status := { c.status with
      viewGeneration := c.status.viewGeneration + 1, activeSession := session } } : WindowControl).Behind where
  generation := h.generation
  view d hd := (h.view d hd).trans (Nat.le_succ _)
  binding d hd same := by
    have older := h.view d hd
    have newer : d.viewGeneration = c.status.viewGeneration + 1 := same
    omega

theorem Behind.published (h : c.Behind) : ({ c with published := c.status :: c.published } : WindowControl).Behind where
  generation d hd := by
    rcases List.mem_cons.mp hd with rfl | hd
    · exact le_rfl
    · exact h.generation d hd
  view d hd := by
    rcases List.mem_cons.mp hd with rfl | hd
    · exact le_rfl
    · exact h.view d hd
  binding d hd same := by
    rcases List.mem_cons.mp hd with rfl | hd
    · rfl
    · exact h.binding d hd same

theorem Behind.counted (h : c.Behind) (writes : Nat) : ({ c with writes } : WindowControl).Behind :=
  ⟨h.generation, h.view, h.binding⟩

theorem Agreeing.published (h : c.Agreeing) :
    ({ c with published := c.status :: c.published } : WindowControl).Agreeing := by
  intro d hd same
  rcases List.mem_cons.mp hd with rfl | hd
  · exact ⟨rfl, rfl, rfl⟩
  · exact h d hd same

structure Accepts (c : WindowControl) (command : Document) (a : Action) (n : ℤ) (id : String) : Prop where
  generation : command.get "generation" = .int c.status.generation
  activeId : command.get "active_session_id" = c.status.activeId
  commandToken : command.get "command_token" = .str c.status.commandToken
  sequence : command.get "sequence" = .int n
  later : c.status.lastSequence < n
  nonce : command.get "nonce" = .str id
  fresh : id ∉ c.nonces
  action : WindowControl.action command = some a
  offered : c.status.can a = true

theorem accepts_of_none {command : Document} (h : c.rejectReason command = none) :
    ∃ action sequence nonce, c.Accepts command action sequence nonce := by
  unfold rejectReason at h
  split at h
  · cases h
  split at h
  · cases h
  split at h
  · cases h
  rename_i hgeneration
  split at h
  · cases h
  rename_i hactive
  split at h
  · cases h
  rename_i htoken
  split at h
  case h_2 => cases h
  rename_i sequence hsequence
  split at h
  · cases h
  rename_i hlater
  split at h
  case h_2 => cases h
  rename_i nonce hnonce
  split at h
  · cases h
  split at h
  · cases h
  rename_i hfresh
  split at h
  case h_2 => cases h
  rename_i text htext
  split at h
  case h_2 => cases h
  rename_i action haction
  split at h
  case isFalse => cases h
  rename_i hoffered
  refine ⟨action, sequence, nonce, not_not.mp hgeneration, not_not.mp hactive, not_not.mp htoken, hsequence,
    (not_not.mp hlater).1, hnonce, hfresh, ?_, hoffered⟩
  unfold WindowControl.action
  rw [htext]
  exact haction

structure Acknowledges (s s' : Status) : Prop where
  generation : s'.generation = s.generation
  state : s'.state = s.state
  viewGeneration : s'.viewGeneration = s.viewGeneration
  activeSession : s'.activeSession = s.activeSession
  can : ∀ action, s'.can action = s.can action
  owner : s'.owner = s.owner

theorem answered_published (c : WindowControl) (command : Document) (token : String) :
    (c.answered command token).published = c.published := by
  unfold answered
  dsimp only
  split <;> rfl

theorem answered_acknowledges (c : WindowControl) (command : Document) (token : String) :
    Acknowledges c.status (c.answered command token).status := by
  unfold answered
  dsimp only
  split
  · exact ⟨rfl, rfl, rfl, rfl, fun action => by cases action <;> rfl, rfl⟩
  · exact ⟨rfl, rfl, rfl, rfl, fun action => by cases action <;> rfl, rfl⟩

theorem Agreeing.answered (h : c.Agreeing) (command : Document) (token : String) :
    (c.answered command token).Agreeing := by
  have kept := answered_acknowledges c command token
  intro d hd same
  rw [answered_published] at hd
  have agrees := h d hd (same.trans kept.generation)
  exact ⟨agrees.state.trans kept.state.symm, agrees.viewGeneration.trans kept.viewGeneration.symm,
    agrees.activeSession.trans kept.activeSession.symm⟩

theorem Behind.answered (h : c.Behind) (command : Document) (token : String) : (c.answered command token).Behind := by
  have kept := answered_acknowledges c command token
  have published := answered_published c command token
  constructor
  · intro d hd
    rw [kept.generation]
    exact h.generation d (published ▸ hd)
  · intro d hd
    rw [kept.viewGeneration]
    exact h.view d (published ▸ hd)
  · intro d hd same
    rw [kept.activeSession]
    exact h.binding d (published ▸ hd) (same.trans kept.viewGeneration)

theorem Moved.behind (h : Moved C file token c c') (before : c.Behind) : c'.Behind := by
  cases h with
  | transition values keeps => exact before.transition keeps
  | noted values keeps => exact before.noted keeps
  | bound handle => exact before.bound _
  | answered command => exact before.answered command token
  | counted => exact before.counted _
  | published => exact before.published

theorem write_goes {F : Unit → WindowControl → Prop} {E : String → WindowControl → Prop}
    (agreeing : C → c.Agreeing)
    (written : F () { c with writes := c.writes + 1, published := c.status :: c.published })
    (failed : ∀ e, E e { c with writes := c.writes + 1 }) :
    write.Goes (guarantee C file token) F E c := by
  unfold write
  apply Goes.get_bind
  apply Goes.bind (F := fun _ c' => c' = { c with writes := c.writes + 1 })
    (.modify (.single Moved.counted) trivial rfl)
  rintro _ _ rfl
  cases c.disk c.writes c.status with
  | some e => exact .raise (failed e)
  | none => exact .modify (.single (Moved.published agreeing)) trivial written

structure Settled (status : Status) (c' : WindowControl) : Prop where
  status : c'.status = status
  agreeing : c'.Agreeing
  behind : c'.Behind

theorem transition_goes (before : c.Behind) (keeps : Status.Keeps values) :
    (publish true values).Goes (guarantee C file token) (fun _ => Settled (values (bump true c.status)))
      (fun _ => Settled (values (bump true c.status))) c := by
  unfold publish
  apply Goes.bind (F := fun _ c' => c' = { c with status := values (bump true c.status) })
    (.modify (.single (Moved.transition values keeps)) trivial rfl)
  rintro _ _ rfl
  have agreeing := before.bumped keeps
  have behind := before.transition keeps
  exact write_goes (fun _ => agreeing) ⟨rfl, agreeing.published, behind.published.counted _⟩
    fun _ => ⟨rfl, agreeing, behind.counted _⟩

theorem bind_goes {E : String → WindowControl → Prop} (handle : Option Handle) :
    (bind handle).Goes (guarantee C file token) (fun _ c' => c' = { c with status := { c.status with
      viewGeneration := c.status.viewGeneration + 1, activeSession := handle.map Handle.session } }) E c :=
  .modify (.single (Moved.bound handle)) trivial rfl

structure Noted (c : WindowControl) (status : Status) (c' : WindowControl) : Prop where
  status : c'.status = status
  agreeing : c.Agreeing → c'.Agreeing
  behind : c.Behind → c'.Behind

theorem noted_goes (agreeing : C → c.Agreeing) (keeps : Status.Keeps values) (state : ∀ s, (values s).state = s.state) :
    (publish false values).Goes (guarantee C file token) (fun _ => c.Noted (values c.status))
      (fun _ => c.Noted (values c.status)) c := by
  unfold publish
  apply Goes.bind (F := fun _ c' => c' = { c with status := values c.status })
    (.modify (.single (Moved.noted values keeps state)) trivial rfl)
  rintro _ _ rfl
  have same (h : c.Agreeing) : ({ c with status := values c.status } : WindowControl).Agreeing :=
    h.of_status _ ⟨state _, keeps.viewGeneration _, keeps.activeSession _⟩ (keeps.generation _)
  have after (h : c.Behind) : ({ c with status := values c.status } : WindowControl).Behind := h.noted keeps
  exact write_goes (fun h => same (agreeing h))
    ⟨rfl, fun h => (same h).published, fun h => (after h).published.counted _⟩
    fun _ => ⟨rfl, same, fun h => (after h).counted _⟩

/-- What `receive` leaves: an action it returns was offered. -/
structure Received (c : WindowControl) (received : Option Action) (c' : WindowControl) : Prop where
  acknowledges : Acknowledges c.status c'.status
  agreeing : c'.Agreeing
  behind : c.Behind → c'.Behind
  offered : ∀ action, received = some action → c.status.can action = true

theorem receive_goes (agreeing : c.Agreeing) :
    (receive file token).Goes (guarantee C file token) (c.Received) (fun _ => c.Received none) c := by
  have idle : c.Received none c :=
    ⟨⟨rfl, rfl, rfl, rfl, fun _ => rfl, rfl⟩, agreeing, id, fun _ h => nomatch h⟩
  unfold receive
  cases file with
  | absent => exact .pure idle
  | unreadable e => exact .raise idle
  | document command =>
    apply Goes.get_bind
    apply Goes.ite
    · intro _
      exact .pure idle
    intro fresh
    apply Goes.bind (F := fun _ c' => c' = c.answered command token)
      (.modify (.single (Moved.answered command rfl fresh)) trivial rfl)
    rintro _ _ rfl
    have kept := answered_acknowledges c command token
    have agreeing' := agreeing.answered command token
    have answers {c' : WindowControl} (noted : (c.answered command token).Noted (c.answered command token).status c')
        (received : Option Action) (offered : ∀ action, received = some action → c.status.can action = true) :
        c.Received received c' :=
      ⟨noted.status ▸ kept, noted.agreeing agreeing', fun h => noted.behind (h.answered command token), offered⟩
    apply Goes.bind (F := fun _ => (c.answered command token).Noted (c.answered command token).status)
    · apply (noted_goes (fun _ => agreeing') ⟨fun _ => rfl, fun _ => rfl, fun _ => rfl, fun _ => rfl,
        fun _ => rfl, fun _ => rfl, fun _ => rfl⟩ fun _ => rfl).weaken (fun _ _ h => h)
      exact fun _ _ noted => answers noted none fun _ h => nomatch h
    rintro _ c' noted
    apply Goes.pure
    apply answers noted
    intro action received
    split at received
    · rename_i accepted
      obtain ⟨_, _, _, accepts⟩ := accepts_of_none accepted
      rw [accepts.action] at received
      cases received
      exact accepts.offered
    · cases received

end WindowControl
end Smartwheel.Interactive
