import Smartwheel.Interactive.Rounds
import Smartwheel.Interactive.Panel

/-! A window's coordinator and its panel. They share two files, each replaced as a whole, so either side may miss what
the other wrote in between. -/
namespace Smartwheel.Interactive
open Effect

structure Exchange where
  machine : Machine
  panel : Panel
  /-- `command.json`. -/
  file : Option Document
  /-- The command tokens and the nonces drawn so far. -/
  tokens : List String
  nonces : List String

inductive Turn where
  | coordinator (e : Event)
  | panel (e : PanelEvent)
  | reopen

namespace Exchange

def published (x : Exchange) : List Status := x.machine.me.control.published

def accepted (x : Exchange) : List (Document × Status) := x.machine.me.control.accepted

/-- What either side may find and draw. A segment of the coordinator publishes nothing before it looks for a command,
so that a request written in the middle of one is as good as written before or after it. -/
def Allows (x : Exchange) : Turn → Prop
  | .coordinator (.advance a) =>
    match a.command with
    | .absent => x.file = none
    | .unreadable _ => True
    | .document d => x.file = some d ∧ a.token ∉ x.tokens
  | .coordinator _ => True
  | .panel (.poll read _) => read ∈ x.published
  | .panel (.click read _ nonce _) => read ∈ x.published ∧ nonce ∉ x.nonces
  | .panel (.commit _) => True
  | .reopen => True

def next (x : Exchange) : Turn → Exchange
  | .coordinator e => { x with
      machine := x.machine.next e
      tokens := match e with
        | .advance a => a.token :: x.tokens
        | _ => x.tokens }
  | .panel e => { x with
      panel := x.panel.next e
      file := match e with
        | .commit error => (x.panel.commit error).2.or x.file
        | _ => x.file
      nonces := match e with
        | .click _ _ nonce _ => nonce :: x.nonces
        | _ => x.nonces }
  | .reopen => { x with
      panel := { Panel.new x.panel.owner with clicks := x.panel.clicks, abandoned := x.panel.abandoned } }

def opened (request : Request) (owner : Owner) (token : String) (disk : Nat → Status → Option String) :
    Option Exchange :=
  (Machine.open request owner token disk).map fun machine => ⟨machine, .new owner, none, [token], []⟩

/-- Any interleaving of the two sides. -/
abbrev Run : Exchange → Exchange → Prop := Path fun x x' => ∃ t, x.Allows t ∧ x.next t = x'

end Exchange

structure Carries (owner : Owner) (entry : Document × Status) (click : Click) : Prop where
  document : entry.1 = click.document owner
  generation : entry.2.generation = click.status.generation
  activeId : entry.2.activeId = click.status.activeId
  commandToken : entry.2.commandToken = click.status.commandToken
  offered : entry.2.can click.action = true

namespace Click
variable (c : Click) (owner : Owner)

@[simp] theorem get_generation : (c.document owner).get "generation" = .int c.status.generation := rfl
@[simp] theorem get_nonce : (c.document owner).get "nonce" = .str c.nonce := rfl
@[simp] theorem get_action : (c.document owner).get "action" = .str c.action.text := rfl

theorem action_document : WindowControl.action (c.document owner) = some c.action := by
  unfold WindowControl.action
  rw [get_action]
  cases c.action <;> rfl

def Dead (c : Click) (s : Status) : Prop :=
  c.status.generation < s.generation ∨ c.status.lastSequence < s.lastSequence

end Click

namespace WindowControl
variable {c c' : WindowControl} {C : Prop} {file : CommandFile} {token : String} {tokens : List String}

structure Ordered (c : WindowControl) : Prop where
  sequence : ∀ entry ∈ c.accepted, ∃ n, entry.1.get "sequence" = .int n ∧ n ≤ c.status.lastSequence
  sequences : c.accepted.Pairwise fun newer older =>
    ∃ m n, newer.1.get "sequence" = .int m ∧ older.1.get "sequence" = .int n ∧ n < m
  nonce : ∀ entry ∈ c.accepted, ∃ id ∈ c.nonces, entry.1.get "nonce" = .str id
  nonces : (c.accepted.map fun entry => entry.1.get "nonce").Nodup

structure Numbered (tokens : List String) (c : WindowControl) : Prop where
  drawn : ∀ d ∈ c.status :: c.published, d.commandToken ∈ tokens
  behind : ∀ d ∈ c.published, d.lastSequence ≤ c.status.lastSequence
  same : ∀ d ∈ c.status :: c.published, ∀ d' ∈ c.status :: c.published,
    d.commandToken = d'.commandToken ↔ d.lastSequence = d'.lastSequence

structure Unanswered (c c' : WindowControl) : Prop where
  commandToken : c'.status.commandToken = c.status.commandToken
  lastSequence : c'.status.lastSequence = c.status.lastSequence
  lastDocument : c'.lastDocument = c.lastDocument
  nonces : c'.nonces = c.nonces
  accepted : c'.accepted = c.accepted

structure Took (command : Document) (token : String) (n : ℤ) (id : String) (c c' : WindowControl) : Prop where
  commandToken : c'.status.commandToken = token
  lastSequence : c'.status.lastSequence = n
  nonces : c'.nonces = id :: c.nonces
  accepted : c'.accepted = (command, c.status) :: c.accepted
  published : c'.published = c.published

inductive Answered (file : CommandFile) (token : String) (c c' : WindowControl) : Prop
  | unanswered (same : c.Unanswered c')
  | rejected (command : Document) (found : file = .document command) (seen : c'.lastDocument = some command)
      (same : ({ c with lastDocument := some command } : WindowControl).Unanswered c')
  | accepted (command : Document) (action : Action) (n : ℤ) (id : String) (found : file = .document command)
      (fresh : c.lastDocument ≠ some command) (seen : c'.lastDocument = some command)
      (accepts : c.Accepts command action n id) (took : Took command token n id c c')

theorem Moved.answered_cases (h : Moved C file token c c') : Answered file token c c' := by
  cases h with
  | transition values keeps =>
    exact .unanswered ⟨keeps.commandToken _, keeps.lastSequence _, rfl, rfl, rfl⟩
  | noted values keeps state => exact .unanswered ⟨keeps.commandToken _, keeps.lastSequence _, rfl, rfl, rfl⟩
  | bound handle | counted | published agreeing => exact .unanswered ⟨rfl, rfl, rfl, rfl, rfl⟩
  | answered command found fresh =>
    unfold WindowControl.answered
    dsimp only
    split
    · rename_i accepts
      obtain ⟨action, n, id, accepts⟩ := accepts_of_none accepts
      refine .accepted command action n id found fresh rfl accepts ⟨rfl, ?_, ?_, rfl, rfl⟩
      · simp only [taken, accepts.sequence]
      · simp only [taken, accepts.nonce]
    · exact .rejected command found rfl ⟨rfl, rfl, rfl, rfl, rfl⟩

theorem Moved.published_cases (h : Moved C file token c c') :
    c'.published = c.published ∨ c'.status = c.status ∧ c'.published = c.status :: c.published := by
  cases h with
  | transition | noted | bound | counted => exact .inl rfl
  | answered command => exact .inl (answered_published c command token)
  | published => exact .inr ⟨rfl, rfl⟩

theorem Moved.published_mono (h : Moved C file token c c') {d : Status} (hd : d ∈ c.published) : d ∈ c'.published := by
  rcases h.published_cases with same | ⟨-, grown⟩
  · exact same ▸ hd
  · exact grown ▸ List.mem_cons_of_mem _ hd

theorem Moved.generation_mono (h : Moved C file token c c') : c.status.generation ≤ c'.status.generation := by
  cases h with
  | transition values keeps =>
    change _ ≤ (values (bump true c.status)).generation
    rw [keeps.generation]
    exact Nat.le_succ _
  | noted values keeps state => exact (keeps.generation _).ge
  | bound | counted | published => exact le_rfl
  | answered command => exact (answered_acknowledges c command token).generation.ge

theorem Answered.lastSequence_mono (h : Answered file token c c') : c.status.lastSequence ≤ c'.status.lastSequence := by
  cases h with
  | unanswered same => exact same.lastSequence.ge
  | rejected _ _ _ same => exact same.lastSequence.ge
  | accepted _ _ _ _ _ _ _ accepts took =>
    rw [took.lastSequence]
    exact accepts.later.le

theorem Ordered.same {d : WindowControl} (o : c.Ordered) (same : c.Unanswered d) : d.Ordered where
  sequence := by
    rw [same.accepted, same.lastSequence]
    exact o.sequence
  sequences := by
    rw [same.accepted]
    exact o.sequences
  nonce := by
    rw [same.accepted, same.nonces]
    exact o.nonce
  nonces := by
    rw [same.accepted]
    exact o.nonces

theorem Answered.ordered (h : Answered file token c c') (o : c.Ordered) : c'.Ordered := by
  cases h with
  | unanswered same => exact o.same same
  | rejected command _ _ same => exact Ordered.same (c := { c with lastDocument := some command }) ⟨o.1, o.2, o.3, o.4⟩ same
  | accepted command action n id found fresh seen accepts took =>
    constructor
    · rw [took.accepted, took.lastSequence]
      intro entry he
      rcases List.mem_cons.mp he with rfl | he
      · exact ⟨n, accepts.sequence, le_rfl⟩
      · obtain ⟨m, hm, below⟩ := o.sequence entry he
        exact ⟨m, hm, below.trans accepts.later.le⟩
    · rw [took.accepted]
      refine List.pairwise_cons.mpr ⟨fun entry he => ?_, o.sequences⟩
      obtain ⟨m, hm, below⟩ := o.sequence entry he
      exact ⟨n, m, accepts.sequence, hm, below.trans_lt accepts.later⟩
    · rw [took.accepted, took.nonces]
      intro entry he
      rcases List.mem_cons.mp he with rfl | he
      · exact ⟨id, List.mem_cons_self .., accepts.nonce⟩
      · obtain ⟨other, known, hn⟩ := o.nonce entry he
        exact ⟨other, List.mem_cons_of_mem _ known, hn⟩
    · rw [took.accepted]
      refine List.nodup_cons.mpr ⟨fun used => ?_, o.nonces⟩
      obtain ⟨entry, he, hn⟩ := List.mem_map.mp used
      obtain ⟨other, known, hother⟩ := o.nonce entry he
      have equal : id = other := Json.str.inj (accepts.nonce.symm.trans (hn.symm.trans hother))
      exact accepts.fresh (equal ▸ known)

theorem Numbered.of_keys (k : Numbered tokens c) (last : c'.status.lastSequence = c.status.lastSequence)
    (keys : ∀ d ∈ c'.status :: c'.published, ∃ e ∈ c.status :: c.published,
      d.commandToken = e.commandToken ∧ d.lastSequence = e.lastSequence) : Numbered tokens c' where
  drawn d hd := by
    obtain ⟨e, he, equal, -⟩ := keys d hd
    rw [equal]
    exact k.drawn e he
  behind d hd := by
    obtain ⟨e, he, -, equal⟩ := keys d (List.mem_cons_of_mem _ hd)
    rw [equal, last]
    rcases List.mem_cons.mp he with rfl | he
    · exact le_rfl
    · exact k.behind e he
  same d hd d' hd' := by
    obtain ⟨e, he, token, sequence⟩ := keys d hd
    obtain ⟨e', he', token', sequence'⟩ := keys d' hd'
    rw [token, token', sequence, sequence']
    exact k.same e he e' he'

theorem Numbered.took {command : Document} {n : ℤ} {id : String} (k : Numbered tokens c) (drawn : token ∈ tokens)
    (fresh : ∀ d ∈ c.status :: c.published, d.commandToken ≠ token) (later : c.status.lastSequence < n)
    (took : Took command token n id c c') : Numbered tokens c' := by
  have older {d : Status} (hd : d ∈ c'.published) : d.commandToken ≠ token ∧ d.lastSequence < n := by
    rw [took.published] at hd
    exact ⟨fresh d (List.mem_cons_of_mem _ hd), (k.behind d hd).trans_lt later⟩
  refine ⟨fun d hd => ?_, fun d hd => ?_, fun d hd d' hd' => ?_⟩
  · rcases List.mem_cons.mp hd with rfl | hd
    · rw [took.commandToken]
      exact drawn
    · exact k.drawn d (List.mem_cons_of_mem _ (took.published ▸ hd))
  · rw [took.lastSequence]
    exact (older hd).2.le
  · rcases List.mem_cons.mp hd with rfl | hd
    · rcases List.mem_cons.mp hd' with rfl | hd'
      · exact iff_of_true rfl rfl
      · rw [took.commandToken, took.lastSequence]
        exact iff_of_false (older hd').1.symm (older hd').2.ne'
    · rcases List.mem_cons.mp hd' with rfl | hd'
      · rw [took.commandToken, took.lastSequence]
        exact iff_of_false (older hd).1 (older hd).2.ne
      · exact k.same d (List.mem_cons_of_mem _ (took.published ▸ hd)) d' (List.mem_cons_of_mem _ (took.published ▸ hd'))

def Fresh (file : CommandFile) (token : String) (c : WindowControl) : Prop :=
  ∀ command, file = .document command →
    c.lastDocument = some command ∨ ∀ d ∈ c.status :: c.published, d.commandToken ≠ token

theorem Moved.keys (h : Moved C file token c c') (token' : c'.status.commandToken = c.status.commandToken)
    (sequence : c'.status.lastSequence = c.status.lastSequence) :
    ∀ d ∈ c'.status :: c'.published, ∃ e ∈ c.status :: c.published,
      d.commandToken = e.commandToken ∧ d.lastSequence = e.lastSequence := by
  intro d hd
  rcases List.mem_cons.mp hd with rfl | hd
  · exact ⟨c.status, List.mem_cons_self .., token', sequence⟩
  · rcases h.published_cases with same | ⟨-, grown⟩
    · exact ⟨d, List.mem_cons_of_mem _ (same ▸ hd), rfl, rfl⟩
    · exact ⟨d, grown ▸ hd, rfl, rfl⟩

theorem Moved.fresh (h : Moved C file token c c') (fresh : Fresh file token c) : Fresh file token c' := by
  intro command found
  rcases h.answered_cases with same | ⟨other, found', seen, -⟩ | ⟨other, -, -, -, found', -, seen, -, -⟩
  · rcases fresh command found with seen | unseen
    · exact .inl (same.lastDocument.trans seen)
    · refine .inr fun d hd => ?_
      obtain ⟨e, he, equal, -⟩ := h.keys same.commandToken same.lastSequence d hd
      rw [equal]
      exact unseen e he
  · cases found.symm.trans found'
    exact .inl seen
  · cases found.symm.trans found'
    exact .inl seen

theorem Moved.numbered (h : Moved C file token c c') (k : Numbered tokens c)
    (drawn : ∀ command, file = .document command → token ∈ tokens) (fresh : Fresh file token c) :
    Numbered tokens c' := by
  rcases h.answered_cases with same | ⟨_, -, -, same⟩ | ⟨command, _, n, id, found, unseen, _, accepts, took⟩
  · exact k.of_keys same.lastSequence (h.keys same.commandToken same.lastSequence)
  · exact k.of_keys same.lastSequence (h.keys same.commandToken same.lastSequence)
  · exact k.took (drawn command found) ((fresh command found).resolve_left unseen) accepts.later took

variable {owner : Owner} {clicks : List Click}

theorem Accepts.carries {command : Document} {action : Action} {n : ℤ} {id : String} {click : Click}
    (accepts : c.Accepts command action n id) (requested : command = click.document owner)
    (numbered : Numbered tokens c) (polled : click.status ∈ c.published) :
    Carries owner (command, c.status) click ∧ ¬click.Dead c.status := by
  obtain ⟨hgeneration, hactive, htoken, -, -, -, -, haction, hoffered⟩ := accepts
  subst requested
  have generation : click.status.generation = c.status.generation := by
    rw [Click.get_generation] at hgeneration
    exact_mod_cast Json.int.inj hgeneration
  have activeId : click.status.activeId = c.status.activeId := hactive
  have commandToken : click.status.commandToken = c.status.commandToken := Json.str.inj htoken
  have lastSequence : click.status.lastSequence = c.status.lastSequence :=
    (numbered.same _ (List.mem_cons_of_mem _ polled) _ (List.mem_cons_self ..)).mp commandToken
  rw [Click.action_document] at haction
  cases haction
  refine ⟨⟨rfl, generation.symm, activeId.symm, commandToken.symm, hoffered⟩, ?_⟩
  rintro (older | older)
  · omega
  · omega

/-- What a segment of the coordinator makes of the control `c₀` it found, with these requests made. -/
structure Carried (owner : Owner) (clicks : List Click) (tokens : List String) (file : CommandFile) (token : String)
    (c₀ c : WindowControl) : Prop where
  numbered : Numbered tokens c
  fresh : Fresh file token c
  ordered : c.Ordered
  published : ∀ d ∈ c₀.published, d ∈ c.published
  generation : c₀.status.generation ≤ c.status.generation
  lastSequence : c₀.status.lastSequence ≤ c.status.lastSequence
  accepted : ∀ entry ∈ c.accepted, entry ∈ c₀.accepted ∨
    ∃ click ∈ clicks, Carries owner entry click ∧ ¬click.Dead c₀.status

theorem Moved.carried {c₀ : WindowControl} (h : Moved C file token c c')
    (drawn : ∀ command, file = .document command → token ∈ tokens)
    (requested : ∀ command, file = .document command → ∃ click ∈ clicks, command = click.document owner)
    (polled : ∀ click ∈ clicks, click.status ∈ c₀.published) (k : Carried owner clicks tokens file token c₀ c) :
    Carried owner clicks tokens file token c₀ c' where
  numbered := h.numbered k.numbered drawn k.fresh
  fresh := h.fresh k.fresh
  ordered := h.answered_cases.ordered k.ordered
  published d hd := h.published_mono (k.published d hd)
  generation := k.generation.trans h.generation_mono
  lastSequence := k.lastSequence.trans h.answered_cases.lastSequence_mono
  accepted := by
    rcases h.answered_cases with same | ⟨_, -, -, same⟩ | ⟨command, _, _, _, found, -, -, accepts, took⟩
    · rw [same.accepted]
      exact k.accepted
    · rw [same.accepted]
      exact k.accepted
    · rw [took.accepted]
      intro entry he
      rcases List.mem_cons.mp he with rfl | he
      · obtain ⟨click, hclick, equal⟩ := requested command found
        obtain ⟨carries, alive⟩ :=
          accepts.carries equal k.numbered (k.published _ (polled click hclick))
        refine .inr ⟨click, hclick, carries, ?_⟩
        rintro (older | older)
        · exact alive (.inl (older.trans_le k.generation))
        · exact alive (.inr (older.trans_le k.lastSequence))
      · exact k.accepted entry he

end WindowControl
end Smartwheel.Interactive
