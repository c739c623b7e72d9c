import Smartwheel.Interactive.Exchange
import Smartwheel.Interactive.Documents

/-! The command protocol over any interleaving: each request is accepted at most once, on the status it was made on,
and one that its panel gave up is not accepted any more. -/
namespace Smartwheel.Interactive
open Effect

namespace Panel
variable {p p' : Panel} {c c' : WindowControl} {tokens nonces : List String} {read : Status} {nonce : String}

structure Lawful (c : WindowControl) (nonces : List String) (p : Panel) : Prop where
  status : ∀ s ∈ p.status, s ∈ c.published
  sending : ∀ click ∈ p.sending, click ∈ p.clicks
  polled : ∀ click ∈ p.clicks, click.status ∈ c.published ∧ offer click.status = some click.action
  drawn : ∀ click ∈ p.clicks, click.nonce ∈ nonces
  distinct : (p.clicks.map Click.nonce).Nodup
  pending : ∀ nonce ∈ p.pendingNonce, ∃ s ∈ p.status, ∀ click ∈ p.clicks, click.nonce = nonce →
    s.generation = click.status.generation ∧ s.lastSequence = click.status.lastSequence
  known : ∀ nonce ∈ p.pendingNonce, nonce ∈ nonces
  dead : ∀ nonce ∈ p.abandoned, nonce ∈ nonces ∧ ∀ click ∈ p.clicks, click.nonce = nonce → click.Dead c.status

theorem Lawful.grown (k : p.Lawful c nonces) (published : ∀ d ∈ c.published, d ∈ c'.published)
    (generation : c.status.generation ≤ c'.status.generation)
    (lastSequence : c.status.lastSequence ≤ c'.status.lastSequence) : p.Lawful c' nonces where
  status s hs := published s (k.status s hs)
  sending := k.sending
  polled click h := ⟨published _ (k.polled click h).1, (k.polled click h).2⟩
  drawn := k.drawn
  distinct := k.distinct
  pending := k.pending
  known := k.known
  dead nonce h := by
    obtain ⟨known, dead⟩ := k.dead nonce h
    refine ⟨known, fun click hc named => ?_⟩
    rcases dead click hc named with older | older
    · exact .inl (older.trans_le generation)
    · exact .inr (older.trans_le lastSequence)

theorem Lawful.current (k : p.Lawful c nonces) (numbered : WindowControl.Numbered tokens c) (among : read ∈ c.published)
    (current : p.superseded read = false) (pending : p.pendingNonce = some nonce) {click : Click}
    (requested : click ∈ p.clicks) (named : click.nonce = nonce) :
    read.generation = click.status.generation ∧ read.lastSequence = click.status.lastSequence := by
  obtain ⟨before, hs, same⟩ := k.pending nonce pending
  obtain ⟨generation, lastSequence⟩ := same click requested named
  unfold Panel.superseded at current
  rw [show p.status = some before from hs] at current
  have equal : read.generation = before.generation ∧ read.commandToken = before.commandToken ∧
      read.activeSession = before.activeSession := by simpa using current
  have sequence : read.lastSequence = before.lastSequence :=
    (numbered.same _ (List.mem_cons_of_mem _ among) _ (List.mem_cons_of_mem _ (k.status before hs))).mp equal.2.1
  exact ⟨equal.1.trans generation, sequence.trans lastSequence⟩

theorem Lawful.superseded (k : p.Lawful c nonces) (behind : c.Behind) (numbered : WindowControl.Numbered tokens c)
    (among : read ∈ c.published) (checked : p.check read = .ok ()) (moved : p.superseded read = true)
    (pending : p.pendingNonce = some nonce) {click : Click} (requested : click ∈ p.clicks)
    (named : click.nonce = nonce) : click.Dead c.status := by
  obtain ⟨before, hs, same⟩ := k.pending nonce pending
  obtain ⟨generation, lastSequence⟩ := same click requested named
  unfold Panel.superseded at moved
  rw [show p.status = some before from hs] at moved
  have differs : read.generation ≠ before.generation ∨ read.commandToken ≠ before.commandToken ∨
      read.activeSession ≠ before.activeSession := by simpa using moved
  have earlier := k.status before hs
  have succeeds := check_ok checked hs
  have below := behind.generation read among
  have later := numbered.behind read among
  have newer : before.generation ≠ read.generation → click.Dead c.status := by
    intro differ
    have forwards := succeeds.generation
    exact .inl (by omega)
  rcases differs with differ | differ | differ
  · exact newer differ.symm
  · have unequal : read.lastSequence ≠ before.lastSequence := fun equal => differ
      ((numbered.same _ (List.mem_cons_of_mem _ among) _ (List.mem_cons_of_mem _ earlier)).mpr equal)
    have forwards := succeeds.lastSequence
    exact .inr (by omega)
  · exact newer fun same => differ (succeeds.activeSession same.symm)

theorem Lawful.same (k : p.Lawful c nonces) (status : p'.status = p.status) (sending : ∀ click ∈ p'.sending, click ∈ p.sending)
    (clicks : p'.clicks = p.clicks) (pendingNonce : p'.pendingNonce = p.pendingNonce)
    (abandoned : p'.abandoned = p.abandoned) : p'.Lawful c nonces where
  status := status ▸ k.status
  sending click h := clicks ▸ k.sending click (sending click h)
  polled := clicks ▸ k.polled
  drawn := clicks ▸ k.drawn
  distinct := clicks ▸ k.distinct
  pending := by
    rw [pendingNonce, clicks, status]
    exact k.pending
  known := pendingNonce ▸ k.known
  dead := by
    rw [abandoned, clicks]
    exact k.dead

theorem Lawful.polls (k : p.Lawful c nonces) (behind : c.Behind) (numbered : WindowControl.Numbered tokens c)
    (among : read ∈ c.published) (h : p.Polled read p') : p'.Lawful c nonces := by
  obtain ⟨⟨owner, sending, clicks⟩, unseen | seen, -, -⟩ := h
  · exact k.same unseen.status (fun click h => sending ▸ h) clicks unseen.pendingNonce unseen.abandoned
  -- What a document makes of the request; the other fields are carried along.
  have taken (pending : ∀ nonce ∈ p'.pendingNonce, p.pendingNonce = some nonce ∧ p.superseded read = false)
      (dead : ∀ nonce ∈ p'.abandoned, nonce ∈ nonces ∧ ∀ click ∈ p.clicks, click.nonce = nonce → click.Dead c.status) :
      p'.Lawful c nonces := by
    constructor
    · rw [seen.status]
      rintro s ⟨⟩
      exact among
    · rw [sending, clicks]
      exact k.sending
    · exact clicks ▸ k.polled
    · exact clicks ▸ k.drawn
    · exact clicks ▸ k.distinct
    · intro nonce hn
      obtain ⟨before, current⟩ := pending nonce hn
      refine ⟨read, seen.status, fun click hc named => ?_⟩
      exact k.current numbered among current before (clicks ▸ hc) named
    · intro nonce hn
      exact k.known nonce (pending nonce hn).1
    · exact clicks ▸ dead
  cases seen.pending with
  | still same kept current =>
    apply taken
    · intro nonce hn
      have before : p.pendingNonce = some nonce := same ▸ hn
      exact ⟨before, current (by rw [before]; exact Option.some_ne_none _)⟩
    · exact kept ▸ k.dead
  | acknowledged cleared kept =>
    apply taken
    · intro nonce hn
      rw [cleared] at hn
      cases hn
    · exact kept ▸ k.dead
  | superseded nonce pending moved cleared dropped =>
    apply taken
    · intro nonce hn
      rw [cleared] at hn
      cases hn
    · rw [dropped]
      intro other ho
      rcases List.mem_cons.mp ho with rfl | ho
      · refine ⟨k.known other pending, fun click hc named => ?_⟩
        exact k.superseded behind numbered among seen.checked moved pending hc named
      · exact k.dead other ho

theorem Lawful.refuses (k : p.Lawful c nonces) (h : p.Refused p') : p'.Lawful c nonces := by
  obtain ⟨fault, -⟩ := h
  exact k.same rfl (fun _ h => h) rfl rfl rfl

theorem Lawful.draws (k : p.Lawful c nonces) : p.Lawful c (nonce :: nonces) where
  status := k.status
  sending := k.sending
  polled := k.polled
  drawn click h := List.mem_cons_of_mem _ (k.drawn click h)
  distinct := k.distinct
  pending := k.pending
  known n h := List.mem_cons_of_mem _ (k.known n h)
  dead n h := ⟨List.mem_cons_of_mem _ (k.dead n h).1, (k.dead n h).2⟩

theorem Lawful.clicks (k : p.Lawful c nonces) (fresh : nonce ∉ nonces) (among : read ∈ c.published)
    (h : p.Clicked read nonce p') : p'.Lawful c (nonce :: nonces) := by
  obtain ⟨click, rfl, offered, rfl, free, polled⟩ := h
  have older {other : Click} (h : other ∈ p.clicks) : other.nonce ≠ click.nonce :=
    fun same => fresh (same ▸ k.drawn other h)
  constructor
  · exact k.status
  · rintro _ ⟨⟩
    exact List.mem_cons_self ..
  · intro other ho
    rcases List.mem_cons.mp ho with rfl | ho
    · exact ⟨among, offered⟩
    · exact k.polled other ho
  · intro other ho
    rcases List.mem_cons.mp ho with rfl | ho
    · exact List.mem_cons_self ..
    · exact List.mem_cons_of_mem _ (k.drawn other ho)
  · refine List.nodup_cons.mpr ⟨fun used => ?_, k.distinct⟩
    obtain ⟨other, ho, same⟩ := List.mem_map.mp used
    exact older ho same
  · rintro _ ⟨⟩
    refine ⟨click.status, polled, fun other ho named => ?_⟩
    rcases List.mem_cons.mp ho with rfl | ho
    · exact ⟨rfl, rfl⟩
    · exact absurd named (older ho)
  · rintro _ ⟨⟩
    exact List.mem_cons_self ..
  · intro n hn
    obtain ⟨known, dead⟩ := k.dead n hn
    refine ⟨List.mem_cons_of_mem _ known, fun other ho named => ?_⟩
    rcases List.mem_cons.mp ho with rfl | ho
    · exact absurd (named ▸ known) fresh
    · exact dead other ho named

theorem Polled.abandoned (h : p.Polled read p') (given : nonce ∈ p.abandoned) : nonce ∈ p'.abandoned := by
  rcases h.seen with unseen | seen
  · exact unseen.abandoned ▸ given
  · cases seen.pending with
    | still same kept current => exact kept ▸ given
    | acknowledged cleared kept => exact kept ▸ given
    | superseded other pending moved cleared dropped => exact dropped ▸ List.mem_cons_of_mem _ given

theorem Requested.abandoned (h : p.Requested read nonce p') : p'.abandoned = p.abandoned := by
  rcases h with rfl | ⟨_, _⟩ | ⟨_, _, _, _, _, _⟩
  · rfl
  · rfl
  · rfl

theorem Requested.clicks (h : p.Requested read nonce p') {click : Click} (requested : click ∈ p'.clicks) :
    click ∈ p.clicks ∨ click.status = read ∧ click.nonce = nonce := by
  rcases h with rfl | ⟨_, _⟩ | ⟨made, status, _, named, _, _⟩
  · exact .inl requested
  · exact .inl requested
  · rcases List.mem_cons.mp requested with rfl | before
    · exact .inr ⟨status, named⟩
    · exact .inl before

end Panel

namespace Exchange
variable {x x₀ x' : Exchange} {t : Turn}

structure Lawful (x : Exchange) : Prop where
  safe : x.machine.Safe False
  numbered : WindowControl.Numbered x.tokens x.machine.me.control
  ordered : x.machine.me.control.Ordered
  panel : x.panel.Lawful x.machine.me.control x.nonces
  file : ∀ d ∈ x.file, ∃ click ∈ x.panel.clicks, d = click.document x.panel.owner
  carries : ∀ entry ∈ x.accepted, ∃ click ∈ x.panel.clicks, Carries x.panel.owner entry click

theorem Lawful.behind (k : x.Lawful) : x.machine.me.control.Behind := k.safe.sound.custody.behind

variable {e : Event}

theorem Allows.found {d : Document} (allowed : x.Allows (.coordinator e))
    (found : e.answers.command = .document d) : x.file = some d ∧ e.answers.token ∉ x.tokens ∧
      (x.next (.coordinator e)).tokens = e.answers.token :: x.tokens := by
  cases e with
  | advance a =>
    have found : a.command = .document d := found
    unfold Allows at allowed
    dsimp only at allowed
    rw [found] at allowed
    exact ⟨allowed.1, allowed.2, rfl⟩
  | interrupt | work w | guiExited code | saverExited code => cases found

theorem tokens_mono {token : String} (h : token ∈ x.tokens) : token ∈ (x.next (.coordinator e)).tokens := by
  cases e with
  | advance a => exact List.mem_cons_of_mem _ h
  | interrupt | work w | guiExited code | saverExited code => exact h

theorem Lawful.segment (k : x.Lawful) (allowed : x.Allows (.coordinator e)) :
    WindowControl.Carried x.panel.owner x.panel.clicks (x.next (.coordinator e)).tokens e.answers.command
      e.answers.token x.machine.me.control (x.machine.next e).me.control := by
  have moves := Machine.next_moves (C := False) k.safe (e := e) (fun h => h.elim) fun h => h.elim
  have fresh : WindowControl.Fresh e.answers.command e.answers.token x.machine.me.control := by
    intro d found
    obtain ⟨-, fresh, -⟩ := allowed.found found
    exact .inr fun status hs same => fresh (same ▸ k.numbered.drawn status hs)
  have start : WindowControl.Carried x.panel.owner x.panel.clicks (x.next (.coordinator e)).tokens
      e.answers.command e.answers.token x.machine.me.control x.machine.me.control :=
    ⟨⟨fun d hd => tokens_mono (k.numbered.drawn d hd), k.numbered.behind, k.numbered.same⟩, fresh, k.ordered,
      fun _ h => h, le_rfl, le_rfl, fun _ h => .inl h⟩
  refine moves.path.keeps (fun c c' moved carried => moved.carried ?_ ?_ ?_ carried) start
  · intro d found
    obtain ⟨-, -, tokens⟩ := allowed.found found
    rw [tokens]
    exact List.mem_cons_self ..
  · intro d found
    exact k.file d (allowed.found found).1
  · exact fun click h => (k.panel.polled click h).1

theorem Lawful.coordinator (k : x.Lawful) (allowed : x.Allows (.coordinator e)) : (x.next (.coordinator e)).Lawful := by
  have moves := Machine.next_moves (C := False) k.safe (e := e) (fun h => h.elim) fun h => h.elim
  have carried := k.segment allowed
  refine ⟨moves.safe, carried.numbered, carried.ordered,
    k.panel.grown carried.published carried.generation carried.lastSequence, k.file, fun entry he => ?_⟩
  rcases carried.accepted entry he with before | ⟨click, hc, carries, -⟩
  · exact k.carries entry before
  · exact ⟨click, hc, carries⟩

variable {p : Panel}

theorem Lawful.requests {file : Option Document} {nonces : List String} (k : x.Lawful)
    (panel : p.Lawful x.machine.me.control nonces) (owner : p.owner = x.panel.owner)
    (clicks : ∀ click ∈ x.panel.clicks, click ∈ p.clicks)
    (written : ∀ d ∈ file, ∃ click ∈ p.clicks, d = click.document p.owner) :
    ({ x with panel := p, file, nonces } : Exchange).Lawful := by
  refine ⟨k.safe, k.numbered, k.ordered, panel, written, fun entry he => ?_⟩
  obtain ⟨click, hc, carries⟩ := k.carries entry he
  exact ⟨click, clicks click hc, by rw [owner]; exact carries⟩

theorem Lawful.written (k : x.Lawful) (owner : p.owner = x.panel.owner)
    (clicks : ∀ click ∈ x.panel.clicks, click ∈ p.clicks) :
    ∀ d ∈ x.file, ∃ click ∈ p.clicks, d = click.document p.owner := by
  intro d hd
  obtain ⟨click, hc, equal⟩ := k.file d hd
  exact ⟨click, clicks click hc, by rw [owner]; exact equal⟩

theorem Lawful.polls {read : Status} (k : x.Lawful) (among : read ∈ x.published)
    (h : x.panel.Polled read p) : ({ x with panel := p } : Exchange).Lawful := by
  have clicks : ∀ click ∈ x.panel.clicks, click ∈ p.clicks := h.keeps.clicks ▸ fun _ h => h
  exact k.requests (k.panel.polls k.behind k.numbered among h) h.keeps.owner clicks (k.written h.keeps.owner clicks)

variable {nonce : String}

theorem Lawful.clicked {read : Status} (k : x.Lawful) (among : read ∈ x.published)
    (fresh : nonce ∉ x.nonces) (h : x.panel.Requested read nonce p) :
    ({ x with panel := p, nonces := nonce :: x.nonces } : Exchange).Lawful := by
  rcases h with rfl | refused | clicked
  · exact k.requests k.panel.draws rfl (fun _ h => h) (k.written rfl fun _ h => h)
  · have panel := k.panel.refuses refused
    obtain ⟨fault, -⟩ := refused
    exact k.requests panel.draws rfl (fun _ h => h) (k.written rfl fun _ h => h)
  · have panel := k.panel.clicks fresh among clicked
    obtain ⟨click, -, -, -, -, -⟩ := clicked
    have grown : ∀ other ∈ x.panel.clicks, other ∈ click :: x.panel.clicks := fun _ => List.mem_cons_of_mem _
    exact k.requests panel rfl grown (k.written rfl grown)

theorem Lawful.commits (k : x.Lawful) (error : Option String) : (x.next (.panel (.commit error))).Lawful := by
  change ({ x with
    panel := (x.panel.commit error).1, file := (x.panel.commit error).2.or x.file } : Exchange).Lawful
  unfold Panel.commit
  cases hs : x.panel.sending with
  | none => exact k.requests k.panel rfl (fun _ h => h) (k.written rfl fun _ h => h)
  | some click =>
    have sent (p : Panel) (same : p = { p with sending := none }) : ∀ c ∈ p.sending, c ∈ x.panel.sending := by
      rw [same]
      exact fun _ h => nomatch h
    cases error with
    | some text =>
      exact k.requests (k.panel.same rfl (sent _ rfl) rfl rfl rfl) rfl (fun _ h => h) (k.written rfl fun _ h => h)
    | none =>
      refine k.requests (k.panel.same rfl (sent _ rfl) rfl rfl rfl) rfl (fun _ h => h) ?_
      rintro _ ⟨⟩
      exact ⟨click, k.panel.sending click hs, rfl⟩

theorem Lawful.reopens (k : x.Lawful) : (x.next .reopen).Lawful := by
  refine k.requests ?_ rfl (fun _ h => h) (k.written rfl fun _ h => h)
  exact ⟨fun _ h => (nomatch h), fun _ h => (nomatch h), k.panel.polled, k.panel.drawn, k.panel.distinct,
    fun _ h => (nomatch h), fun _ h => (nomatch h), k.panel.dead⟩

theorem Lawful.next (k : x.Lawful) (allowed : x.Allows t) : (x.next t).Lawful := by
  cases t with
  | coordinator e => exact k.coordinator allowed
  | panel e =>
    cases e with
    | poll read a => exact k.polls allowed (Panel.poll_polled x.panel read a)
    | click read a nonce identity =>
      obtain ⟨among, fresh⟩ := allowed
      obtain ⟨p, polled, requested⟩ := Panel.request_cases x.panel read a nonce identity
      exact (k.polls among polled).clicked among fresh requested
    | commit error => exact k.commits error
  | reopen => exact k.reopens

theorem opened_lawful {request : Request} {owner : Owner} {token : String} {disk : Nat → Status → Option String}
    (h : Exchange.opened request owner token disk = some x) : x.Lawful := by
  obtain ⟨m, hm, rfl⟩ := Option.map_eq_some_iff.mp h
  have path := Machine.open_path (C := False) hm
  have start : WindowControl.Numbered [token] (.opening owner token disk) ∧
      (WindowControl.opening owner token disk).Ordered := by
    refine ⟨⟨fun d hd => ?_, fun d hd => (nomatch hd), fun d hd d' hd' => ?_⟩,
      ⟨fun _ h => (nomatch h), .nil, fun _ h => (nomatch h), .nil⟩⟩
    · cases List.mem_singleton.mp hd
      exact List.mem_singleton.mpr rfl
    · cases List.mem_singleton.mp hd
      cases List.mem_singleton.mp hd'
      exact iff_of_true rfl rfl
  have kept : WindowControl.Numbered [token] m.me.control ∧ m.me.control.Ordered ∧ m.me.control.accepted = [] := by
    refine path.keeps (P := fun c => WindowControl.Numbered [token] c ∧ c.Ordered ∧ c.accepted = [])
      (fun c c' moved k => ?_) ⟨start.1, start.2, rfl⟩
    refine ⟨moved.numbered k.1 (fun _ h => (nomatch h)) (fun _ h => (nomatch h)), moved.answered_cases.ordered k.2.1, ?_⟩
    rcases moved.answered_cases with same | ⟨_, found, -, -⟩ | ⟨_, _, _, _, found, -, -, -, -⟩
    · exact same.accepted.trans k.2.2
    · cases found
    · cases found
  refine ⟨(Machine.open_safe hm).1, kept.1, kept.2.1, ?_, fun _ h => (nomatch h), fun entry he => ?_⟩
  · exact ⟨fun _ h => (nomatch h), fun _ h => (nomatch h), fun _ h => (nomatch h), fun _ h => (nomatch h), .nil,
      fun _ h => (nomatch h), fun _ h => (nomatch h), fun _ h => (nomatch h)⟩
  · have he : entry ∈ m.me.control.accepted := he
    rw [kept.2.2] at he
    cases he

theorem Lawful.run (k : x₀.Lawful) (run : Run x₀ x) : x.Lawful := by
  apply run.keeps (P := Lawful) _ k
  rintro x _ ⟨t, allowed, rfl⟩ k
  exact k.next allowed

theorem Lawful.abandoned_next (k : x.Lawful) (allowed : x.Allows t) (abandoned : nonce ∈ x.panel.abandoned) :
    nonce ∈ (x.next t).panel.abandoned ∧
      ∀ entry ∈ (x.next t).accepted, entry.1.get "nonce" = .str nonce → entry ∈ x.accepted := by
  cases t with
  | coordinator e =>
    refine ⟨abandoned, fun entry he named => ?_⟩
    rcases (k.segment allowed).accepted entry he with before | ⟨click, hc, carries, alive⟩
    · exact before
    · rw [carries.document, Click.get_nonce] at named
      exact absurd ((k.panel.dead nonce abandoned).2 click hc (Json.str.inj named)) alive
  | panel e =>
    refine ⟨?_, fun _ he _ => he⟩
    cases e with
    | poll read a => exact (Panel.poll_polled x.panel read a).abandoned abandoned
    | click read a nonce' identity =>
      obtain ⟨p, polled, requested⟩ := Panel.request_cases x.panel read a nonce' identity
      have kept := polled.abandoned abandoned
      exact requested.abandoned ▸ kept
    | commit error =>
      change nonce ∈ (x.panel.commit error).1.abandoned
      unfold Panel.commit
      cases x.panel.sending with
      | none => exact abandoned
      | some click =>
        cases error with
        | none | some text => exact abandoned
  | reopen => exact ⟨abandoned, fun _ he _ => he⟩

/-- What holds of the commands after a run from `x₀`. -/
structure Sound (x₀ x : Exchange) : Prop where
  carries : ∀ entry ∈ x.accepted, ∃ click ∈ x.panel.clicks, Carries x.panel.owner entry click
  clicked : ∀ click ∈ x.panel.clicks, Panel.offer click.status = some click.action ∧
    ∃ y a identity, Run x₀ y ∧ y.Allows (.panel (.click click.status a click.nonce identity)) ∧
      click ∉ y.panel.clicks ∧ click ∈ (y.next (.panel (.click click.status a click.nonce identity))).panel.clicks ∧
      Run (y.next (.panel (.click click.status a click.nonce identity))) x
  once : ∀ click ∈ x.panel.clicks, (x.accepted.map Prod.fst).count (click.document x.panel.owner) ≤ 1
  sequences : x.accepted.Pairwise fun newer older =>
    ∃ m n, newer.1.get "sequence" = .int m ∧ older.1.get "sequence" = .int n ∧ n < m
  nonces : (x.accepted.map fun entry => entry.1.get "nonce").Nodup
  abandoned : ∀ x', Run x x' → ∀ nonce ∈ x.panel.abandoned, ∀ entry ∈ x'.accepted,
    entry.1.get "nonce" = .str nonce → entry ∈ x.accepted

theorem clicks_next {click : Click} (requested : click ∈ (x.next t).panel.clicks) :
    click ∈ x.panel.clicks ∨ ∃ a identity, t = .panel (.click click.status a click.nonce identity) := by
  cases t with
  | coordinator e | reopen => exact .inl requested
  | panel e =>
    cases e with
    | poll read a => exact .inl ((Panel.poll_polled x.panel read a).keeps.clicks ▸ requested)
    | click read a nonce identity =>
      obtain ⟨p, polled, made⟩ := Panel.request_cases x.panel read a nonce identity
      rcases made.clicks requested with before | ⟨rfl, rfl⟩
      · exact .inl (polled.keeps.clicks ▸ before)
      · exact .inr ⟨a, identity, rfl⟩
    | commit error =>
      left
      change click ∈ (x.panel.commit error).1.clicks at requested
      unfold Panel.commit at requested
      cases hs : x.panel.sending with
      | none =>
        rw [hs] at requested
        exact requested
      | some sending =>
        rw [hs] at requested
        cases error with
        | none | some text => exact requested

theorem clicked_at (run : Run x₀ x) (first : x₀.panel.clicks = []) {click : Click}
    (requested : click ∈ x.panel.clicks) :
    ∃ y a identity, Run x₀ y ∧ y.Allows (.panel (.click click.status a click.nonce identity)) ∧
      click ∉ y.panel.clicks ∧ click ∈ (y.next (.panel (.click click.status a click.nonce identity))).panel.clicks ∧
      Run (y.next (.panel (.click click.status a click.nonce identity))) x := by
  induction run with
  | refl =>
    rw [first] at requested
    cases requested
  | @tail y z before step ih =>
    by_cases earlier : click ∈ y.panel.clicks
    · obtain ⟨w, a, identity, reached, allowed, new, made, rest⟩ := ih earlier
      exact ⟨w, a, identity, reached, allowed, new, made, rest.tail step⟩
    · obtain ⟨t, allowed, rfl⟩ := step
      obtain known | ⟨a, identity, rfl⟩ := clicks_next requested
      · exact absurd known earlier
      · exact ⟨y, a, identity, before, allowed, earlier, requested, .refl⟩

theorem Lawful.never (k : x.Lawful) (run : Run x x') (abandoned : nonce ∈ x.panel.abandoned) :
    ∀ entry ∈ x'.accepted, entry.1.get "nonce" = .str nonce → entry ∈ x.accepted := by
  have kept : x'.Lawful ∧ nonce ∈ x'.panel.abandoned ∧
      ∀ entry ∈ x'.accepted, entry.1.get "nonce" = .str nonce → entry ∈ x.accepted := by
    refine run.keeps (P := fun y => y.Lawful ∧ nonce ∈ y.panel.abandoned ∧
      ∀ entry ∈ y.accepted, entry.1.get "nonce" = .str nonce → entry ∈ x.accepted) ?_ ⟨k, abandoned, fun _ h _ => h⟩
    rintro y _ ⟨t, allowed, rfl⟩ ⟨lawful, given, earlier⟩
    obtain ⟨still, none_new⟩ := lawful.abandoned_next allowed given
    exact ⟨lawful.next allowed, still, fun entry he named => earlier entry (none_new entry he named) named⟩
  exact kept.2.2

/-- The command protocol is sound over every interleaving of the coordinator with its panels. -/
theorem commands_sound {request : Request} {owner : Owner} {token : String} {disk : Nat → Status → Option String}
    (opened : Exchange.opened request owner token disk = some x₀) (run : Run x₀ x) : Sound x₀ x := by
  have lawful := (opened_lawful opened).run run
  have first : x₀.panel.clicks = [] := by
    obtain ⟨m, -, rfl⟩ := Option.map_eq_some_iff.mp opened
    rfl
  refine ⟨lawful.carries, fun click hc => ⟨(lawful.panel.polled click hc).2, clicked_at run first hc⟩,
    fun click _ => ?_, lawful.ordered.sequences, lawful.ordered.nonces, fun x' rest nonce given => lawful.never rest given⟩
  have distinct : (x.accepted.map Prod.fst).Nodup := by
    apply List.Nodup.of_map fun d : Document => d.get "nonce"
    rw [List.map_map]
    exact lawful.ordered.nonces
  exact List.nodup_iff_count_le_one.mp distinct _

instance Allows.decidable (x : Exchange) : (t : Turn) → Decidable (x.Allows t)
  | .coordinator (.advance a) =>
    match h : a.command with
    | .absent => decidable_of_iff (x.file = none) (by simp [Allows, h])
    | .unreadable _ => isTrue (by simp [Allows, h])
    | .document d => decidable_of_iff (x.file = some d ∧ a.token ∉ x.tokens) (by simp [Allows, h])
  | .coordinator .interrupt | .coordinator (.work _) | .coordinator (.guiExited _) | .coordinator (.saverExited _) =>
    isTrue trivial
  | .panel (.poll read _) => inferInstanceAs (Decidable (read ∈ x.published))
  | .panel (.click read _ nonce _) => inferInstanceAs (Decidable (read ∈ x.published ∧ nonce ∉ x.nonces))
  | .panel (.commit _) | .reopen => isTrue trivial

end Exchange

namespace Bench

/-- A segment with this in `command.json`. -/
def finds (d : Document) (n : Nat) : Event := .advance { quiet with command := .document d, token := token n }

def preview : Machine := ([Event.advance quiet] ++ started).foldl Machine.next opened
def start : Click := ⟨preview.me.control.status, 1, token 5, .start⟩
def starting : Machine := preview.next (finds (start.document owner) 1)
def stop : Click := ⟨starting.me.control.status, 2, token 6, .stop⟩
def switching : Machine := (starting.next stopped).next (finds (stop.document owner) 2)

def clicks (c : Click) : List Turn := [.panel (.click c.status ⟨none, none⟩ c.nonce none), .panel (.commit none)]

def turns : List Turn :=
  ([Event.advance quiet] ++ started).map .coordinator ++ clicks start ++
    [.coordinator (finds (start.document owner) 1), .coordinator stopped] ++ clicks stop ++
    [.coordinator (finds (stop.document owner) 2), .panel (.poll switching.me.control.status ⟨none, none⟩),
      .coordinator (finds (stop.document owner) 3), .coordinator (finds (stop.document owner) 4)]

def exchange : Exchange := ⟨opened, .new owner, none, [token 0], []⟩

theorem open_exchange : Exchange.opened request owner (token 0) (fun _ _ => none) = some exchange := rfl

end Bench

theorem bench_commands_sound :
    let x := Bench.turns.foldl Exchange.next Bench.exchange
    x.accepted.map Prod.fst = [Bench.start.document Bench.owner] ∧ x.panel.abandoned = [Bench.token 6] ∧
      Exchange.Sound Bench.exchange x :=
  ⟨by decide +kernel, by decide +kernel,
    Exchange.commands_sound Bench.open_exchange (Allowed.path (by decide +kernel))⟩

end Smartwheel.Interactive
