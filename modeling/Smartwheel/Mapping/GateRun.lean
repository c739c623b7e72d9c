import Smartwheel.Effect.History
import Smartwheel.Mapping.Gate

/-! What a gate lets through in any sequence of frames and failures. -/
namespace Smartwheel.Mapping.Gate
open Effect

def Follows (last : Option Accepted) (frame : Accepted) : Prop :=
  ∀ l, last = some l → (frame.streamEpoch = l.streamEpoch ∧ frame.sourceConfigHash = l.sourceConfigHash) ∧
    l.sequence < frame.sequence ∧ l.host < frame.host ∧ l.stamp < frame.stamp

section checks
variable {F : Type} {number : ℕ → ℕ → F} {finite : F → Bool} {g : SourceGate} {m : SourceFrame} {nowNs : ℤ}

theorem uint_ok {value n : ℤ} {reason : String} (h : uint value reason = .ok n) : n = value := by
  obtain ⟨_, _, same⟩ := bind_eq_ok h
  exact (Except.ok.inj same).symm

theorem times_ok {stamp host seq : ℤ} (h : times g m nowNs = .ok (stamp, host, seq)) : host = m.hostMonotonicNs := by
  unfold times at h
  simp only [bind_eq_ok_iff] at h
  obtain ⟨_, -, _, -, _, -, _, -, _, -, _, -, _, -, _, -, _, -, _, -, _, -, host', read, _, -, _, -, _, -, h⟩ := h
  cases h
  exact uint_ok read

theorem order_ok {last : Option Accepted} {frame : Accepted} {u : Unit} (h : order last frame = .ok u) : Follows last frame := by
  intro l same
  subst same
  obtain ⟨_, stream, h⟩ := bind_eq_ok h
  obtain ⟨_, sequence, times⟩ := bind_eq_ok h
  exact ⟨require_ok stream, require_ok sequence, require_ok times⟩

theorem checks_ok {frame : Accepted} {rawCount validCount : ℤ}
    (h : checks number finite g m nowNs = .ok (frame, rawCount, validCount)) :
    Follows g.last frame ∧ frame.host = m.hostMonotonicNs := by
  unfold checks at h
  simp only [bind_eq_ok_iff] at h
  obtain ⟨⟨stamp, host, seq⟩, timed, _, -, _, -, _, ordered, counts, -, h⟩ := h
  cases h
  exact ⟨order_ok ordered, times_ok timed⟩

theorem active_ok {u : Unit} (h : g.active = .ok u) : g.failureReason = none := by
  unfold SourceGate.active at h
  split at h
  next => cases h
  next none_ => exact none_

end checks

structure Kept (w : World) (g : SourceGate) (last : Option Accepted) : Prop where
  last : g.last = last
  period : g.periodNs = w.gate.periodNs
  forwarded : g.lastForwardedHostNs = w.gate.lastForwardedHostNs

inductive Inspected (w : World) (m : SourceFrame) : Outcome String (Option Metadata) → World → Prop
  | refused (e : String) (g : SourceGate) (kept : Kept w g w.gate.last) : Inspected w m (.raised e) ⟨g, w.events⟩
  | full (e : String) (g : SourceGate) (frame : Accepted) (going : w.gate.failureReason = none)
      (follows : Follows w.gate.last frame) (kept : Kept w g (some frame)) :
      Inspected w m (.raised e) ⟨g, w.events ++ [.accepted frame]⟩
  | early (g : SourceGate) (frame : Accepted) (going : w.gate.failureReason = none)
      (follows : Follows w.gate.last frame) (kept : Kept w g (some frame)) :
      Inspected w m (.value none) ⟨g, w.events ++ [.accepted frame]⟩
  | passed (g : SourceGate) (d : Metadata) (going : w.gate.failureReason = none)
      (follows : Follows w.gate.last d.accepted) (kept : Kept w g (some d.accepted))
      (host : d.accepted.host = m.hostMonotonicNs) (late : w.gate.tooEarly d.accepted.host = false) :
      Inspected w m (.value (some d)) ⟨g, w.events ++ [.accepted d.accepted]⟩

section inspect
variable {F : Type} {number : ℕ → ℕ → F} {finite : F → Bool} {sha256 : List UInt8 → String}

theorem inspected_gives (m : SourceFrame) (nowNs : ℤ) (w : World) (going : w.gate.failureReason = none) :
    ((inspected number finite sha256 m nowNs).handle failWith).wp (Inspected w m) w := by
  simp only [Program.wp_handle, inspected, Program.wp_bind, Program.wp_get, Program.andThen_value]
  cases checked : checks number finite w.gate m nowNs with
  | error e => exact .refused _ (w.gate.fail e) ⟨rfl, rfl, rfl⟩
  | ok passed =>
    obtain ⟨frame, rawCount, validCount⟩ := passed
    obtain ⟨follows, host⟩ := checks_ok checked
    simp only [lift, Program.wp_pure, Program.andThen_value, update, Program.wp_modify, log, Program.wp_bind, Program.wp_get]
    cases early : (w.gate.accept frame (rawCount - validCount)).tooEarly frame.host with
    | true =>
      rw [if_pos rfl]
      exact .early _ frame going follows ⟨rfl, rfl, rfl⟩
    | false =>
      simp only [Bool.false_eq_true, if_false, Program.wp_bind, Program.raiseIf, Program.when]
      split
      · exact .full _ _ frame going follows ⟨rfl, rfl, rfl⟩
      · exact .passed _ _ going follows ⟨rfl, rfl, rfl⟩ host early

theorem inspect_gives (m : SourceFrame) (nowNs : ℤ) (w : World) :
    (inspect number finite sha256 m nowNs).wp (Inspected w m) w := by
  unfold inspect ensureActive
  simp only [Program.wp_bind, Program.wp_get, Program.andThen_value]
  cases active : w.gate.active with
  | error e => exact .refused e w.gate ⟨rfl, rfl, rfl⟩
  | ok u =>
    have going := active_ok active
    simp only [lift, Program.wp_pure, Program.andThen_value, update]
    refine (inspected_gives m nowNs { w with gate := w.gate.receive nowNs } going).mono fun r w' given => ?_
    -- only counters differ from the state before
    cases given with
    | refused e g kept => exact .refused e g ⟨kept.last, kept.period, kept.forwarded⟩
    | full e g frame _ follows kept => exact .full e g frame going follows ⟨kept.last, kept.period, kept.forwarded⟩
    | early g frame _ follows kept => exact .early g frame going follows ⟨kept.last, kept.period, kept.forwarded⟩
    | passed g d _ follows kept host late =>
      exact .passed g d going follows ⟨kept.last, kept.period, kept.forwarded⟩ host late

inductive Goes (w : World) : World → Prop
  | refused (g : SourceGate) (kept : Kept w g w.gate.last) (failed : w.gate.failureReason ≠ none → g.failureReason ≠ none) :
      Goes w ⟨g, w.events⟩
  | accepted (g : SourceGate) (frame : Accepted) (going : w.gate.failureReason = none) (follows : Follows w.gate.last frame)
      (kept : Kept w g (some frame)) (more : List Event) (none_ : more = [] ∨ more = [.archived frame]) :
      Goes w ⟨g, w.events ++ .accepted frame :: more⟩
  | forwarded (g : SourceGate) (frame : Accepted) (going : w.gate.failureReason = none) (follows : Follows w.gate.last frame)
      (late : w.gate.tooEarly frame.host = false) (last : g.last = some frame) (period : g.periodNs = w.gate.periodNs)
      (forwarded : g.lastForwardedHostNs = some frame.host) :
      Goes w ⟨g, w.events ++ [.accepted frame, .archived frame, .published frame]⟩

theorem fail_failed (g : SourceGate) (e : String) : (g.fail e).failureReason ≠ none := by
  cases held : g.failureReason <;> simp [SourceGate.fail, held]

theorem checkStale_gives (nowNs : ℤ) (w : World) :
    (checkStale nowNs).wp (fun r w' => w' = w ∨ ∃ e, r = .raised e ∧ w' = { w with gate := w.gate.fail e }) w := by
  unfold checkStale ensureActive
  simp only [Program.wp_bind, Program.wp_get, Program.andThen_value]
  cases w.gate.active with
  | error e => exact .inl rfl
  | ok u =>
    simp only [lift, Program.wp_pure, Program.andThen_value, Program.wp_bind, Program.wp_get]
    split
    · exact .inl rfl
    · cases w.gate.staleReason nowNs with
      | none => exact .inl rfl
      | some reason => exact .inr ⟨reason, rfl, rfl⟩

theorem forward_goes (m : SourceFrame) (s : Surroundings) (w : World) :
    (forwardFrame number finite sha256 m s).wp
      (fun r w' => Goes w w' ∧ ((∃ e, r = .raised e) → w'.gate.failureReason ≠ none)) w := by
  unfold forwardFrame forwarded
  simp only [Program.wp_handle, Program.wp_bind]
  refine (inspect_gives m s.first w).mono fun r w' given => ?_
  cases given with
  | refused e g kept =>
    exact ⟨.refused (g.fail e) ⟨kept.last, kept.period, kept.forwarded⟩ fun _ => fail_failed g e, fun _ => fail_failed g e⟩
  | full e g frame going follows kept =>
    exact ⟨.accepted (g.fail e) frame going follows ⟨kept.last, kept.period, kept.forwarded⟩ [] (.inl rfl),
      fun _ => fail_failed g e⟩
  | early g frame going follows kept =>
    exact ⟨.accepted g frame going follows kept [] (.inl rfl), fun raised => by obtain ⟨e, h⟩ := raised; cases h⟩
  | passed g d going follows kept host late =>
    simp only [Program.andThen_value, Program.wp_bind]
    cases s.serialize with
    | some e =>
      exact ⟨.accepted (g.fail e) d.accepted going follows ⟨kept.last, kept.period, kept.forwarded⟩ [] (.inl rfl),
        fun _ => fail_failed g e⟩
    | none =>
      cases s.append with
      | some e =>
        exact ⟨.accepted (g.fail e) d.accepted going follows ⟨kept.last, kept.period, kept.forwarded⟩ [] (.inl rfl),
          fun _ => fail_failed g e⟩
      | none =>
        simp only [attempt, Program.wp_pure, Program.andThen_value, log, update, Program.wp_modify, Program.wp_bind]
        refine (checkStale_gives s.second _).mono fun r w' stale => ?_
        have parts : w.events ++ [Event.accepted d.accepted] ++ [Event.archived d.accepted] =
            w.events ++ [.accepted d.accepted, .archived d.accepted] := by simp
        rw [parts] at stale
        cases r with
        | raised e =>
          rcases stale with rfl | ⟨e', -, rfl⟩
          · exact ⟨.accepted (g.archive.fail e) d.accepted going follows ⟨kept.last, kept.period, kept.forwarded⟩ _ (.inr rfl),
              fun _ => fail_failed g.archive e⟩
          · exact ⟨.accepted ((g.archive.fail e').fail e) d.accepted going follows ⟨kept.last, kept.period, kept.forwarded⟩ _
              (.inr rfl), fun _ => fail_failed _ e⟩
        | cut =>
          rcases stale with rfl | ⟨e', cut, rfl⟩
          · exact ⟨.accepted g.archive d.accepted going follows ⟨kept.last, kept.period, kept.forwarded⟩ _ (.inr rfl),
              fun raised => by obtain ⟨e, h⟩ := raised; cases h⟩
          · cases cut
        | value u =>
          rcases stale with rfl | ⟨e', raised, rfl⟩
          · cases s.publish with
            | some e =>
              exact ⟨.accepted (g.archive.fail e) d.accepted going follows ⟨kept.last, kept.period, kept.forwarded⟩ _ (.inr rfl),
                fun _ => fail_failed g.archive e⟩
            | none =>
              have all : w.events ++ [.accepted d.accepted, .archived d.accepted] ++ [.published d.accepted] =
                  w.events ++ [.accepted d.accepted, .archived d.accepted, .published d.accepted] := by simp
              have sent : (g.archive.publish m.hostMonotonicNs d.accepted.stamp).lastForwardedHostNs = some d.accepted.host := by
                rw [host]
                rfl
              refine ⟨?_, fun raised => by obtain ⟨e, h⟩ := raised; cases h⟩
              have goes := Goes.forwarded (g.archive.publish m.hostMonotonicNs d.accepted.stamp) d.accepted going follows late
                kept.last kept.period sent
              rw [← all] at goes
              exact goes
          · cases raised

theorem stale_goes (nowNs : ℤ) (w : World) : (checkStale nowNs).wp (fun _ w' => Goes w w') w := by
  refine (checkStale_gives nowNs w).mono fun r w' stale => ?_
  rcases stale with rfl | ⟨e, -, rfl⟩
  · exact .refused w'.gate ⟨rfl, rfl, rfl⟩ id
  · exact .refused (w.gate.fail e) ⟨rfl, rfl, rfl⟩ fun _ => fail_failed _ e

theorem act_goes {F : Type} (number : ℕ → ℕ → F) (finite : F → Bool) (sha256 : List UInt8 → String) (input : Input) (w : World) :
    Goes w (act number finite sha256 input w).2 := by
  cases input with
  | forward m s =>
    have goes : (act number finite sha256 (.forward m s)).wp (fun _ w' => Goes w w') w := by
      simp only [act, Program.wp_bind]
      refine (forward_goes m s w).mono fun r w' both => ?_
      cases r <;> exact both.1
    exact goes
  | stale nowNs => exact stale_goes nowNs w
  | fail reason => exact .refused (w.gate.fail reason) ⟨rfl, rfl, rfl⟩ fun _ => fail_failed _ reason
  | stop =>
    show Goes w { w with gate := if w.gate.failureReason = none then { w.gate with state := .stopped } else w.gate }
    split
    · exact .refused _ ⟨rfl, rfl, rfl⟩ id
    · exact .refused _ ⟨rfl, rfl, rfl⟩ id

end inspect

def Event.accepted? : Event → Option Accepted
  | .accepted frame => some frame
  | _ => none

def Event.published? : Event → Option Accepted
  | .published frame => some frame
  | _ => none

def accepted (events : List Event) : List Accepted := events.filterMap Event.accepted?

def published (events : List Event) : List Accepted := events.filterMap Event.published?

def Later (a b : Accepted) : Prop :=
  (b.streamEpoch = a.streamEpoch ∧ b.sourceConfigHash = a.sourceConfigHash) ∧
    a.sequence < b.sequence ∧ a.host < b.host ∧ a.stamp < b.stamp

theorem Later.trans {a b c : Accepted} (first : Later a b) (next : Later b c) : Later a c :=
  ⟨⟨next.1.1.trans first.1.1, next.1.2.trans first.1.2⟩, first.2.1.trans next.2.1, first.2.2.1.trans next.2.2.1,
    first.2.2.2.trans next.2.2.2⟩

structure Sound (period : ℕ) (w : World) : Prop where
  rate : w.gate.periodNs = period
  last : w.gate.last = (accepted w.events).getLast?
  order : (accepted w.events).Pairwise Later
  forwarded : w.gate.lastForwardedHostNs = (published w.events).getLast?.map Accepted.host
  known : ∀ frame ∈ published w.events, frame ∈ accepted w.events
  apart : (published w.events).Pairwise fun a b => a.host + (period : ℤ) ≤ b.host
  archived : ∀ before frame after, w.events = before ++ .published frame :: after →
    ∃ earlier, before = earlier ++ [.accepted frame, .archived frame]

section sound
variable {period : ℕ} {w w' : World} {frame : Accepted}

theorem later_all (sound : Sound period w) (follows : Follows w.gate.last frame) :
    ∀ a ∈ accepted w.events, Later a frame := by
  intro a inside
  cases there : w.gate.last with
  | none =>
    rw [sound.last, List.getLast?_eq_none_iff] at there
    rw [there] at inside
    cases inside
  | some l =>
    have next : Later l frame := follows l there
    have final := sound.last
    rw [there] at final
    obtain ⟨before, parts⟩ := List.getLast?_eq_some_iff.mp final.symm
    have order := sound.order
    rw [parts] at order inside
    rcases List.mem_append.mp inside with earlier | same
    · exact ((List.pairwise_append.mp order).2.2 a earlier l (by simp)).trans next
    · rw [List.mem_singleton.mp same]
      exact next

theorem apart_all (sound : Sound period w) (follows : Follows w.gate.last frame) (late : w.gate.tooEarly frame.host = false) :
    ∀ a ∈ published w.events, a.host + (period : ℤ) ≤ frame.host := by
  intro a inside
  have later : a.host < frame.host := (later_all sound follows a (sound.known a inside)).2.2.1
  by_cases all : period = 0
  · omega
  · cases there : (published w.events).getLast? with
    | none =>
      rw [List.getLast?_eq_none_iff.mp there] at inside
      cases inside
    | some l =>
      have sent : w.gate.lastForwardedHostNs = some l.host := by rw [sound.forwarded, there]; rfl
      have gap : ¬frame.host - l.host < period := by
        intro early
        simp [SourceGate.tooEarly, sent, sound.rate, all, early] at late
      obtain ⟨before, parts⟩ := List.getLast?_eq_some_iff.mp there
      have apart := sound.apart
      rw [parts] at apart inside
      rcases List.mem_append.mp inside with earlier | same
      · have step := (List.pairwise_append.mp apart).2.2 a earlier l (by simp)
        omega
      · rw [List.mem_singleton.mp same]
        omega

theorem split_left {e : Event} {xs ys before after : List Event} (parts : xs ++ ys = before ++ e :: after) (out : e ∉ ys) :
    ∃ rest, xs = before ++ e :: rest := by
  rcases List.append_eq_append_iff.mp parts with ⟨rest, -, right⟩ | ⟨rest, left, right⟩
  · exact absurd (by simp [right]) out
  · cases rest with
    | nil => exact absurd (by rw [← List.nil_append ys, ← right]; simp) out
    | cons first rest =>
      rw [List.cons_append, List.cons.injEq] at right
      exact ⟨rest, by rw [left, right.1]⟩

theorem goes_sound (sound : Sound period w) (goes : Goes w w') : Sound period w' := by
  cases goes with
  | refused g kept _ =>
    exact ⟨kept.period.trans sound.rate, kept.last.trans sound.last, sound.order, kept.forwarded.trans sound.forwarded,
      sound.known, sound.apart, sound.archived⟩
  | accepted g frame going follows kept more none_ =>
    have new : accepted (w.events ++ .accepted frame :: more) = accepted w.events ++ [frame] := by
      rcases none_ with rfl | rfl <;> simp [accepted, Event.accepted?]
    have old : published (w.events ++ .accepted frame :: more) = published w.events := by
      rcases none_ with rfl | rfl <;> simp [published, Event.published?]
    refine ⟨kept.period.trans sound.rate, ?_, ?_, ?_, ?_, ?_, ?_⟩
    · rw [new, List.getLast?_concat]
      exact kept.last
    · rw [new]
      exact List.pairwise_append.mpr ⟨sound.order, by simp, fun a inside b last => by
        rw [List.mem_singleton.mp last]
        exact later_all sound follows a inside⟩
    · rw [old]
      exact kept.forwarded.trans sound.forwarded
    · rw [old, new]
      exact fun a inside => List.mem_append_left _ (sound.known a inside)
    · rw [old]
      exact sound.apart
    · intro before f after parts
      obtain ⟨rest, earlier⟩ := split_left parts (by rcases none_ with rfl | rfl <;> simp)
      exact sound.archived before f rest earlier
  | forwarded g frame going follows late last rate sent =>
    have new : accepted (w.events ++ [.accepted frame, .archived frame, .published frame]) = accepted w.events ++ [frame] := by
      simp [accepted, Event.accepted?]
    have old : published (w.events ++ [.accepted frame, .archived frame, .published frame]) = published w.events ++ [frame] := by
      rw [published, List.filterMap_append]
      rfl
    refine ⟨rate.trans sound.rate, ?_, ?_, ?_, ?_, ?_, ?_⟩
    · rw [new, List.getLast?_concat]
      exact last
    · rw [new]
      exact List.pairwise_append.mpr ⟨sound.order, by simp, fun a inside b last => by
        rw [List.mem_singleton.mp last]
        exact later_all sound follows a inside⟩
    · rw [old, List.getLast?_concat]
      exact sent
    · rw [old, new]
      intro a inside
      rcases List.mem_append.mp inside with before | same
      · exact List.mem_append_left _ (sound.known a before)
      · exact List.mem_append_right _ same
    · rw [old]
      exact List.pairwise_append.mpr ⟨sound.apart, by simp, fun a inside b last => by
        rw [List.mem_singleton.mp last]
        exact apart_all sound follows late a inside⟩
    · intro before f after parts
      -- the last event, or one that was there
      rcases List.eq_nil_or_concat after with rfl | ⟨after', e, rfl⟩
      · have all : w.events ++ [.accepted frame, .archived frame] ++ [.published frame] = before ++ [.published f] := by
          simpa using parts
        obtain ⟨first, final⟩ := List.append_inj' all rfl
        cases final
        exact ⟨w.events, first.symm⟩
      · have all : w.events ++ [.accepted frame, .archived frame] ++ [.published frame] =
            before ++ .published f :: after' ++ [e] := by simpa using parts
        obtain ⟨first, -⟩ := List.append_inj' all rfl
        obtain ⟨rest, earlier⟩ := split_left first (by simp)
        exact sound.archived before f rest earlier

theorem run_sound {F : Type} (number : ℕ → ℕ → F) (finite : F → Bool) (sha256 : List UInt8 → String) (inputs : List Input)
    (sound : Sound period w) : Sound period (run number finite sha256 w inputs) := by
  induction inputs generalizing w with
  | nil => exact sound
  | cons input rest ih => exact ih (goes_sound sound (act_goes number finite sha256 input w))

end sound

theorem failed_stays {F : Type} (number : ℕ → ℕ → F) (finite : F → Bool) (sha256 : List UInt8 → String) {w : World}
    (inputs : List Input) (failed : w.gate.failureReason ≠ none) :
    (run number finite sha256 w inputs).events = w.events ∧ (run number finite sha256 w inputs).gate.failureReason ≠ none := by
  induction inputs generalizing w with
  | nil => exact ⟨rfl, failed⟩
  | cons input rest ih =>
    have goes := act_goes number finite sha256 input w
    have next : run number finite sha256 w (input :: rest) = run number finite sha256 (act number finite sha256 input w).2 rest := rfl
    rw [next]
    generalize (act number finite sha256 input w).2 = w' at goes ⊢
    cases goes with
    | refused g _ stays => exact ih (w := ⟨g, w.events⟩) (stays failed)
    | accepted _ _ going => exact absurd going failed
    | forwarded _ _ going => exact absurd going failed

theorem fresh_sound {g : SourceGate} (fresh : g.Fresh) : Sound g.periodNs ⟨g, []⟩ where
  rate := rfl
  last := fresh.last
  order := List.Pairwise.nil
  forwarded := fresh.forwarded
  known _ none_ := by cases none_
  apart := List.Pairwise.nil
  archived before _ _ parts := by rcases before with _ | ⟨e, rest⟩ <;> cases parts

/-- From a fresh gate, with any frames, archive results and failures: accepted frames are of one epoch and
configuration, with rising sequence, host time and stamp; published ones are a period apart, each right after its own
archive write; a call that fails ends it, and nothing is accepted or published after a failure. -/
theorem frames_gated {F : Type} (number : ℕ → ℕ → F) (finite : F → Bool) (sha256 : List UInt8 → String) (g : SourceGate)
    (inputs : List Input) (fresh : g.Fresh) :
    let after := fun inputs => run number finite sha256 ⟨g, []⟩ inputs
    (accepted (after inputs).events).Pairwise Later ∧
      ((published (after inputs).events).Pairwise fun a b => a.host + (g.periodNs : ℤ) ≤ b.host) ∧
      (∀ before frame rest, (after inputs).events = before ++ .published frame :: rest →
        ∃ earlier, before = earlier ++ [.accepted frame, .archived frame]) ∧
      (∀ before m s rest, inputs = before ++ .forward m s :: rest →
        (∃ e, (forwardFrame number finite sha256 m s (after before)).1 = .raised e) →
          (after (before ++ [.forward m s])).gate.failureReason ≠ none) ∧
      ∀ before rest, inputs = before ++ rest → (after before).gate.failureReason ≠ none →
        (after inputs).events = (after before).events ∧ (after inputs).gate.failureReason ≠ none := by
  intro after
  have sound : Sound g.periodNs (after inputs) := run_sound number finite sha256 inputs (fresh_sound fresh)
  refine ⟨sound.order, sound.apart, sound.archived, ?_, ?_⟩
  · intro before m s rest _ raised
    have last : after (before ++ [.forward m s]) = (act number finite sha256 (.forward m s) (after before)).2 := by
      simp [after, run]
    have same : (act number finite sha256 (.forward m s) (after before)).2 = (forwardFrame number finite sha256 m s (after before)).2 := by
      simp only [act, bind, Program.bind]
      cases forwardFrame number finite sha256 m s (after before) with
      | mk r w => cases r <;> rfl
    rw [last, same]
    exact (forward_goes m s (after before)).2 raised
  · intro before rest parts failed
    have later : after inputs = run number finite sha256 (after before) rest := by
      simp [after, run, parts]
    rw [later]
    exact failed_stays number finite sha256 rest failed

namespace Bench

def gate : SourceGate where
  continuousMapping := false
  sessionId := "bench"
  side := "left"
  sensorId := "lidar"
  periodNs := 200
  startedNs := 0
  failureReason := none
  state := .starting
  last := none
  lastReceivedMonotonicNs := none
  lastPublishedStampNs := none
  lastForwardedHostNs := none
  receivedFrames := 0
  validatedFrames := 0
  throttledFrames := 0
  archivedFrames := 0
  publishedFrames := 0
  sequenceGaps := 0
  invalidXyzPoints := 0

def frame (sequence time : ℤ) : SourceFrame where
  sessionId := "bench"
  side := "left"
  sensorId := "lidar"
  units := "m"
  coordinateConvention := "FLU"
  timeSource := "arrival_only"
  commonTimeValid := false
  uncertaintyValid := false
  clockModelId := ""
  frameId := "lidar_left"
  stamp := ⟨0, time⟩
  cloudFrameId := "lidar_left"
  cloudStamp := ⟨0, time⟩
  cloud := {
    width := .int 1
    height := .int 1
    pointStep := .int 16
    rowStep := .int 16
    isBigendian := .bool false
    data := List.replicate 16 0
    fields := [⟨.text "x", .int 0, .int 7, .int 1⟩, ⟨.text "y", .int 4, .int 7, .int 1⟩, ⟨.text "z", .int 8, .int 7, .int 1⟩,
      ⟨.text "intensity", .int 12, .int 7, .int 1⟩] }
  isDense := true
  hostReceiveTime := ⟨0, time⟩
  commonTimeNs := time
  hostMonotonicNs := time
  frameSequence := sequence
  streamEpoch := "e"
  sourceConfigHash := "0123456789abcdef0123456789abcdef0123456789abcdef0123456789abcdef"
  rawCount := 1
  validCount := 1

def calm (time : ℤ) : Surroundings := ⟨time, time, none, none, none⟩

def inputs : List Input :=
  [.forward (frame 1 100) (calm 100), .forward (frame 2 250) (calm 250),
    .forward (frame 3 300) { calm 300 with append := some "DISK_FREE_MARGIN_EXHAUSTED" }, .forward (frame 4 600) (calm 600)]

end Bench

theorem bench_gated :
    let w := run (fun _ n => n) (fun _ => true) (fun _ => "") ⟨Bench.gate, []⟩ Bench.inputs
    (accepted w.events).map Accepted.sequence = [1, 2, 3] ∧ (published w.events).map Accepted.sequence = [1] ∧
      w.gate.failureReason = some "DISK_FREE_MARGIN_EXHAUSTED" ∧ (accepted w.events).Pairwise Later :=
  ⟨rfl, rfl, rfl, (frames_gated (fun _ n => n) (fun _ => true) (fun _ => "") Bench.gate Bench.inputs ⟨rfl, rfl, rfl, rfl⟩).1⟩

end Smartwheel.Mapping.Gate
