import Mathlib.Data.List.Induction
import Smartwheel.Maps.Live

/-! What the worker and the node do in any order of their moves. -/
namespace Smartwheel.Maps.Live

namespace Worker
variable {α β : Type} {w w' : Worker α β} {last : ℕ}

structure Ordered (w : Worker α β) (last : ℕ) : Prop where
  polled : last ≤ w.generation
  pending : ∀ t p, w.pending = some (t, p) → last < t ∧ t = w.generation
  active : ∀ t p, w.active = some (t, p) → last < t ∧ t ≤ w.generation ∧ ∀ t' p', w.pending = some (t', p') → t < t'
  result : ∀ t o, w.result = some (t, o) → last < t ∧ t ≤ w.generation ∧ (∀ t' p, w.active = some (t', p) → t < t') ∧
    ∀ t' p, w.pending = some (t', p) → t < t'

theorem take_some (h : w.take = some w') : ∃ job, w.active = none ∧ w.pending = some job ∧ w.stopping = false ∧
    w' = { w with pending := none, active := some job } := by
  unfold take at h
  split at h
  next job idle waits =>
    split at h
    · cases h
    · next going =>
      cases h
      exact ⟨job, idle, waits, by simpa using going, rfl⟩
  next => cases h

theorem finish_some {outcome : Except String β} (h : w.finish outcome = some w') : ∃ t p, w.active = some (t, p) ∧
    w' = { w with active := none, result := if w.stopping || w.unpolledError then w.result else some (t, outcome) } := by
  obtain ⟨⟨t, p⟩, job, same⟩ := Option.map_eq_some_iff.mp h
  exact ⟨t, p, job, same.symm⟩

theorem step_ordered {m : Move α β} (ordered : w.Ordered last) (h : w.step m = some w') :
    ∃ last', w'.Ordered last' ∧ (last' = if isPoll m then (w.result.map Prod.fst).getD last else last) ∧ last ≤ last' := by
  cases m with
  | submit payload =>
    cases h
    refine ⟨last, ⟨?_, ?_, ?_, ?_⟩, rfl, le_rfl⟩
    · exact ordered.polled.trans (Nat.le_succ _)
    · intro t p waits
      have polled := ordered.polled
      cases waits
      exact ⟨by omega, rfl⟩
    · intro t p builds
      obtain ⟨later, known, -⟩ := ordered.active t p builds
      refine ⟨later, known.trans (Nat.le_succ _), fun t' p' waits => ?_⟩
      cases waits
      omega
    · intro t o done
      obtain ⟨later, known, before, -⟩ := ordered.result t o done
      refine ⟨later, known.trans (Nat.le_succ _), before, fun t' p' waits => ?_⟩
      cases waits
      omega
  | take =>
    obtain ⟨⟨t, p⟩, -, waits, -, rfl⟩ := take_some h
    obtain ⟨later, newest⟩ := ordered.pending t p waits
    refine ⟨last, ⟨ordered.polled, by simp, ?_, ?_⟩, rfl, le_rfl⟩
    · intro t' p' builds
      cases builds
      exact ⟨later, newest.le, by simp⟩
    · intro t' o done
      obtain ⟨later', known, -, before⟩ := ordered.result t' o done
      refine ⟨later', known, fun t'' p'' builds => ?_, by simp⟩
      cases builds
      exact before t p waits
  | finish outcome =>
    obtain ⟨t, p, builds, rfl⟩ := finish_some h
    obtain ⟨later, known, before⟩ := ordered.active t p builds
    refine ⟨last, ⟨ordered.polled, ordered.pending, by simp, ?_⟩, rfl, le_rfl⟩
    intro t' o done
    dsimp only at done ⊢
    split at done
    · obtain ⟨later', known', -, before'⟩ := ordered.result t' o done
      exact ⟨later', known', by simp, before'⟩
    · cases done
      exact ⟨later, known, by simp, before⟩
  | poll =>
    cases h
    cases done : w.result with
    | none => exact ⟨last, ⟨ordered.polled, ordered.pending, ordered.active, by simp [poll]⟩, by simp [isPoll], le_rfl⟩
    | some r =>
      obtain ⟨later, known, builds, waits⟩ := ordered.result r.1 r.2 done
      refine ⟨r.1, ⟨known, ?_, ?_, by simp [poll]⟩, by simp [isPoll], later.le⟩
      · intro t p pending
        exact ⟨waits t p pending, (ordered.pending t p pending).2⟩
      · intro t p active
        exact ⟨builds t p active, (ordered.active t p active).2⟩
  | close =>
    cases h
    refine ⟨last, ⟨ordered.polled, by simp [close], ?_, by simp [close]⟩, rfl, le_rfl⟩
    intro t p builds
    obtain ⟨later, known, -⟩ := ordered.active t p builds
    exact ⟨later, known, by simp [close]⟩

theorem polled_rise (moves : List (Move α β)) (ordered : w.Ordered last) :
    (∀ r ∈ w.polled moves, last < r.1) ∧ (w.polled moves).Pairwise fun r r' => r.1 < r'.1 := by
  induction moves generalizing w last with
  | nil => simp [polled]
  | cons m rest ih =>
    cases moved : w.step m with
    | none =>
      have first : ∀ r ∈ w.polled (m :: rest), r ∈ w.result := by
        simp only [polled, moved, Option.map_none, Option.getD_none, List.append_nil]
        split <;> simp
      refine ⟨fun r inside => (ordered.result r.1 r.2 (first r inside)).1, ?_⟩
      simp only [polled, moved, Option.map_none, Option.getD_none, List.append_nil]
      split <;> cases w.result <;> simp
    | some w' =>
      obtain ⟨last', ordered', next, later⟩ := step_ordered ordered moved
      obtain ⟨above, rises⟩ := ih ordered'
      have here : w.polled (m :: rest) = (if isPoll m then w.result.toList else []) ++ w'.polled rest := by
        simp [polled, moved]
      have mine : ∀ r ∈ if isPoll m then w.result.toList else [], last < r.1 ∧ r.1 = last' := by
        intro r inside
        cases polls : isPoll m with
        | false => simp [polls] at inside
        | true =>
          have held : w.result = some r := by simpa [polls] using inside
          exact ⟨(ordered.result r.1 r.2 held).1, by simp [next, polls, held]⟩
      rw [here, List.pairwise_append]
      refine ⟨fun r inside => ?_, ?_, rises, fun r inside r' inside' => ?_⟩
      · rcases List.mem_append.mp inside with polls | before
        · exact (mine r polls).1
        · exact later.trans_lt (above r before)
      · split <;> cases w.result <;> simp
      · rw [(mine r inside).2]
        exact above r' inside'

theorem init_ordered : (init α β).Ordered 0 := by
  constructor <;> simp [init]

theorem error_stays {moves : List (Move α β)} {t : ℕ} {e : String} (held : w.result = some (t, .error e))
    (open_ : ∀ m ∈ moves, isPoll m = false ∧ m ≠ .close) (h : w.run moves = some w') : w'.result = some (t, .error e) := by
  induction moves generalizing w with
  | nil =>
    cases h
    exact held
  | cons m rest ih =>
    obtain ⟨w₁, moved, later⟩ := Option.bind_eq_some_iff.mp h
    have stays : w₁.result = some (t, .error e) := by
      cases m with
      | submit =>
        cases moved
        exact held
      | take =>
        obtain ⟨job, -, -, -, rfl⟩ := take_some moved
        exact held
      | finish outcome =>
        obtain ⟨t', p, -, rfl⟩ := finish_some moved
        simp [unpolledError, held]
      | poll => exact absurd (open_ .poll (by simp)).1 (by simp [isPoll])
      | close => exact absurd rfl (open_ .close (by simp)).2
    exact ih stays (fun m inside => open_ m (by simp [inside])) later

theorem run_snoc (moves : List (Move α β)) (m : Move α β) : w.run (moves ++ [m]) = (w.run moves).bind fun w' => w'.step m := by
  simp [run, List.foldlM_append]

end Worker

section fate
variable {α β : Type} {moves : List (Move α β)} {m m' : Move α β} {w : Worker α β} {P : Worker α β → Prop}

theorem Was.more (was : Was moves m P) (m' : Move α β) : Was (moves ++ [m']) m P := by
  obtain ⟨before, after, w, rfl, runs, holds⟩ := was
  exact ⟨before, after ++ [m'], w, by simp, runs, holds⟩

theorem Was.now (runs : (Worker.init α β).run moves = some w) (holds : P w) (m : Move α β) : Was (moves ++ [m]) m P :=
  ⟨moves, [], w, rfl, runs, holds⟩

structure Known (moves : List (Move α β)) (w : Worker α β) : Prop where
  pending : ∀ t p, w.pending = some (t, p) → Was moves (.submit p) fun w' => w'.generation + 1 = t
  active : ∀ t p, w.active = some (t, p) → Was moves (.submit p) fun w' => w'.generation + 1 = t
  result : ∀ t o, w.result = some (t, o) → ∃ p, Was moves (.submit p) (fun w' => w'.generation + 1 = t) ∧
    Was moves (.finish o) fun w' => w'.active = some (t, p)

def Fate (moves : List (Move α β)) (w : Worker α β) : Prop :=
  w.generation = 0 ∨ (∃ p, w.pending = some (w.generation, p)) ∨ (∃ p, w.active = some (w.generation, p)) ∨
    (∃ o, w.result = some (w.generation, o)) ∨ Was moves .poll (fun w' => ∃ o, w'.result = some (w.generation, o)) ∨
    ∃ o t e, t < w.generation ∧
      Was moves (.finish o) fun w' => (∃ p, w'.active = some (w.generation, p)) ∧ w'.result = some (t, .error e)

theorem run_known (runs : (Worker.init α β).run moves = some w) : Known moves w := by
  induction moves using List.reverseRecOn generalizing w with
  | nil =>
    cases runs
    constructor <;> simp [Worker.init]
  | append_singleton before m ih =>
    rw [Worker.run_snoc] at runs
    obtain ⟨w₁, earlier, moved⟩ := Option.bind_eq_some_iff.mp runs
    have known := ih earlier
    have keeps : ∀ t o, w₁.result = some (t, o) → ∃ p, Was (before ++ [m]) (.submit p) (fun w' => w'.generation + 1 = t) ∧
        Was (before ++ [m]) (.finish o) fun w' => w'.active = some (t, p) := by
      intro t o done
      obtain ⟨p, submitted, finished⟩ := known.result t o done
      exact ⟨p, submitted.more m, finished.more m⟩
    cases m with
    | submit payload =>
      cases moved
      refine ⟨fun t p waits => ?_, fun t p builds => (known.active t p builds).more _, keeps⟩
      cases waits
      exact Was.now (P := fun w' => w'.generation + 1 = w₁.generation + 1) earlier rfl _
    | take =>
      obtain ⟨job, -, waits, -, rfl⟩ := Worker.take_some moved
      refine ⟨by simp, fun t p builds => ?_, keeps⟩
      cases builds
      exact (known.pending t p waits).more _
    | finish outcome =>
      obtain ⟨t, p, builds, rfl⟩ := Worker.finish_some moved
      refine ⟨fun t p waits => (known.pending t p waits).more _, by simp, fun t' o done => ?_⟩
      dsimp only at done
      split at done
      · exact keeps t' o done
      · cases done
        exact ⟨p, (known.active t p builds).more _, Was.now earlier builds _⟩
    | poll =>
      cases moved
      exact ⟨fun t p waits => (known.pending t p waits).more _, fun t p builds => (known.active t p builds).more _,
        by simp [Worker.poll]⟩
    | close =>
      cases moved
      exact ⟨by simp [Worker.close], fun t p builds => (known.active t p builds).more _, by simp [Worker.close]⟩

theorem run_ordered (runs : (Worker.init α β).run moves = some w) : ∃ last, w.Ordered last := by
  induction moves using List.reverseRecOn generalizing w with
  | nil =>
    cases runs
    exact ⟨0, Worker.init_ordered⟩
  | append_singleton before m ih =>
    rw [Worker.run_snoc] at runs
    obtain ⟨w₁, earlier, moved⟩ := Option.bind_eq_some_iff.mp runs
    obtain ⟨last, ordered⟩ := ih earlier
    obtain ⟨last', ordered', -⟩ := Worker.step_ordered ordered moved
    exact ⟨last', ordered'⟩

theorem fate_past {w' : Worker α β} (same : w'.generation = w.generation) (m : Move α β)
    (past : Was moves .poll (fun w' => ∃ o, w'.result = some (w.generation, o)) ∨
      ∃ o t e, t < w.generation ∧
        Was moves (.finish o) fun w' => (∃ p, w'.active = some (w.generation, p)) ∧ w'.result = some (t, .error e)) :
    Fate (moves ++ [m]) w' := by
  refine .inr (.inr (.inr (.inr ?_)))
  rw [same]
  rcases past with polled | ⟨o, t, e, before, dropped⟩
  · exact .inl (polled.more m)
  · exact .inr ⟨o, t, e, before, dropped.more m⟩

theorem run_going (runs : (Worker.init α β).run moves = some w) (going : .close ∉ moves) : w.stopping = false := by
  induction moves using List.reverseRecOn generalizing w with
  | nil =>
    cases runs
    rfl
  | append_singleton before m ih =>
    rw [Worker.run_snoc] at runs
    obtain ⟨w₁, earlier, moved⟩ := Option.bind_eq_some_iff.mp runs
    have open_ := ih earlier fun inside => going (by simp [inside])
    cases m with
    | submit => cases moved; exact open_
    | take =>
      obtain ⟨job, -, -, -, rfl⟩ := Worker.take_some moved
      exact open_
    | finish outcome =>
      obtain ⟨t, p, -, rfl⟩ := Worker.finish_some moved
      exact open_
    | poll => cases moved; exact open_
    | close => exact absurd (by simp) going

theorem unpolledError_true (error : w.unpolledError = true) : ∃ t e, w.result = some (t, .error e) := by
  unfold Worker.unpolledError at error
  split at error
  next t e held => exact ⟨t, e, held⟩
  next => cases error

theorem run_fate (runs : (Worker.init α β).run moves = some w) (going : .close ∉ moves) : Fate moves w := by
  induction moves using List.reverseRecOn generalizing w with
  | nil =>
    cases runs
    exact .inl rfl
  | append_singleton before m ih =>
    rw [Worker.run_snoc] at runs
    obtain ⟨w₁, earlier, moved⟩ := Option.bind_eq_some_iff.mp runs
    obtain ⟨last, ordered⟩ := run_ordered earlier
    have fate := ih earlier fun inside => going (by simp [inside])
    cases m with
    | submit payload =>
      cases moved
      exact .inr (.inl ⟨payload, rfl⟩)
    | take =>
      obtain ⟨⟨t, p⟩, idle, waits, -, rfl⟩ := Worker.take_some moved
      obtain ⟨-, newest⟩ := ordered.pending t p waits
      exact .inr (.inr (.inl ⟨p, by rw [newest]⟩))
    | finish outcome =>
      obtain ⟨t, p, builds, rfl⟩ := Worker.finish_some moved
      rcases fate with none_ | ⟨p', waits⟩ | ⟨p', active⟩ | ⟨o, done⟩ | past
      · exact .inl none_
      · exact .inr (.inl ⟨p', waits⟩)
      · -- the last payload is completed, or dropped for an error that is there
        rw [builds] at active
        cases active
        cases error : w₁.unpolledError with
        | false =>
          refine .inr (.inr (.inr (.inl ⟨outcome, ?_⟩)))
          simp [run_going earlier fun inside => going (by simp [inside])]
        | true =>
          obtain ⟨t, e, held⟩ := unpolledError_true error
          have before_ : t < w₁.generation := (ordered.result t _ held).2.2.1 _ _ builds
          exact .inr (.inr (.inr (.inr (.inr ⟨outcome, t, e, before_, Was.now earlier ⟨⟨p, builds⟩, held⟩ _⟩))))
      · have later : w₁.generation < t := (ordered.result _ _ done).2.2.1 t p builds
        have known : t ≤ w₁.generation := (ordered.active t p builds).2.1
        omega
      · exact fate_past rfl _ past
    | poll =>
      cases moved
      rcases fate with none_ | ⟨p', waits⟩ | ⟨p', active⟩ | ⟨o, done⟩ | past
      · exact .inl none_
      · exact .inr (.inl ⟨p', waits⟩)
      · exact .inr (.inr (.inl ⟨p', active⟩))
      · exact .inr (.inr (.inr (.inr (.inl (Was.now earlier ⟨o, done⟩ _)))))
      · exact fate_past rfl _ past
    | close => exact absurd (by simp) going

end fate

section node
variable {session : Session} {n n' : Node}

structure Node.Sound (n : Node) : Prop where
  last : n.completed = n.completions.getLast?
  rise : n.completions.Pairwise fun a a' => a.revision < a'.revision
  requested : ∀ a ∈ n.completions, ∃ m, n.requested = some m ∧ a.revision ≤ m.revision
  statuses : ∀ s ∈ n.statuses, s.completedMapRevision ≤ s.graphRevision
  follow : n.statuses.Pairwise fun s s' => s.completedMapRevision ≤ s'.completedMapRevision
  shown : ∀ s ∈ n.statuses, s.completedMapRevision ≤ (n.completed.map Assembled.revision).getD 0

theorem fail_sound (sound : n.Sound) (reason : String) : (n.fail reason).Sound :=
  ⟨sound.last, sound.rise, sound.requested, sound.statuses, sound.follow, sound.shown⟩

theorem worker_sound (sound : n.Sound) (w : Worker Message Assembled) : { n with worker := w }.Sound :=
  ⟨sound.last, sound.rise, sound.requested, sound.statuses, sound.follow, sound.shown⟩

theorem accept_sound (sound : n.Sound) (m : Message) (later : ∀ r, n.requested = some r → r.revision ≤ m.revision) :
    (n.accept m).Sound := by
  unfold Node.accept
  split
  · refine ⟨sound.last, sound.rise, fun a inside => ?_, sound.statuses, sound.follow, sound.shown⟩
    obtain ⟨r, requested, below⟩ := sound.requested a inside
    exact ⟨m, rfl, below.trans (later r requested)⟩
  · exact fail_sound sound _

theorem graph_sound (sound : n.Sound) (m : Message) : (n.graph session m).Sound := by
  unfold Node.graph
  split
  · exact sound
  · split
    · exact fail_sound sound _
    · cases requested : n.requested with
      | none => exact accept_sound sound m (by simp [requested])
      | some r =>
        dsimp only
        split
        · exact fail_sound sound _
        · split
          · exact sound
          · split
            · exact fail_sound sound _
            · next forward =>
              refine accept_sound sound m fun r' same => ?_
              rw [requested] at same
              cases same
              omega

theorem completed_last {a last : Assembled} (sound : n.Sound) (there : n.completed = some last) (inside : a ∈ n.completions) :
    a.revision ≤ last.revision := by
  have final := sound.last
  rw [there] at final
  obtain ⟨before, parts⟩ := List.getLast?_eq_some_iff.mp final.symm
  have rise := sound.rise
  rw [parts] at rise inside
  rcases List.mem_append.mp inside with earlier | same
  · exact ((List.pairwise_append.mp rise).2.2 a earlier last (by simp)).le
  · rw [List.mem_singleton.mp same]

theorem complete_sound {publishing : Option String} (sound : n.Sound) (assembled : Assembled) :
    (n.complete session publishing assembled).Sound := by
  unfold Node.complete
  dsimp only
  split
  · exact fail_sound sound _
  · cases requested : n.requested with
    | none => exact fail_sound sound _
    | some r =>
      dsimp only
      split
      · exact fail_sound sound _
      · next known =>
        split
        · next newer =>
          cases publishing with
          | some e => exact fail_sound sound e
          | none =>
            have below : assembled.revision ≤ r.revision := by
              by_contra above
              exact known (.inr (by omega))
            have earlier : ∀ a ∈ n.completions, a.revision < assembled.revision := by
              intro a inside
              cases there : n.completed with
              | none =>
                have nothing : n.completions = [] := List.getLast?_eq_none_iff.mp (sound.last.symm.trans there)
                simp [nothing] at inside
              | some last =>
                have before : last.revision < assembled.revision := by simpa [there] using newer
                exact (completed_last sound there inside).trans_lt before
            refine ⟨by simp, ?_, fun a inside => ?_, sound.statuses, sound.follow, fun s inside => ?_⟩
            · exact List.pairwise_append.mpr ⟨sound.rise, by simp, fun a inside b last => by
                rw [List.mem_singleton.mp last]
                exact earlier a inside⟩
            · rcases List.mem_append.mp inside with before | last
              · obtain ⟨m, same, least⟩ := sound.requested a before
                rw [requested] at same
                exact ⟨m, same, least⟩
              · rw [List.mem_singleton.mp last]
                exact ⟨r, rfl, below⟩
            · have old := sound.shown s inside
              cases there : n.completed with
              | none =>
                rw [there] at old
                exact old.trans (Nat.zero_le _)
              | some last =>
                rw [there] at old
                have before : last.revision < assembled.revision := by simpa [there] using newer
                exact old.trans before.le
        · exact sound

theorem finished_sound {publishing : Option String} (sound : n.Sound) (r : Option (ℕ × Except String Assembled)) :
    (n.finished session publishing r).Sound := by
  cases r with
  | none => exact sound
  | some r =>
    obtain ⟨t, outcome⟩ := r
    unfold Node.finished
    dsimp only
    split
    · exact sound
    · cases outcome with
      | error e => exact fail_sound sound _
      | ok assembled => exact complete_sound sound assembled

theorem tick_sound {publishing : Option String} {frontend : Option Frontend} (sound : n.Sound) :
    (n.tick session publishing frontend).Sound := by
  have sound' : (Node.finished session publishing { n with worker := n.worker.poll } n.worker.result).Sound :=
    finished_sound (worker_sound sound _) _
  unfold Node.tick
  generalize Node.finished session publishing { n with worker := n.worker.poll } n.worker.result = n₁ at sound'
  refine ⟨sound'.last, sound'.rise, sound'.requested, fun s inside => ?_, ?_, fun s inside => ?_⟩
  · rcases List.mem_append.mp inside with before | last
    · exact sound'.statuses s before
    · rw [List.mem_singleton.mp last]
      cases there : n₁.completed with
      | none => simp [Node.status, there]
      | some a =>
        obtain ⟨m, requested, below⟩ := sound'.requested a (List.mem_of_getLast? (sound'.last.symm.trans there))
        simpa [Node.status, there, requested] using below
  · refine List.pairwise_append.mpr ⟨sound'.follow, by simp, fun s inside s' last => ?_⟩
    rw [List.mem_singleton.mp last]
    exact sound'.shown s inside
  · rcases List.mem_append.mp inside with before | last
    · exact sound'.shown s before
    · rw [List.mem_singleton.mp last]
      exact le_rfl

theorem step_sound {e : Event} (sound : n.Sound) (h : n.step session e = some n') : n'.Sound := by
  cases e with
  | graph m =>
    cases h
    exact graph_sound sound m
  | tick publishing frontend =>
    cases h
    exact tick_sound sound
  | take =>
    obtain ⟨w, -, rfl⟩ := Option.map_eq_some_iff.mp h
    exact worker_sound sound w
  | finish outcome =>
    obtain ⟨w, -, rfl⟩ := Option.map_eq_some_iff.mp h
    exact worker_sound sound w
  | destroy =>
    cases h
    exact worker_sound sound _

theorem Node.run_sound {events : List Event} (runs : Node.init.run session events = some n) : n.Sound := by
  have sound : Node.init.Sound := by constructor <;> simp [Node.init]
  exact (Effect.Path.events runs).keeps (fun _ _ moved before => moved.elim fun _ h => step_sound before h) sound

theorem finished_worker (publishing : Option String) (r : Option (ℕ × Except String Assembled)) :
    (n.finished session publishing r).worker = n.worker := by
  rcases r with _ | ⟨t, e | assembled⟩
  · rfl
  · simp only [Node.finished]
    split <;> rfl
  · simp only [Node.finished, Node.complete]
    repeat' split
    all_goals rfl

theorem accept_worker (m : Message) : (n.accept m).worker = n.worker ∨ (n.accept m).worker = n.worker.submit m := by
  unfold Node.accept
  split
  · exact .inr rfl
  · exact .inl rfl

theorem graph_worker (session : Session) (n : Node) (m : Message) : (n.graph session m).worker = n.worker ∨ (n.graph session m).worker = n.worker.submit m := by
  unfold Node.graph
  repeat' split
  all_goals first | exact .inl rfl | exact accept_worker m

theorem step_worker {e : Event} (h : n.step session e = some n') : ∃ moves, n.worker.run moves = some n'.worker := by
  cases e with
  | graph m =>
    cases h
    rcases graph_worker session n m with same | submits
    · exact ⟨[], by rw [same]; rfl⟩
    · exact ⟨[.submit m], by rw [submits]; rfl⟩
  | tick publishing frontend =>
    cases h
    refine ⟨[.poll], ?_⟩
    have same : (n.tick session publishing frontend).worker = n.worker.poll := finished_worker _ _
    rw [same]
    rfl
  | take =>
    obtain ⟨w, takes, rfl⟩ := Option.map_eq_some_iff.mp h
    exact ⟨[.take], by simp [Worker.run, Worker.step, takes]⟩
  | finish outcome =>
    obtain ⟨w, finishes, rfl⟩ := Option.map_eq_some_iff.mp h
    exact ⟨[.finish outcome], by simp [Worker.run, Worker.step, finishes]⟩
  | destroy =>
    cases h
    exact ⟨[.close], rfl⟩

theorem Node.run_worker {events : List Event} (runs : Node.init.run session events = some n) :
    ∃ moves, (Worker.init Message Assembled).run moves = some n.worker := by
  refine (Effect.Path.events runs).keeps (P := fun n => ∃ moves, (Worker.init Message Assembled).run moves = some n.worker)
    (fun n n' moved before => ?_) ⟨[], rfl⟩
  obtain ⟨e, h⟩ := moved
  obtain ⟨moves, earlier⟩ := before
  obtain ⟨more, later⟩ := step_worker h
  refine ⟨moves ++ more, ?_⟩
  rw [Worker.run, List.foldlM_append]
  exact Option.bind_eq_some_iff.mpr ⟨_, earlier, later⟩

end node

/-- The worker: tokens of polls rise; an error stays until it is polled; a completed result is what the build of its
payload gave; and while the worker is idle, the last payload's outcome is there, was polled, or was dropped for an
earlier error. The node: maps and statuses follow the order of their revisions, none above the requested one. -/
theorem latest_rebuilt :
    (∀ (α β : Type) moves w, (Worker.init α β).run moves = some w →
      ((Worker.init α β).polled moves).Pairwise (fun r r' => r.1 < r'.1) ∧
      (∀ more w' t e, w.result = some (t, .error e) → (∀ m ∈ more, Worker.isPoll m = false ∧ m ≠ .close) →
        w.run more = some w' → w'.result = some (t, .error e)) ∧
      (∀ t o, w.result = some (t, o) → ∃ p, Was moves (.submit p) (fun w' => w'.generation + 1 = t) ∧
        Was moves (.finish o) fun w' => w'.active = some (t, p)) ∧
      (.close ∉ moves → w.pending = none → w.active = none → 0 < w.generation →
        (∃ o, w.result = some (w.generation, o)) ∨ Was moves .poll (fun w' => ∃ o, w'.result = some (w.generation, o)) ∨
          ∃ o t e, t < w.generation ∧
            Was moves (.finish o) fun w' => (∃ p, w'.active = some (w.generation, p)) ∧ w'.result = some (t, .error e))) ∧
    ∀ session events n, Node.init.run session events = some n →
      (∃ moves, (Worker.init Message Assembled).run moves = some n.worker) ∧
      n.completed = n.completions.getLast? ∧
      (n.completions.Pairwise fun a a' => a.revision < a'.revision) ∧
      (∀ a ∈ n.completions, ∃ m, n.requested = some m ∧ a.revision ≤ m.revision) ∧
      (∀ s ∈ n.statuses, s.completedMapRevision ≤ s.graphRevision) ∧
      n.statuses.Pairwise fun s s' => s.completedMapRevision ≤ s'.completedMapRevision := by
  refine ⟨fun α β moves w runs => ⟨(Worker.polled_rise moves Worker.init_ordered).2, ?_, (run_known runs).result, ?_⟩, ?_⟩
  · exact fun more w' t e held open_ later => Worker.error_stays held open_ later
  · intro going waits idle some_
    rcases run_fate runs going with none_ | ⟨p, pending⟩ | ⟨p, active⟩ | rest
    · omega
    · rw [waits] at pending
      cases pending
    · rw [idle] at active
      cases active
    · exact rest
  · intro session events n runs
    have sound := Node.run_sound runs
    exact ⟨Node.run_worker runs, sound.last, sound.rise, sound.requested, sound.statuses, sound.follow⟩

/-- A rebuild fails, and its error is polled only after the next one is completed: nothing is left of the last payload. -/
theorem bench_last_dropped : ¬∀ moves w, (Worker.init ℕ ℕ).run moves = some w → w.pending = none → w.active = none →
    0 < w.generation → (∃ o, w.result = some (w.generation, o)) ∨ (∃ t e, t < w.generation ∧ w.result = some (t, .error e)) ∨
      ∃ r ∈ (Worker.init ℕ ℕ).polled moves, r.1 = w.generation := by
  intro kept
  have left := kept [.submit 5, .take, .finish (.error "failed"), .submit 6, .take, .finish (.ok 6), .poll] _ rfl rfl rfl
    (by decide)
  rcases left with ⟨o, held⟩ | ⟨t, e, -, held⟩ | ⟨r, inside, last⟩
  · cases held
  · cases held
  · have first : r = (1, .error "failed") := List.mem_singleton.mp inside
    rw [first] at last
    cases last

end Smartwheel.Maps.Live
