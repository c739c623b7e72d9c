import Smartwheel.Manual.WriteGuard

/-! Disarmed means stopped: motion that may exist keeps the session armed or faulted, and is only
declared over inside a `stop` that found the chair still. -/
namespace Smartwheel.Manual

variable {contract : ManualContract} {calm : Prop} {w w' : World}

/-- Holds at every moment, also inside a `stop`. -/
def Accounted (w : World) : Prop :=
  w.channel.motionMayExist = true →
    w.session.state = .armed ∨ w.session.state = .fault ∨ w.channel.stopping = true

theorem accounted_step (hcalm : calm) (h : Move contract calm w w') (hw : Accounted w) :
    Accounted w' := by
  intro hm
  cases h with
  | observe es hs hc ht he =>
    rw [hc] at hm ⊢
    rw [hs]
    exact hw hm
  | keep f hs =>
    change (f w.session).state = _ ∨ (f w.session).state = _ ∨ _
    rw [hs]
    exact hw hm
  | book f hm' hf ha hp =>
    change _ ∨ _ ∨ (f w.channel).stopping = true
    rw [hp]
    exact hw (hm'.symm.trans hm)
  | motion hs hf => exact .inl hs
  | state s hs =>
    rcases hs with rfl | ⟨rfl, _⟩
    · exact .inr (.inl rfl)
    · exact .inl rfl
  | beginStop => exact .inr (.inr rfl)
  | conclude h => exact .inr (.inl (h hcalm hm))
  | clear => cases hm
  | write | fail | attempt | recover | stopped => exact hw hm

/-- From `w0` on: either motion may still exist, or it was declared over in a `stop` that found the
chair still. -/
def Pursued (contract : ManualContract) (w0 w : World) : Prop :=
  ∃ new, w.trace = new ++ w0.trace ∧ (w.channel.motionMayExist = true ∨
    ∃ later earlier, new = later ++ .motionCleared :: earlier ∧
      StoppedStill contract (earlier ++ w0.trace))

theorem Pursued.grow {w0 : World} (hp : Pursued contract w0 w) {es : History}
    (ht : w'.trace = es ++ w.trace)
    (hm : w.channel.motionMayExist = true → w'.channel.motionMayExist = true) :
    Pursued contract w0 w' := by
  obtain ⟨new, hn, hc⟩ := hp
  refine ⟨es ++ new, by rw [ht, hn, List.append_assoc], ?_⟩
  rcases hc with hc | ⟨later, earlier, hl, hs⟩
  · exact .inl (hm hc)
  · exact .inr ⟨es ++ later, earlier, by rw [hl, List.append_assoc], hs⟩

theorem Pursued.quiet {w0 : World} (hp : Pursued contract w0 w) (ht : w'.trace = w.trace)
    (hm : w.channel.motionMayExist = true → w'.channel.motionMayExist = true) :
    Pursued contract w0 w' := hp.grow (by rw [ht, List.nil_append]) hm

theorem Pursued.log {w0 : World} {e : Event} (hp : Pursued contract w0 w) (ht : w'.trace = e :: w.trace)
    (hm : w.channel.motionMayExist = true → w'.channel.motionMayExist = true) :
    Pursued contract w0 w' := hp.grow (by rw [ht, List.singleton_append]) hm

theorem pursued_step {w0 : World} (h : Move contract calm w w') (hp : Pursued contract w0 w) :
    Pursued contract w0 w' := by
  cases h with
  | observe es hs hc ht he => exact hp.grow ht fun hm => by rw [hc]; exact hm
  | keep | conclude => exact hp.quiet rfl id
  | book f hm hf ha hp' => exact hp.quiet rfl fun h => hm.trans h
  | motion => exact hp.quiet rfl fun _ => rfl
  | write | fail | attempt | recover | state | beginStop | stopped => exact hp.log rfl id
  | clear hf hs =>
    obtain ⟨new, hn, _⟩ := hp
    refine ⟨.motionCleared :: new, by rw [← List.cons_append.symm, ← hn]; rfl, .inr ⟨[], new, rfl, ?_⟩⟩
    rw [← hn]
    exact hs

theorem run_idle (env : Env) (contract : ManualContract) (ops : List Operation)
    (hr : (run env contract ops initial).1 ≠ .cut) :
    (run env contract ops initial).2.channel.stopping = false := by
  have goes : Does env contract (run env contract ops) (fun _ _ => True) initial := run_goes ops
  rw [Bool.eq_false_iff]
  intro hs
  cases ho : (run env contract ops initial).1 with
  | value a => simpa [initial] using (goes.value ho).1 hs
  | raised e => simpa [initial] using (goes.raised ho).1 hs
  | cut => exact hr ho

/-- Between operations motion may exist only in `ARMED` or `FAULT`; an operation that ends it has, in a
`stop`, had the zero frame acknowledged, three newest readings within bound, and every state check
matched after them. -/
theorem disarmed_means_stopped (env : Env) (calm : env.ExceptionsOnly) (contract : ManualContract)
    (ops : List Operation) (hr : (run env contract ops initial).1 ≠ .cut) :
    let w := (run env contract ops initial).2
    (w.channel.motionMayExist = true → w.session.state = .armed ∨ w.session.state = .fault) ∧
    ∀ o, w.channel.motionMayExist = true →
      (operate env contract o w).2.channel.motionMayExist = false →
      ∃ later earlier, (operate env contract o w).2.trace =
          later ++ .motionCleared :: (earlier ++ w.trace) ∧
        StoppedStill contract (earlier ++ w.trace) := by
  intro w
  constructor
  · intro hm
    have accounted : Accounted w :=
      (run_goes ops).path.keeps (fun _ _ => accounted_step calm) (by simp [Accounted, initial])
    rcases accounted hm with h | h | h
    · exact .inl h
    · exact .inr h
    · rw [run_idle env contract ops hr] at h; cases h
  · intro o hm hm'
    have pursued : Pursued contract w (operate env contract o w).2 :=
      (operate_goes o).path.keeps (fun _ _ => pursued_step) ⟨[], rfl, .inl hm⟩
    obtain ⟨new, hn, hc⟩ := pursued
    rcases hc with hc | ⟨later, earlier, hl, hs⟩
    · rw [hc] at hm'; cases hm'
    · exact ⟨later, earlier, by rw [hn, hl]; simp, hs⟩

/-- On the bench a `stop` ends the motion. -/
theorem bench_stopped :
    (run Bench.environment Bench.contract Bench.drive initial).2.session.state = .armed ∧
    ∃ later earlier, (operate Bench.environment Bench.contract (.stop "USER_EXIT" false)
        (run Bench.environment Bench.contract Bench.drive initial).2).2.trace =
          later ++ .motionCleared :: (earlier ++
            (run Bench.environment Bench.contract Bench.drive initial).2.trace) ∧
      StoppedStill Bench.contract
        (earlier ++ (run Bench.environment Bench.contract Bench.drive initial).2.trace) := by
  have ends := disarmed_means_stopped Bench.environment Bench.environment_calm Bench.contract
    Bench.drive (by decide +kernel)
  have moving : (run Bench.environment Bench.contract Bench.drive initial).2.channel.motionMayExist = true := by
    decide +kernel
  refine ⟨(ends.1 moving).resolve_right (by decide +kernel), ?_⟩
  exact ends.2 (.stop "USER_EXIT" false) moving (by decide +kernel)

end Smartwheel.Manual
