import Smartwheel.Feedback.PollerSpec

/-! Runs of the poller: every query is planned and numbered, the completed samples are numbered without a gap, and
after a failure nothing is written. -/
namespace Smartwheel.Feedback
open Modbus Effect

variable {c : PollConfig} {w w' : World}

def countdown (n : Nat) : List Nat := (List.range n).reverse

theorem countdown_succ (n : Nat) : countdown (n + 1) = n :: countdown n := by
  unfold countdown
  rw [List.range_succ, List.reverse_append]
  rfl

def queries (n : Nat) : List (Nat × Bytes) := (countdown n).map fun k => (k, query)

theorem queries_succ (n : Nat) : queries (n + 1) = (n, query) :: queries n := by
  unfold queries
  rw [countdown_succ]
  rfl

structure Polled (w : World) : Prop where
  planned : Always Planned w.trace
  done : ∃ n ws cs, writes w.trace = ws ++ queries n ∧ completes w.trace = cs ++ countdown n ∧
    (ws = [] ∨ ∃ bytes, ws = [(n, bytes)]) ∧ (cs = [] ∨ cs = [n]) ∧
    (w.failed = false → n = w.sequence ∧ ws = [] ∧ cs = [])

theorem initial_polled (leaseOpen : Bool) : Polled (.initial leaseOpen) :=
  ⟨trivial, 0, [], [], rfl, rfl, .inl rfl, .inl rfl, fun _ => ⟨rfl, rfl, rfl⟩⟩

theorem Ended.writes_eq {ws : List (Nat × Bytes)} {cs : List Nat} {returned : Bool} (h : Ended w w' ws cs returned) :
    writes w'.trace = ws ++ writes w.trace ∧ completes w'.trace = cs ++ completes w.trace := by
  obtain ⟨events, trace, written, completed, -⟩ := h.events
  rw [trace, writes_append, completes_append, written, completed]
  exact ⟨rfl, rfl⟩

theorem sample_polled (env : Env) (h : Polled w) : Polled (sample env c w).2 := by
  have goes := @sample_goes env c w h.planned
  obtain ⟨n, ws, cs, written, completed, single, complete, alive⟩ := h.done
  cases outcome : (sample env c w).1 with
  | value record =>
    obtain ⟨-, sound, sequence, ended⟩ := goes.value outcome
    obtain ⟨rfl, rfl, rfl⟩ := alive sound
    obtain ⟨written', completed'⟩ := ended.writes_eq
    refine ⟨ended.planned, w.sequence + 1, [], [], ?_, ?_, .inl rfl, .inl rfl, fun _ => ⟨sequence.symm, rfl, rfl⟩⟩
    · rw [written', written, queries_succ]
      rfl
    · rw [completed', completed, countdown_succ]
      rfl
  | raised failure =>
    obtain ⟨-, still, failed, sequence, ws', cs', ended, single', complete'⟩ := goes.raised outcome
    cases dead : w.failed with
    | true =>
      rw [still dead]
      exact h
    | false =>
      obtain ⟨rfl, rfl, rfl⟩ := alive dead
      obtain ⟨written', completed'⟩ := ended.writes_eq
      refine ⟨ended.planned, w.sequence, ws', cs', ?_, ?_, single', complete', fun sound => ?_⟩
      · rw [written', written]
        rfl
      · rw [completed', completed]
        rfl
      · rw [failed] at sound
        cases sound
  | cut => exact absurd outcome (goes.uncut id)

theorem polled_path {leaseOpen : Bool} (run : Path (PollStep c) (.initial leaseOpen) w) : Polled w := by
  refine run.keeps (fun _ _ step h => ?_) (initial_polled leaseOpen)
  cases step with
  | sample env => exact sample_polled env h
  | lease leaseOpen => exact ⟨h.planned, h.done⟩

theorem failed_path (run : Path (PollStep c) w w') (planned : Always Planned w.trace) (failed : w.failed = true) :
    w'.trace = w.trace := by
  have kept : w'.failed = true ∧ w'.trace = w.trace := by
    refine run.keeps (P := fun v => v.failed = true ∧ v.trace = w.trace) (fun a b step h => ?_) ⟨failed, rfl⟩
    cases step with
    | sample env =>
      have goes := @sample_goes env c a (h.2 ▸ planned)
      have same : (sample env c a).2 = a := by
        cases outcome : (sample env c a).1 with
        | value record =>
          have alive := (goes.value outcome).2.1
          rw [h.1] at alive
          cases alive
        | raised failure => exact (goes.raised outcome).2.1 h.1
        | cut => exact absurd outcome (goes.uncut id)
      rw [same]
      exact h
    | lease leaseOpen => exact h
  exact kept.2

theorem write_of_mem {h : History} {sequence : Nat} {bytes : Bytes} (mem : (sequence, bytes) ∈ writes h) :
    ∃ later earlier, h = later ++ .write sequence bytes :: earlier := by
  induction h with
  | nil => cases mem
  | cons e h ih =>
    have later (mem : (sequence, bytes) ∈ writes h) : ∃ later earlier, e :: h = later ++ .write sequence bytes :: earlier := by
      obtain ⟨later, earlier, rfl⟩ := ih mem
      exact ⟨e :: later, earlier, rfl⟩
    cases e with
    | write sequence' bytes' =>
      rcases List.mem_cons.mp mem with same | mem
      · obtain ⟨rfl, rfl⟩ := Prod.mk.inj same
        exact ⟨[], h, rfl⟩
      · exact later mem
    | _ => exact later mem

theorem sample_returns (env : Env) (planned : Always Planned w.trace) :
    ∃ events, (sample env c w).2.trace = events ++ w.trace ∧
      ((∃ record, (sample env c w).1 = .value record) ↔
        (∃ reply, received events = some reply ∧ Valid reply) ∧ ∀ e ∈ events, e.refused = false) ∧
      ((∃ record, (sample env c w).1 = .value record) ∨ (sample env c w).2.failed = true) := by
  have goes := @sample_goes env c w planned
  cases outcome : (sample env c w).1 with
  | value record =>
    obtain ⟨-, -, -, ended⟩ := goes.value outcome
    obtain ⟨events, trace, -, -, returned⟩ := ended.events
    exact ⟨events, trace, ⟨fun _ => returned.mp rfl, fun _ => ⟨record, rfl⟩⟩, .inl ⟨record, rfl⟩⟩
  | raised failure =>
    obtain ⟨-, -, failed, -, ws, cs, ended, -⟩ := goes.raised outcome
    obtain ⟨events, trace, -, -, returned⟩ := ended.events
    refine ⟨events, trace, ⟨fun ⟨record, value⟩ => (by cases value), fun valid => ?_⟩, .inr failed⟩
    have no := returned.mpr valid
    cases no
  | cut => exact absurd outcome (goes.uncut id)

/-- The poller writes queries alone, each planned in the journal and numbered as planned, only the last of them cut;
completed samples are numbered from zero without a gap; a sample comes back exactly where one valid reply was
received, in whatever chunks, and no journal call has raised; and after a failure nothing is written. -/
theorem polling_write_ahead {leaseOpen : Bool} (run : Path (PollStep c) (.initial leaseOpen) w) :
    (∃ n last, (writes w.trace).reverse = (List.range n).map (fun k => (k, query)) ++ last ∧
      (last = [] ∨ ∃ bytes, last = [(n, bytes)] ∧ List.IsPrefix bytes query)) ∧
    (∀ later sequence bytes earlier, w.trace = later ++ .write sequence bytes :: earlier →
      Event.journal (.requestPlanned sequence) true false ∈ earlier) ∧
    (∃ n, (completes w.trace).reverse = List.range n) ∧
    (∀ env, ∃ events, (sample env c w).2.trace = events ++ w.trace ∧
      ((∃ record, (sample env c w).1 = .value record) ↔
        (∃ reply, received events = some reply ∧ Valid reply) ∧ ∀ e ∈ events, e.refused = false) ∧
      ((∃ record, (sample env c w).1 = .value record) ∨ (sample env c w).2.failed = true)) ∧
    (w.failed = true → ∀ w', Path (PollStep c) w w' → writes w'.trace = writes w.trace) := by
  have polled := polled_path run
  obtain ⟨n, ws, cs, written, completed, single, complete, -⟩ := polled.done
  refine ⟨⟨n, ws, ?_, ?_⟩, fun later sequence bytes earlier split => (polled.planned.split split).2, ?_, fun env =>
    sample_returns env polled.planned, fun failed w' later => congrArg writes (failed_path later polled.planned failed)⟩
  · have newest : ws.reverse = ws := by
      rcases single with rfl | ⟨bytes, rfl⟩ <;> rfl
    rw [written, List.reverse_append, newest, queries, countdown, List.map_reverse, List.reverse_reverse]
  · rcases single with none_ | ⟨bytes, one⟩
    · exact .inl none_
    · have mem : (n, bytes) ∈ writes w.trace := by
        rw [written, one]
        exact List.mem_cons_self ..
      obtain ⟨later, earlier, split⟩ := write_of_mem mem
      exact .inr ⟨bytes, one, (polled.planned.split split).1⟩
  · rcases complete with none_ | one
    · refine ⟨n, ?_⟩
      rw [completed, none_, List.nil_append, countdown, List.reverse_reverse]
    · refine ⟨n + 1, ?_⟩
      rw [completed, one, List.singleton_append, ← countdown_succ, countdown, List.reverse_reverse]

/-! A reply in two chunks, and a journal that is full when it comes. -/

namespace Bench

def timeout : PollConfig := ⟨1/10, by decide +kernel⟩

def reply : Bytes := withCrc [1, 3, 4, 0, 0, 0, 0]

/-- `full` says that the journal takes no completed sample. -/
def wheel (full : Bool) : Env where
  checkHealth _ := none
  journal
    | _, .transactionComplete .. => if full then .error (false, feedbackError "ASYNC_JOURNAL_QUEUE_FULL") else .ok ()
    | _, _ => .ok ()
  monotonic _ := 0
  selectRead h _ := .ok (received h).isSome
  selectWrite _ _ := .ok true
  osRead h := .ok (if received h = some [] then reply.take 4 else reply.drop 4)
  osWrite _ := .ok (Fin.last _)

def sampled (full : Bool) : World := (sample (wheel full) timeout (.initial true)).2

theorem samples (full : Bool) : Path (PollStep timeout) (.initial true) (sampled full) :=
  .single (.sample (wheel full))

theorem reply_valid : Valid reply := ⟨by decide +kernel, [0, 0], by decide +kernel⟩

end Bench

/-- A valid reply of nine bytes is received, and no sample comes back. -/
theorem full_journal : ∃ (c : PollConfig) (env : Env),
    (∃ reply, received (sample env c (.initial true)).2.trace = some reply ∧ Valid reply) ∧
      ∀ record, (sample env c (.initial true)).1 ≠ .value record := by
  refine ⟨Bench.timeout, Bench.wheel true, ⟨Bench.reply, by decide +kernel, Bench.reply_valid⟩, fun record value => ?_⟩
  have raised : (sample (Bench.wheel true) Bench.timeout (.initial true)).1 =
      .raised (.error (feedbackError "ASYNC_JOURNAL_QUEUE_FULL")) := by decide +kernel
  rw [raised] at value
  cases value

theorem bench_polling_write_ahead :
    (writes (Bench.sampled false).trace) = [(0, query)] ∧ ∃ n, (completes (Bench.sampled false).trace).reverse = List.range n :=
  ⟨by decide +kernel, (polling_write_ahead (Bench.samples false)).2.2.1⟩

end Smartwheel.Feedback
