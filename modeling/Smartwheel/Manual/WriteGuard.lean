import Smartwheel.Manual.Bench
import Smartwheel.Manual.SessionSpec

/-! Every nonzero velocity write of every run has passed its guard. -/
namespace Smartwheel.Manual
open Modbus Effect

def GuardedWrite (contract : ManualContract) : Event → History → Prop
  | .write request seen, earlier =>
    functionCode request = 0x10 → request ≠ zeroRequest → MotionGuard contract request seen earlier
  | _, _ => True

theorem guardedWrite_of_unguarded {contract : ManualContract} {e : Event} (h : e.guarded = false)
    (earlier : History) : GuardedWrite contract e earlier := by
  cases e <;> trivial

theorem writes_step {contract : ManualContract} {calm : Prop} {w w' : World}
    (h : Move contract calm w w') (hw : Always (GuardedWrite contract) w.trace) :
    Always (GuardedWrite contract) w'.trace := by
  cases h with
  | observe es hs hc ht he =>
    rw [ht]
    exact hw.append fun e hm => guardedWrite_of_unguarded (he e hm)
  | keep | book | motion | conclude => exact hw
  | write request hf hg => exact ⟨hg, hw⟩
  | recover hf ha hn => exact ⟨fun _ hz => absurd rfl hz, hw⟩
  | fail | attempt | state | beginStop | clear | stopped => exact ⟨trivial, hw⟩

/-- A velocity frame other than zero is written only by an armed, sound, running session for held keys
that are still fresh, after feedback and state checks of the same tick. -/
theorem nonzero_write_guarded (env : Env) (contract : ManualContract) (ops : List Operation)
    {request : Bytes} {seen : Machine} {later earlier : History}
    (h : (run env contract ops initial).2.trace = later ++ .write request seen :: earlier)
    (hf : functionCode request = 0x10) (hz : request ≠ zeroRequest) :
    MotionGuard contract request seen earlier := by
  have always : Always (GuardedWrite contract) (run env contract ops initial).2.trace :=
    (run_goes ops).path.keeps (P := fun w => Always (GuardedWrite contract) w.trace)
      (fun _ _ => writes_step) (show Always _ initial.trace from trivial)
  exact always.split h hf hz

def Event.isMotionWrite : Event → Bool
  | .write request _ => functionCode request = 0x10 ∧ request ≠ zeroRequest
  | _ => false

/-- The bench session does write a nonzero velocity. -/
theorem bench_write_guarded : ∃ request seen later earlier,
    (run Bench.environment Bench.contract Bench.drive initial).2.trace =
      later ++ .write request seen :: earlier ∧
    request ≠ zeroRequest ∧ MotionGuard Bench.contract request seen earlier := by
  have written : (run Bench.environment Bench.contract Bench.drive initial).2.trace.any
      Event.isMotionWrite = true := by decide +kernel
  obtain ⟨e, hm, he⟩ := List.any_eq_true.mp written
  obtain ⟨later, earlier, hsplit⟩ := List.append_of_mem hm
  cases e with
  | write request seen =>
    have hreq : functionCode request = 0x10 ∧ request ≠ zeroRequest := by
      simpa [Event.isMotionWrite] using he
    exact ⟨request, seen, later, earlier, hsplit, hreq.2,
      nonzero_write_guarded Bench.environment Bench.contract Bench.drive hsplit hreq.1 hreq.2⟩
  | _ => cases he

end Smartwheel.Manual
