import Mathlib.Data.Option.Basic
import Mathlib.Data.List.Infix
import Smartwheel.Estimation.Worker

/-! The worker answers a line once, and an error changes no state, unless a line goes on after an operation that has gone through. -/
namespace Smartwheel.EkfWorker
open Effect

section arguments
variable {δ Φ : Type} [Add δ] [Sub δ] [Mul δ] [Div δ] [LE δ] [LT δ] [DecidableLE δ] [DecidableLT δ] (lib : Library δ Φ)

/-! ### What a line says -/

/-- A part of a line, and what follows it. -/
abbrev Reader (α : Type) : Type := StateT (List Byte) Option α

def aNumber : Reader δ := fun text => (extractDouble lib text).filter fun v => lib.isfinite v.1

def anInteger : Reader ℤ := fun text => (extractInt text).filter fun v => 0 ≤ v.1

def someNumbers (bad : δ → Prop) [DecidablePred bad] : ℕ → Reader (List δ)
  | 0 => pure []
  | n + 1 => do
    let value ← aNumber lib
    guard ¬bad value
    let others ← someNumbers bad n
    return value :: others

def someState (states : ℤ → Option (State Φ)) (id : ℤ) : Reader (State Φ) := fun text => (states id).map fun s => (s, text)

variable (states : ℤ → Option (State Φ)) (op : List Byte) (id : ℤ)

def someCovariance (indices : List (Fin N)) : Reader (Fin N → Fin N → δ) :=
  if op = bytes "wheel_cov_v1" then do
    let vv ← aNumber lib
    let vw ← aNumber lib
    let ww ← aNumber lib
    guard ¬¬(lib.real 0 < vv ∧ lib.real 0 < ww ∧ lib.abs vw / lib.sqrt vv / lib.sqrt ww < lib.real 1)
    return fullCovariance lib vv vw ww
  else do
    let variances ← someNumbers lib (fun v => v ≤ lib.real 0) indices.length
    return variancesOnly lib indices variances

def arguments : Reader Unit :=
  if op = bytes "new" then do
    guard ¬(states id).isSome = true
    let _ ← someNumbers lib (fun _ => False) N
    let _ ← someNumbers lib (fun v => v ≤ lib.real 0) N
    let _ ← someNumbers lib (fun v => v < lib.real 0) N
    return ()
  else if op = bytes "clone" then do
    let destination ← anInteger
    guard ¬(states destination).isSome = true
    let _ ← someState states id
    return ()
  else if op = bytes "drop" then return ()
  else if op = bytes "predict" then do
    let _ ← someState states id
    let dt ← aNumber lib
    let observed ← anInteger
    guard ¬(dt < lib.real 0 ∨ lib.real 1000000 < dt ∨ 1 < observed)
    return ()
  else if op = bytes "decorrelate" then do
    let _ ← someState states id
    return ()
  else if op = bytes "wheel" ∨ op = bytes "wheel_cov_v1" ∨ op = bytes "gyro" then do
    let _ ← someState states id
    let _ ← aNumber lib
    let _ ← someNumbers lib (fun _ => False) (measuredIndices op).length
    let _ ← someCovariance lib op (measuredIndices op)
    return ()
  else if op = bytes "get" then do
    let _ ← someState states id
    return ()
  else failure

def Surplus (line : List Byte) : Prop :=
  (word line).1 ≠ bytes "quit" ∧ (word line).1 ≠ bytes "capabilities" ∧
    ∃ rest, (anInteger >>= arguments lib states (word line).1) (word line).2 = some ((), rest) ∧ blank rest = false

end arguments

/-! ### Programs that read a line -/

section follows
variable {δ Φ α β : Type} {states : ℤ → Option (State Φ)} {x : Program (World δ Φ) String α} {r : Reader α}
  {Q : List (Response δ) → World δ Φ → Prop}

/-- `x` gets what `r` reads, and where that is not there raises an error, with nothing changed or answered. -/
def Follows (states : ℤ → Option (State Φ)) (x : Program (World δ Φ) String α) (r : Reader α)
    (Q : List (Response δ) → World δ Φ → Prop) : Prop :=
  ∀ w, w.states = states → (∀ a rest, r w.input = some (a, rest) → ∃ w', x w = (.value a, w') ∧ w'.input = rest ∧ Q w.output w') ∧
    (r w.input = none → ∃ e w', x w = (.raised e, w') ∧ w'.states = states ∧ w'.output = w.output)

def Kept (states : ℤ → Option (State Φ)) (output : List (Response δ)) (w : World δ Φ) : Prop := w.states = states ∧ w.output = output

def Answered (output : List (Response δ)) (w : World δ Φ) : Prop := ∃ response, response.isError = false ∧ w.output = output ++ [response]

namespace Follows

theorem pure (a : α) : Follows states (Pure.pure a : Program (World δ Φ) String α) (Pure.pure a) (Kept states) := by
  intro w same
  refine ⟨fun b rest read => ?_, fun none => (by cases none)⟩
  cases read
  exact ⟨w, rfl, rfl, same, rfl⟩

theorem bind {f : α → Program (World δ Φ) String β} {k : α → Reader β} (h : Follows states x r (Kept states))
    (next : ∀ a, Follows states (f a) (k a) Q) : Follows states (x >>= f) (r >>= k) Q := by
  intro w same
  obtain ⟨value, none⟩ := h w same
  have step : (r >>= k) w.input = (r w.input).bind fun v => k v.1 v.2 := rfl
  cases read : r w.input with
  | none =>
    obtain ⟨e, w', run, kept, output⟩ := none read
    rw [step, read]
    refine ⟨fun b rest impossible => (by cases impossible), fun _ => ⟨e, w', ?_, kept, output⟩⟩
    change Program.bind x f w = _
    rw [Program.bind, run]
  | some v =>
    obtain ⟨w', run, input, kept, output⟩ := value v.1 v.2 read
    obtain ⟨later, fails⟩ := next v.1 w' kept
    have reached : (x >>= f) w = f v.1 w' := by
      change Program.bind x f w = _
      rw [Program.bind, run]
    rw [step, read, Option.bind_some, reached, ← output, ← input]
    exact ⟨later, fails⟩

theorem look {f : World δ Φ → Program (World δ Φ) String α} (h : ∀ w, w.states = states → Follows states (f w) r Q) :
    Follows states (Program.get >>= f) r Q := fun w same => h w same w same

theorem raiseIf {c : Prop} [Decidable c] {e : String} :
    Follows states (Program.raiseIf c e : Program (World δ Φ) String Unit) (guard ¬c) (Kept states) := by
  by_cases holds : c
  · intro w same
    refine ⟨fun a rest read => ?_, fun _ => ⟨e, w, ?_, same, rfl⟩⟩
    · rw [guard, if_neg (not_not.mpr holds)] at read
      cases read
    · simp [Program.raiseIf, Program.when, holds, Program.raise]
  · rw [guard, if_pos holds, Program.raiseIf, Program.when, if_neg holds]
    exact pure ()

theorem state {id : ℤ} : Follows states (stateAt id : Program (World δ Φ) String (State Φ)) (someState states id) (Kept states) := by
  refine look fun w same => ?_
  rw [same]
  intro w same
  cases known : states id with
  | none => exact ⟨fun a rest read => (by rw [someState, known] at read; cases read), fun _ => ⟨_, w, rfl, same, rfl⟩⟩
  | some s =>
    refine ⟨fun a rest read => ?_, fun none => (by rw [someState, known] at none; cases none)⟩
    rw [someState, known] at read
    cases read
    exact ⟨w, rfl, rfl, same, rfl⟩

theorem take {o : List Byte → Option (α × List Byte)} {e : String} : Follows states (do
    let w ← Program.get
    let v ← Program.need (o w.input) e
    Program.modify fun w => { w with input := v.2 }
    return v.1 : Program (World δ Φ) String α) o (Kept states) := by
  intro w same
  change _ ∧ (o w.input = none → ∃ e' w', Program.bind (Program.need (o w.input) e) _ w = _ ∧ _)
  refine ⟨fun a rest read => ?_, fun none => ⟨e, w, ?_, same, rfl⟩⟩
  · refine ⟨{ w with input := rest }, ?_, rfl, same, rfl⟩
    change Program.bind (Program.need (o w.input) e) _ w = _
    rw [read]
    rfl
  · rw [none]
    rfl

theorem integer : Follows states (EkfWorker.integer : Program (World δ Φ) String ℤ) anInteger (Kept states) := take

theorem finish {x : Program (World δ Φ) String Unit}
    (h : ∀ w, ∃ w', x w = (.value (), w') ∧ w'.input = w.input ∧ Answered w.output w') : Follows states x (Pure.pure ()) Answered := by
  intro w same
  refine ⟨fun a rest read => ?_, fun none => (by cases none)⟩
  cases read
  exact h w

variable {lib : Library δ Φ}

theorem number : Follows states (EkfWorker.number lib) (aNumber lib) (Kept states) := take

theorem numbers {bad : δ → Prop} [DecidablePred bad] {error : String} (n : ℕ) :
    Follows states (EkfWorker.numbers lib bad error n) (someNumbers lib bad n) (Kept states) := by
  induction n with
  | zero => exact pure []
  | succ n ih => exact bind number fun value => bind raiseIf fun _ => bind ih fun others => pure (value :: others)

end Follows

end follows

section operations
variable {δ Φ : Type} [Div δ] [LE δ] [LT δ] [DecidableLE δ] [DecidableLT δ] (lib : Library δ Φ)
  (states : ℤ → Option (State Φ)) (op : List Byte) (id : ℤ)

theorem covariance_follows (indices : List (Fin N)) :
    Follows states (covariance lib op indices) (someCovariance lib op indices) (Kept states) := by
  unfold covariance someCovariance
  split
  · exact .bind .number fun vv => .bind .number fun vw => .bind .number fun ww => .bind .raiseIf fun _ => .pure _
  · exact .bind (.numbers _) fun variances => .pure _

variable [Add δ] [Sub δ] [Mul δ]

theorem operation_follows : Follows states (operation lib op id) (arguments lib states op id) Answered := by
  have finished : ∀ (change : World δ Φ → World δ Φ), (∀ w, (change w).input = w.input ∧ (change w).output = w.output) →
      ∀ response : Response δ, response.isError = false →
        Follows states (do Program.modify change; print response) (Pure.pure ()) Answered := by
    intro change same response plain
    exact .finish fun w => ⟨_, rfl, (same w).1, response, plain, by rw [← (same w).2]⟩
  have assigned : ∀ (id : ℤ) (s : State Φ) (response : Response δ), response.isError = false →
      Follows states (do assign id s; print response) (Pure.pure ()) Answered :=
    fun id s => finished _ fun w => ⟨rfl, rfl⟩
  unfold operation arguments
  split
  · refine .look fun w same => ?_
    rw [same]
    exact .bind .raiseIf fun _ => .bind (.numbers N) fun x => .bind (.numbers N) fun p => .bind (.numbers N) fun q => assigned _ _ _ rfl
  split
  · refine .bind .integer fun destination => .look fun w same => ?_
    rw [same]
    exact .bind .raiseIf fun _ => .bind .state fun s => assigned _ _ _ rfl
  split
  · exact finished (fun w => { w with states := Function.update w.states id none }) (fun w => ⟨rfl, rfl⟩) .ok rfl
  split
  · exact .bind .state fun _ => .bind .number fun _ => .bind .integer fun _ => .bind .raiseIf fun _ => assigned _ _ _ rfl
  split
  · exact .bind .state fun _ => assigned _ _ _ rfl
  split
  · exact .bind .state fun _ => .bind .number fun _ => .bind (.numbers _) fun _ => .bind (covariance_follows lib states op _) fun _ =>
      assigned _ _ _ rfl
  split
  · exact .bind .state fun _ => .finish fun _ => ⟨_, rfl, rfl, _, rfl, rfl⟩
  · exact fun w same => ⟨fun a rest read => (by cases read), fun _ => ⟨_, w, rfl, same, rfl⟩⟩

end operations

section lines
variable {δ Φ : Type} {line : List Byte} {w w' : World δ Φ}

def World.reading (w : World δ Φ) (line : List Byte) : World δ Φ := { w with input := (word line).2 }

theorem noTrailing_blank {error : String} (rest : blank w.input = true) :
    (noTrailing error : Program (World δ Φ) String Unit) w = (.value (), w) := by
  change Program.raiseIf (blank w.input = false) error w = _
  rw [Program.raiseIf, Program.when, rest]
  rfl

theorem noTrailing_more {error : String} (rest : blank w.input = false) :
    (noTrailing error : Program (World δ Φ) String Unit) w = (.raised error, w) := by
  change Program.raiseIf (blank w.input = false) error w = _
  rw [Program.raiseIf, Program.when, rest]
  rfl

variable [Add δ] [Sub δ] [Mul δ] [Div δ] [LE δ] [LT δ] [DecidableLE δ] [DecidableLT δ] (lib : Library δ Φ)

theorem serve_step (go : (word line).1 ≠ bytes "quit") :
    serve lib line w = Program.bind ((command lib (word line).1).handle fun e => print (.error e)) (fun _ => pure false) (w.reading line) := by
  unfold serve
  dsimp only
  rw [if_neg go]
  rfl

theorem serve_of_value (go : (word line).1 ≠ bytes "quit") (run : command lib (word line).1 (w.reading line) = (.value (), w')) :
    serve lib line w = (.value false, w') := by
  rw [serve_step lib go, Program.bind, Program.handle, run]
  rfl

theorem serve_of_raised {e : String} (go : (word line).1 ≠ bytes "quit")
    (run : command lib (word line).1 (w.reading line) = (.raised e, w')) :
    serve lib line w = (.value false, { w' with output := w'.output ++ [.error e] }) := by
  rw [serve_step lib go, Program.bind, Program.handle, run]
  rfl

theorem command_capabilities {op : List Byte} (capable : op = bytes "capabilities") :
    command lib op w = Program.bind (noTrailing "unexpected capabilities argument") (fun _ => print .capabilities) w := by
  rw [command, if_pos capable]
  rfl

theorem command_step {op : List Byte} (other : op ≠ bytes "capabilities") : command lib op w =
    Program.bind (integer >>= operation lib op) (fun _ => noTrailing "unexpected trailing argument") w := by
  rw [command, if_neg other]
  change Program.bind integer (fun id => Program.bind (operation lib op id) fun _ => noTrailing _) w =
    Program.bind (Program.bind integer (operation lib op)) (fun _ => noTrailing _) w
  unfold Program.bind
  rcases integer w with ⟨_ | _ | _, _⟩
  all_goals rfl

theorem command_follows (states : ℤ → Option (State Φ)) (op : List Byte) :
    Follows states (integer >>= operation lib op) (anInteger >>= arguments lib states op) Answered :=
  .bind .integer fun id => operation_follows lib states op id

def AnsweredOnce (w w' : World δ Φ) : Prop :=
  ∃ response, w'.output = w.output ++ [response] ∧ (response.isError = true → w'.states = w.states)

theorem serve_once (go : (word line).1 ≠ bytes "quit") (fits : ¬Surplus lib w.states line) :
    ∃ w', serve lib line w = (.value false, w') ∧ AnsweredOnce w w' := by
  by_cases capable : (word line).1 = bytes "capabilities"
  · have step := command_capabilities lib (w := w.reading line) capable
    cases more : blank (w.reading line).input with
    | true =>
      rw [Program.bind, noTrailing_blank more] at step
      exact ⟨_, serve_of_value lib go step, .capabilities, rfl, fun impossible => (by cases impossible)⟩
    | false =>
      rw [Program.bind, noTrailing_more more] at step
      exact ⟨_, serve_of_raised lib go step, .error _, rfl, fun _ => rfl⟩
  · have step := command_step lib (w := w.reading line) capable
    obtain ⟨read, unread⟩ := command_follows lib w.states (word line).1 (w.reading line) rfl
    cases asked : (anInteger >>= arguments lib w.states (word line).1) (word line).2 with
    | none =>
      obtain ⟨e, w', run, kept, output⟩ := unread asked
      rw [Program.bind, run] at step
      exact ⟨_, serve_of_raised lib go step, .error e, congrArg (· ++ _) output, fun _ => kept⟩
    | some v =>
      obtain ⟨w', run, input, response, plain, output⟩ := read () v.2 asked
      have ended : blank w'.input = true := by
        by_contra more
        rw [Bool.not_eq_true, input] at more
        exact fits ⟨go, capable, v.2, asked, more⟩
      rw [Program.bind, run] at step
      refine ⟨w', serve_of_value lib go (step.trans (noTrailing_blank ended)), response, output, fun failed => ?_⟩
      rw [plain] at failed
      cases failed

theorem serve_twice (surplus : Surplus lib w.states line) : ∃ w' response, serve lib line w = (.value false, w') ∧
    w'.output = w.output ++ [response, .error "unexpected trailing argument"] := by
  obtain ⟨go, capable, rest, asked, more⟩ := surplus
  have step := command_step lib (w := w.reading line) capable
  obtain ⟨w', run, input, response, -, output⟩ := (command_follows lib w.states (word line).1 (w.reading line) rfl).1 () rest asked
  rw [Program.bind, run] at step
  refine ⟨_, response, serve_of_raised lib go (step.trans (noTrailing_more (input ▸ more))), ?_⟩
  change w'.output ++ _ = _
  rw [output, List.append_assoc]
  rfl

theorem serve_quit (leave : (word line).1 = bytes "quit") : serve lib line w = (.value true, { w with output := w.output ++ [.ok] }) := by
  unfold serve
  dsimp only
  rw [if_pos leave]
  rfl

def worldAfter (lines : List (List Byte)) : World δ Φ := (mainLoop lib lines .initial).2

def Going (lines : List (List Byte)) : Prop := ∀ line ∈ lines, (word line).1 ≠ bytes "quit"

theorem serve_going (go : (word line).1 ≠ bytes "quit") : ∃ w', serve lib line w = (.value false, w') := by
  by_cases surplus : Surplus lib w.states line
  · obtain ⟨w', -, run, -⟩ := serve_twice lib surplus
    exact ⟨w', run⟩
  · obtain ⟨w', run, -⟩ := serve_once lib go surplus
    exact ⟨w', run⟩

theorem mainLoop_concat {before : List (List Byte)} (going : Going before) :
    (mainLoop lib (before ++ [line]) w).2 = (serve lib line (mainLoop lib before w).2).2 := by
  induction before generalizing w with
  | nil =>
    change (Program.bind (serve lib line) (fun quit => if quit then pure () else mainLoop lib []) w).2 = (serve lib line w).2
    unfold Program.bind
    rcases serve lib line w with ⟨quit | _ | _, w'⟩
    · cases quit
      all_goals rfl
    all_goals rfl
  | cons first before ih =>
    obtain ⟨w', run⟩ := serve_going lib (w := w) (going first (List.mem_cons_self ..))
    have step : ∀ rest, mainLoop lib (first :: rest) w = mainLoop lib rest w' := by
      intro rest
      change Program.bind (serve lib first) (fun quit => if quit then pure () else mainLoop lib rest) w = _
      rw [Program.bind, run]
      rfl
    rw [List.cons_append, step, step]
    exact ih fun line inside => going line (List.mem_cons_of_mem _ inside)

theorem worldAfter_concat {before : List (List Byte)} (going : Going before) :
    worldAfter lib (before ++ [line]) = (serve lib line (worldAfter lib before)).2 := mainLoop_concat lib going

/-- Every line up to the first one to quit is answered once and in turn, an error without effect, if and only if no line goes on after the
arguments of an operation that takes them. -/
theorem answers_iff (lines : List (List Byte)) :
    (∀ before line, List.IsPrefix (before ++ [line]) lines → Going before →
      AnsweredOnce (worldAfter lib before) (worldAfter lib (before ++ [line]))) ↔
    ∀ before line, List.IsPrefix (before ++ [line]) lines → Going before → ¬Surplus lib (worldAfter lib before).states line := by
  refine ⟨fun once before line read going surplus => ?_, fun fits before line read going => ?_⟩
  · obtain ⟨w', response, run, twice⟩ := serve_twice lib surplus
    obtain ⟨answer, output, -⟩ := once before line read going
    rw [worldAfter_concat lib going, run, twice] at output
    have lengths := congrArg List.length output
    simp at lengths
  · rw [worldAfter_concat lib going]
    by_cases leave : (word line).1 = bytes "quit"
    · rw [serve_quit lib leave]
      exact ⟨.ok, rfl, fun impossible => (by cases impossible)⟩
    · obtain ⟨w', run, answered⟩ := serve_once lib leave (fits before line read going)
      rw [run]
      exact answered

end lines

namespace Bench

structure Filter where
  x : Fin N → ℚ
  p : Fin N → Fin N → ℚ
  q : Fin N → Fin N → ℚ
  initialized : Bool

def lib : Library ℚ Filter where
  strtod token := if token ≠ [] ∧ token.all isDigit then some (decimal token) else none
  isfinite _ := true
  real r := r
  abs v := if v < 0 then -v else v
  sqrt v := v
  llround v := v.floor
  nis _ _ := 0
  fresh := ⟨fun _ => 0, fun _ _ => 0, fun _ _ => 0, false⟩
  setState x f := { f with x := x }
  setEstimateErrorCovariance p f := { f with p := p }
  setProcessNoiseCovariance q f := { f with q := q }
  setUseDynamicProcessNoiseCovariance _ f := f
  setLastMeasurementTime _ f := f
  setSensorTimeout _ f := f
  getState f := f.x
  getEstimateErrorCovariance f := f.p
  getProcessNoiseCovariance f := f.q
  getInitializedStatus f := f.initialized
  predict _ _ f := f
  processMeasurement _ f := { f with initialized := true }

def line : List Byte := bytes "new 1 0 0 0 0 0 0 0 0 0 0 0 0 0 0 0 1 1 1 1 1 1 1 1 1 1 1 1 1 1 1 0 0 0 0 0 0 0 0 0 0 0 0 0 0 0 0"

/-- The line is answered twice, with an error too, and there is the state. -/
theorem surplus_answered : ((worldAfter lib [line]).output.map Response.isError = [false, true] ∧
    ((worldAfter lib [line]).states 1).isSome = true ∧ ((worldAfter lib []).states 1).isSome = false) ∧
    ¬∀ before line', List.IsPrefix (before ++ [line']) [line] → Going before →
      AnsweredOnce (worldAfter lib before) (worldAfter lib (before ++ [line'])) := by
  have output : (worldAfter lib [line]).output.map Response.isError = [false, true] := by decide +kernel
  refine ⟨⟨output, by decide +kernel, by decide +kernel⟩, fun once => ?_⟩
  obtain ⟨response, single, -⟩ := once [] line (List.prefix_refl _) fun _ inside => absurd inside List.not_mem_nil
  rw [List.nil_append] at single
  rw [single] at output
  have lengths := congrArg List.length output
  simp [worldAfter, mainLoop, World.initial] at lengths
  cases lengths

end Bench

end Smartwheel.EkfWorker
