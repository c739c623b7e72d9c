import Smartwheel.Effect.Guarantee
import Smartwheel.Modbus.Frame

/-! The world of a program that owns a serial line: the state of its session and of its channel, the
locals of the exchange in progress, and the history of all that happened, newest event first. -/
namespace Smartwheel.Serial
open Modbus Effect

structure Machine (S C : Type) where
  session : S
  channel : C

/-- `response` and `sent` are the locals of the exchange in progress. -/
structure World (S C E : Type) where
  session : S
  channel : C
  response : Bytes
  sent : Nat
  trace : List E

variable {S C E α : Type}

namespace World

def log (w : World S C E) (e : E) : World S C E := { w with trace := e :: w.trace }
def machine (w : World S C E) : Machine S C := ⟨w.session, w.channel⟩
def onSession (w : World S C E) (f : S → S) : World S C E := { w with session := f w.session }
def onChannel (w : World S C E) (f : C → C) : World S C E := { w with channel := f w.channel }

section
variable (w : World S C E) (e : E) (f : S → S) (g : C → C)

@[simp] theorem log_session : (w.log e).session = w.session := rfl
@[simp] theorem log_channel : (w.log e).channel = w.channel := rfl
@[simp] theorem log_trace : (w.log e).trace = e :: w.trace := rfl
@[simp] theorem onSession_session : (w.onSession f).session = f w.session := rfl
@[simp] theorem onSession_channel : (w.onSession f).channel = w.channel := rfl
@[simp] theorem onSession_trace : (w.onSession f).trace = w.trace := rfl
@[simp] theorem onChannel_session : (w.onChannel g).session = w.session := rfl
@[simp] theorem onChannel_channel : (w.onChannel g).channel = g w.channel := rfl
@[simp] theorem onChannel_trace : (w.onChannel g).trace = w.trace := rfl

end

end World

abbrev Act (S C E : Type) := Program (World S C E) PyError

def note (e : E) : Act S C E Unit := .modify fun w => w.log e
def session (f : S → S) : Act S C E Unit := .modify fun w => w.onSession f
def channel (f : C → C) : Act S C E Unit := .modify fun w => w.onChannel f

def record (f : S → S) (e : E) : Act S C E Unit := .modify fun w => (w.onSession f).log e

def setResponse (response : Bytes) : Act S C E Unit := .modify fun w => { w with response := response }
def setSent (sent : Nat) : Act S C E Unit := .modify fun w => { w with sent := sent }

def call (e : E) (answer : World S C E → Option PyError) : Act S C E Unit := do
  let w ← .get
  note e
  match answer w with
  | none => return ()
  | some error => .raise error

def ask (e : E) (answer : World S C E → Except PyError α) : Act S C E α := do
  let w ← .get
  note e
  match answer w with
  | .ok a => return a
  | .error error => .raise error

def watch (answer : List E → α) (e : α → E) : Act S C E α := do
  let w ← .get
  note (e (answer w.trace))
  return answer w.trace

def liftFault : Except Fault α → Act S C E α
  | .ok a => return a
  | .error f => .raise (.fault f)

/-- `try x except Exception: h`. -/
def exceptException (x : Act S C E α) (h : PyError → Act S C E α) : Act S C E α :=
  x.handle fun e => if e.isException then h e else .raise e

structure ReceiveErrors where
  timeout : String
  disconnected : String
  overflow : String

/-- The response loop: a reply of `expected` bytes, or of five when it is an exception reply. Every
round appends at least one byte, so `expected` rounds are enough. -/
def receive (clock : Act S C E ℚ) (selectRead : ℚ → Act S C E Bool) (osRead : Act S C E Bytes)
    (errors : ReceiveErrors) (deadline : ℚ) : Nat → Nat → Act S C E Unit
  | 0, _ => return ()
  | rounds + 1, expected => do
    let w ← .get
    .when (w.response.length < expected) do
      let now ← clock
      .raiseIf (deadline - now ≤ 0) (feedbackError errors.timeout)
      let readable ← selectRead (deadline - now)
      .raiseIf (!readable) (feedbackError errors.timeout)
      let chunk ← osRead
      .raiseIf (chunk = []) (feedbackError errors.disconnected)
      let response := w.response ++ chunk
      setResponse response
      let expected := if 2 ≤ response.length ∧ response.getD 1 0 &&& 0x80 ≠ 0 then 5 else expected
      .raiseIf (expected < response.length) (feedbackError errors.overflow)
      receive clock selectRead osRead errors deadline rounds expected

end Smartwheel.Serial

/-! ### Programs that only use the environment and the locals of an exchange, under any guarantee that
allows quiet events. -/
namespace Smartwheel.Serial
open Modbus Effect Effect.Program

variable {S C E α β : Type}

/-- `w'` is `w` with more events, all of them in `P`. -/
def Grew (P : E → Bool) (w w' : World S C E) : Prop :=
  ∃ es, w'.trace = es ++ w.trace ∧ ∀ e ∈ es, P e = true

namespace Grew
variable {P Q : E → Bool} {a b c : World S C E}

theorem refl (P : E → Bool) (w : World S C E) : Grew P w w := ⟨[], rfl, by simp⟩

theorem log {w : World S C E} {e : E} (h : P e = true) : Grew P w (w.log e) := ⟨[e], rfl, by simpa using h⟩

theorem trans (hab : Grew P a b) (hbc : Grew P b c) : Grew P a c := by
  obtain ⟨xs, hx, hpx⟩ := hab
  obtain ⟨ys, hy, hpy⟩ := hbc
  refine ⟨ys ++ xs, by rw [hy, hx, List.append_assoc], ?_⟩
  intro e he
  rcases List.mem_append.mp he with h | h
  · exact hpy e h
  · exact hpx e h

theorem mono (h : Grew P a b) (hPQ : ∀ e, P e = true → Q e = true) : Grew Q a b := by
  obtain ⟨es, ht, hes⟩ := h
  exact ⟨es, ht, fun e he => hPQ e (hes e he)⟩

end Grew

structure Steady (quiet : E → Bool) (w w' : World S C E) : Prop where
  session : w'.session = w.session
  channel : w'.channel = w.channel
  trace : Grew quiet w w'

namespace Steady
variable {quiet : E → Bool} {a b c : World S C E}

theorem refl (w : World S C E) : Steady quiet w w := ⟨rfl, rfl, .refl _ w⟩

theorem log {w : World S C E} {e : E} (h : quiet e = true) : Steady quiet w (w.log e) := ⟨rfl, rfl, .log h⟩

theorem trans (hab : Steady quiet a b) (hbc : Steady quiet b c) : Steady quiet a c :=
  ⟨hbc.session.trans hab.session, hbc.channel.trans hab.channel, hab.trace.trans hbc.trace⟩

end Steady

section
variable {G : Guarantee (World S C E)} {quiet : E → Bool} {w w0 : World S C E}
  {R : PyError → World S C E → Prop}

theorem raiseIf_steady {c : Prop} [Decidable c] {error : PyError} (he : R error w) :
    (Program.raiseIf c error).Goes G (fun _ => Steady quiet w) R w :=
  .raiseIf (fun _ => he) fun _ => .refl w

theorem steady_bind {x : Act S C E α} {f : α → Act S C E β} {F : β → World S C E → Prop}
    (h0 : Steady quiet w0 w) (hx : x.Goes G (fun _ => Steady quiet w) R w)
    (hf : ∀ a w', Steady quiet w0 w' → (f a).Goes G F R w') : (x >>= f).Goes G F R w :=
  hx.bind fun a w' hw => hf a w' (h0.trans hw)

end

/-- The guarantee allows everything that is steady. -/
class Watching (G : Guarantee (World S C E)) (quiet : outParam (E → Bool)) : Prop where
  steady : ∀ {w w'}, Steady quiet w w' → Path G.step w w' ∧ G.whole w w'

section
variable {G : Guarantee (World S C E)} {quiet : E → Bool} [Watching G quiet] {w w0 : World S C E}
  {R : PyError → World S C E → Prop}

theorem steady_modify {f : World S C E → World S C E} (h : Steady quiet w (f w)) :
    (Program.modify f).Goes G (fun _ => Steady quiet w) R w :=
  .modify (Watching.steady h).1 (Watching.steady h).2 h

theorem note_steady {e : E} (h : quiet e = true) :
    (note e : Act S C E Unit).Goes G (fun _ => Steady quiet w) R w := steady_modify (.log h)

theorem setResponse_steady (response : Bytes) :
    (setResponse response).Goes G (fun _ => Steady quiet w) R w :=
  steady_modify ⟨rfl, rfl, .refl _ w⟩

theorem setSent_steady (sent : Nat) : (setSent sent).Goes G (fun _ => Steady quiet w) R w :=
  steady_modify ⟨rfl, rfl, .refl _ w⟩

theorem call_steady {e : E} {answer : World S C E → Option PyError} (h : quiet e = true)
    (hr : ∀ error w', answer w = some error → R error w') :
    (call e answer).Goes G (fun _ => Steady quiet w) R w := by
  refine .get_bind (.bind (note_steady h) fun _ w' hw => ?_)
  cases ha : answer w with
  | none => exact .pure hw
  | some error => exact .raise (hr error w' ha)

theorem ask_steady {e : E} {answer : World S C E → Except PyError α} (h : quiet e = true)
    (hr : ∀ error w', answer w = .error error → R error w') :
    (ask e answer).Goes G (fun _ => Steady quiet w) R w := by
  refine .get_bind (.bind (note_steady h) fun _ w' hw => ?_)
  cases ha : answer w with
  | ok a => exact .pure hw
  | error error => exact .raise (hr error w' ha)

theorem watch_steady {answer : List E → α} {e : α → E} (h : quiet (e (answer w.trace)) = true) :
    (watch answer e).Goes G (fun _ => Steady quiet w) R w :=
  .get_bind (.bind (note_steady h) fun _ _ hw => .pure hw)

theorem receive_steady {clock : Act S C E ℚ} {selectRead : ℚ → Act S C E Bool} {osRead : Act S C E Bytes}
    {errors : ReceiveErrors} (hc : ∀ w, clock.Goes G (fun _ => Steady quiet w) R w)
    (hs : ∀ t w, (selectRead t).Goes G (fun _ => Steady quiet w) R w)
    (ho : ∀ w, osRead.Goes G (fun _ => Steady quiet w) R w)
    (hR : ∀ message w, R (feedbackError message) w) (deadline : ℚ) (rounds expected : Nat) :
    (receive clock selectRead osRead errors deadline rounds expected).Goes G
      (fun _ => Steady quiet w) R w := by
  induction rounds generalizing expected w with
  | zero => exact .pure (.refl w)
  | succ rounds ih =>
    refine .get_bind (.when (fun _ => ?_) fun _ => .refl w)
    refine steady_bind (.refl w) (hc w) fun now w1 h1 => ?_
    refine steady_bind h1 (raiseIf_steady (hR _ _)) fun _ w2 h2 => ?_
    refine steady_bind h2 (hs _ _) fun readable w3 h3 => ?_
    refine steady_bind h3 (raiseIf_steady (hR _ _)) fun _ w4 h4 => ?_
    refine steady_bind h4 (ho _) fun chunk w5 h5 => ?_
    refine steady_bind h5 (raiseIf_steady (hR _ _)) fun _ w6 h6 => ?_
    refine steady_bind h6 (setResponse_steady _) fun _ w7 h7 => ?_
    refine steady_bind h7 (raiseIf_steady (hR _ _)) fun _ w8 h8 => ?_
    exact (ih _).ensures fun _ w9 h9 => h8.trans h9

end

theorem liftFault_goes {G : Guarantee (World S C E)} {w : World S C E} {r : Except Fault α}
    {F : α → World S C E → Prop} {R : PyError → World S C E → Prop} (h : ∀ a, r = .ok a → F a w)
    (hR : ∀ f, r = .error f → R (.fault f) w) : (liftFault r).Goes G F R w := by
  cases r with
  | ok a => exact .pure (h a rfl)
  | error f => exact .raise (hR f rfl)

end Smartwheel.Serial
