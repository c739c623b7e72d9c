import Mathlib.Data.List.GetD
import Smartwheel.Effect.Check
import Smartwheel.Feedback.Poller

/-! What one sample does: at most one query is written, after its plan stands in the journal, and a sample comes
back exactly where one valid reply was received. -/
namespace Smartwheel.Feedback
open Modbus Effect Effect.Program

def writes : History → List (Nat × Bytes)
  | [] => []
  | .write sequence bytes :: h => (sequence, bytes) :: writes h
  | _ :: h => writes h

/-- The sequences of the journaled `transaction_complete` records, newest first. -/
def completes : History → List Nat
  | [] => []
  | .journal (.transactionComplete sequence _ _ _) true _ :: h => sequence :: completes h
  | _ :: h => completes h

def received : History → Option Bytes
  | [] => none
  | .write _ _ :: _ => some []
  | .osRead chunk :: h => (received h).map (· ++ chunk)
  | _ :: h => received h

def Event.refused : Event → Bool
  | .checkHealth raised | .journal _ _ raised => raised
  | _ => false

def Planned : Event → History → Prop
  | .write sequence bytes, earlier =>
    List.IsPrefix bytes query ∧ Event.journal (.requestPlanned sequence) true false ∈ earlier
  | _, _ => True

def Valid (reply : Bytes) : Prop := reply.length = 9 ∧ ∃ words, parseExchange query reply = .ok words

def Event.neutral : Event → Bool
  | .write .. | .osRead _ | .journal (.transactionComplete ..) .. => false
  | _ => true

section
variable {e : Event} (h : History) (neutral : e.neutral = true)
include neutral

theorem writes_neutral : writes (e :: h) = writes h := by
  cases e <;> first | rfl | cases neutral

theorem completes_neutral : completes (e :: h) = completes h := by
  cases e with
  | journal record landed raised =>
    cases record with
    | transactionComplete => cases neutral
    | _ => rfl
  | _ => rfl

theorem received_neutral : received (e :: h) = received h := by
  cases e <;> first | rfl | cases neutral

theorem planned_neutral : Planned e h := by
  cases e <;> first | exact trivial | cases neutral

end

theorem writes_append (l h : History) : writes (l ++ h) = writes l ++ writes h := by
  induction l with
  | nil => rfl
  | cons e l ih => cases e <;> simp only [List.cons_append, writes, ih]

theorem completes_append (l h : History) : completes (l ++ h) = completes l ++ completes h := by
  induction l with
  | nil => rfl
  | cons e l ih =>
    cases e with
    | journal record landed raised =>
      cases record with
      | transactionComplete => cases landed <;> simp only [List.cons_append, completes, ih]
      | _ => simp only [List.cons_append, completes, ih]
    | _ => simp only [List.cons_append, completes, ih]

/-! A reply that parses has nine bytes, and no exception byte. -/

theorem query_count : (countOf query).toNat = 2 := by decide +kernel

theorem error_bind {α β : Type} {e : Fault} {f : α → Except Fault β} {b : β} :
    ¬ (Except.error e >>= f) = .ok b := fun h => by cases h

theorem parseExchange_reply {reply : Bytes} {words : List Word} (h : parseExchange query reply = .ok words) :
    reply.length = 9 ∧ functionCode reply = 3 := by
  obtain ⟨request, checked, body⟩ := bind_eq_ok h
  rw [checkedFrame_eq_ok checked, query_count] at body
  obtain ⟨response, checked', rest⟩ := bind_eq_ok body
  rw [checkedFrame_eq_ok checked'] at rest
  clear h checked checked' body
  dsimp only at rest
  split at rest
  · exact absurd rest error_bind
  · obtain ⟨expected, -, rest'⟩ := bind_eq_ok rest
    split at rest'
    · exact absurd rest' error_bind
    · split at rest'
      · exact absurd rest' error_bind
      · split at rest'
        · exact absurd rest' error_bind
        · split at rest'
          · exact absurd rest' error_bind
          · rename_i fits
            obtain ⟨function, count, length⟩ : functionCode reply = 3 ∧ _ ∧ reply.length = 5 + 2 * 2 := by
              simpa only [not_or, not_not] using fits
            exact ⟨length, function⟩

theorem Valid.expected {reply : Bytes} (h : Valid reply) : reply.length = 9 ∧ expectedOf reply = 9 := by
  obtain ⟨length, words, parsed⟩ := h
  have function := (parseExchange_reply parsed).2
  refine ⟨length, if_neg fun exception => ?_⟩
  rw [function] at exception
  exact absurd exception.2 (by decide)

/-! Where a sample has come to. -/

/-- From `w₀` on, these writes and this reply, no record of completion and no journal call that has raised. -/
structure At (w₀ w : World) (ws : List (Nat × Bytes)) (reply : Option Bytes) : Prop where
  sequence : w.sequence = w₀.sequence
  events : ∃ events, w.trace = events ++ w₀.trace ∧ writes events = ws ∧ completes events = [] ∧
    received events = reply ∧ ∀ e ∈ events, e.refused = false
  planned : Always Planned w.trace

def Logged (w w' : World) : Prop := ∃ e, e.neutral = true ∧ e.refused = false ∧ w' = w.log e

variable {w' w₀ : World} {ws : List (Nat × Bytes)}

theorem At.logged {w : World} {reply : Option Bytes} (h : At w₀ w ws reply)
    (logged : Logged w w') : At w₀ w' ws reply := by
  obtain ⟨e, neutral, sound, rfl⟩ := logged
  obtain ⟨events, trace, written, completed, reply_, healthy⟩ := h.events
  refine ⟨h.sequence, ⟨e :: events, congrArg (List.cons _) trace, ?_, ?_, ?_, ?_⟩, planned_neutral _ neutral, h.planned⟩
  · rw [writes_neutral events neutral, written]
  · rw [completes_neutral events neutral, completed]
  · rw [received_neutral events neutral, reply_]
  · exact List.forall_mem_cons.mpr ⟨sound, healthy⟩

theorem At.same {w : World} {reply : Option Bytes} (h : At w₀ w ws reply)
    (sequence : w'.sequence = w.sequence) (trace : w'.trace = w.trace) : At w₀ w' ws reply := by
  obtain ⟨events, trace₀, rest⟩ := h.events
  refine ⟨sequence.trans h.sequence, ⟨events, trace.trans trace₀, rest⟩, ?_⟩
  rw [trace]
  exact h.planned

theorem At.read {w : World} {reply : Option Bytes} (h : At w₀ w ws reply)
    (chunk : Bytes) : At w₀ (w.log (.osRead chunk)) ws (reply.map (· ++ chunk)) := by
  obtain ⟨events, trace, written, completed, reply_, healthy⟩ := h.events
  refine ⟨h.sequence, ⟨.osRead chunk :: events, congrArg (List.cons _) trace, written, completed, ?_, ?_⟩,
    trivial, h.planned⟩
  · show (received events).map _ = _
    rw [reply_]
  · exact List.forall_mem_cons.mpr ⟨rfl, healthy⟩

theorem At.write {w : World} {reply : Option Bytes} (h : At w₀ w ws reply)
    (planned : Event.journal (.requestPlanned w.sequence) true false ∈ w.trace) (sent : Nat) :
    At w₀ (w.log (.write w.sequence (query.take sent))) ((w₀.sequence, query.take sent) :: ws) (some []) := by
  obtain ⟨events, trace, written, completed, reply_, healthy⟩ := h.events
  refine ⟨h.sequence, ⟨_ :: events, congrArg (List.cons _) trace, ?_, completed, rfl, ?_⟩,
    ⟨List.take_prefix _ _, planned⟩, h.planned⟩
  · show (w.sequence, query.take sent) :: writes events = _
    rw [written, h.sequence]
  · exact List.forall_mem_cons.mpr ⟨rfl, healthy⟩

def Single (w₀ : World) (ws : List (Nat × Bytes)) : Prop := ws = [] ∨ ∃ bytes, ws = [(w₀.sequence, bytes)]

def Lost (w₀ w : World) : Prop :=
  ∃ ws reply, At w₀ w ws reply ∧ Single w₀ ws ∧ ∀ r, reply = some r → ¬ Valid r

/-! The calls that the environment answers. -/

def free : Guarantee World where
  step _ _ := True
  whole _ _ := True
  cuts := False
  whole_refl _ := trivial
  whole_trans _ _ := trivial

section
variable {env : Env} {w₀ w : World} {α : Type}

variable {E : Failure → World → Prop}

theorem modify_goes {f : World → World} {F : Unit → World → Prop} (h : F () (f w)) :
    Goes free (.modify f : Act Unit) F E w :=
  Goes.modify (.single trivial) trivial h

variable {F : α → World → Prop}

theorem check_goes {c : Prop} [Decidable c] {failure : Failure} {k : Unit → Act α} (fails : c → E failure w)
    (passes : ¬c → (k ()).Goes free F E w) :
    (raiseIf c failure >>= k).Goes free F E w := by
  refine (Goes.raiseIf (F := fun _ w' => w' = w ∧ ¬c) fails fun sound => ⟨rfl, sound⟩).bind fun _ w' same => ?_
  rw [same.1]
  exact passes same.2

theorem change_goes {f : World → World} {k : Unit → Act α}
    (h : (k ()).Goes free F E (f w)) : (Program.modify f >>= k).Goes free F E w := by
  refine (modify_goes (F := fun _ w' => w' = f w) rfl).bind fun _ w' same => ?_
  rw [same]
  exact h

theorem note_goes {e : Event} {F : Unit → World → Prop} (h : F () (w.log e)) : (note e).Goes free F E w :=
  modify_goes h

theorem ask_goes (answer : History → Except PyError α) (e : α → Event) :
    (ask answer e).Goes free (fun a w' => w' = w.log (e a)) (fun _ w' => Logged w w') w := by
  refine Goes.get_bind ?_
  split
  · exact (note_goes rfl).bind fun _ _ logged => Goes.pure logged
  · exact (note_goes ⟨_, rfl, rfl, rfl⟩).bind fun _ _ logged => Goes.raise logged

theorem selectRead_goes (timeout : ℚ) :
    (selectRead env timeout).Goes free (fun _ w' => Logged w w') (fun _ w' => Logged w w') w :=
  (ask_goes _ _).ensures fun _ _ logged => ⟨_, rfl, rfl, logged⟩

theorem selectWrite_goes (timeout : ℚ) :
    (selectWrite env timeout).Goes free (fun _ w' => Logged w w') (fun _ w' => Logged w w') w :=
  (ask_goes _ _).ensures fun _ _ logged => ⟨_, rfl, rfl, logged⟩

theorem monotonic_goes : (monotonic env).Goes free (fun _ w' => Logged w w') E w :=
  Goes.get_bind ((note_goes ⟨_, rfl, rfl, rfl⟩).bind fun _ _ logged => Goes.pure logged)

theorem osRead_goes :
    (osRead env).Goes free (fun chunk w' => w' = w.log (.osRead chunk)) (fun _ w' => Logged w w') w :=
  ask_goes _ _

theorem osWrite_goes :
    (osWrite env).Goes free
      (fun _ w' => ∃ sent : Fin (query.length + 1),
        w' = { w.log (.write w.sequence (query.take sent)) with sent := sent })
      (fun _ w' => Logged w w') w := by
  refine Goes.get_bind ((ask_goes _ _).bind fun sent w' written => modify_goes ⟨sent, ?_⟩)
  rw [written]

theorem checkJournal_goes :
    (checkJournal env).Goes free (fun _ w' => Logged w w') (fun _ w' => w' = w.log (.checkHealth true)) w := by
  refine Goes.get_bind ?_
  split
  · exact note_goes ⟨_, rfl, rfl, rfl⟩
  · exact (note_goes rfl).bind fun _ _ logged => Goes.raise logged

theorem journal_goes (record : Record) :
    (journal env record).Goes free (fun _ w' => w' = w.log (.journal record true false))
      (fun _ w' => ∃ landed, w' = w.log (.journal record landed true)) w := by
  refine Goes.get_bind ?_
  split
  · exact note_goes rfl
  · exact (note_goes ⟨_, rfl⟩).bind fun _ _ logged => Goes.raise logged

theorem liftFault_goes {x : Except Fault α}
    (ok : ∀ a, x = .ok a → F a w) (error : ∀ f, x = .error f → E (.error (.fault f)) w) :
    (liftFault x).Goes free F E w := by
  cases h : x with
  | ok a => exact Goes.pure (ok a h)
  | error f => exact Goes.raise (error f h)

/-! The reply. -/

theorem expectedOf_le (reply : Bytes) : expectedOf reply ≤ 9 := by
  unfold expectedOf
  split <;> omega

theorem expectedOf_append (reply chunk : Bytes) :
    (if 2 ≤ (reply ++ chunk).length ∧ functionCode (reply ++ chunk) = 0x83 then 5 else expectedOf reply) =
      expectedOf (reply ++ chunk) := by
  unfold expectedOf
  split
  · rfl
  · rename_i plain
    refine if_neg fun exception => plain ⟨?_, ?_⟩
    · rw [List.length_append]
      omega
    · unfold functionCode at exception ⊢
      rw [List.getD_append _ _ _ _ (by omega)]
      exact exception.2

structure Receiving (w₀ w : World) : Prop where
  place : At w₀ w [(w₀.sequence, query)] (some w.response)
  bound : w.response.length ≤ expectedOf w.response

theorem lost_of_length {reply : Bytes} (h : At w₀ w' [(w₀.sequence, query)] (some reply))
    (length : reply.length ≠ expectedOf reply) : Lost w₀ w' := by
  refine ⟨_, _, h, .inr ⟨query, rfl⟩, fun r same valid => length ?_⟩
  rw [Option.some.inj same, valid.expected.1, valid.expected.2]

theorem receive_goes (deadline : ℚ) (rounds : Nat) (h : Receiving w₀ w) (enough : 9 ≤ w.response.length + rounds) :
    (receive env deadline rounds (expectedOf w.response)).Goes free
      (fun _ w' => At w₀ w' [(w₀.sequence, query)] (some w'.response) ∧ w'.response.length = expectedOf w'.response)
      (fun _ w' => Lost w₀ w') w := by
  induction rounds generalizing w with
  | zero =>
    have le := expectedOf_le w.response
    have bound := h.bound
    exact Goes.pure ⟨h.place, by omega⟩
  | succ rounds ih =>
    refine Goes.get_bind (Goes.when (fun short => ?_) fun full => ⟨h.place, by have := h.bound; omega⟩)
    have lost {w' : World} (place : At w₀ w' [(w₀.sequence, query)] (some w.response)) : Lost w₀ w' :=
      lost_of_length place (by omega)
    refine Goes.bind monotonic_goes fun now w₁ read => ?_
    have place₁ := h.place.logged read
    refine check_goes (fun _ => lost place₁) fun _ => ?_
    refine ((selectRead_goes _).weaken (fun _ _ selected => selected)
      (fun _ _ raised => lost (place₁.logged raised))).bind fun readable w₂ selected => ?_
    have place₂ := place₁.logged selected
    refine check_goes (fun _ => lost place₂) fun _ => ?_
    refine (osRead_goes.weaken (fun _ _ taken => taken)
      (fun _ _ raised => lost (place₂.logged raised))).bind fun chunk w₃ taken => ?_
    subst taken
    have place₃ := place₂.read chunk
    refine check_goes (fun none_ => ?_) fun some_ => ?_
    · subst none_
      rw [Option.map_some, List.append_nil] at place₃
      exact lost place₃
    · refine change_goes ?_
      have place₄ : At w₀ { w₂.log (.osRead chunk) with response := w.response ++ chunk } [(w₀.sequence, query)]
          (some (w.response ++ chunk)) := place₃.same rfl rfl
      have grows : 0 < chunk.length := List.length_pos_iff.mpr some_
      rw [expectedOf_append]
      refine check_goes (fun above => lost_of_length place₄ (by omega)) fun fits => ?_
      refine ih ⟨place₄, Nat.le_of_not_lt fits⟩ ?_
      show 9 ≤ (w.response ++ chunk).length + rounds
      rw [List.length_append]
      omega

structure Unsent (w₀ w : World) : Prop where
  place : At w₀ w [] none
  planned : Event.journal (.requestPlanned w₀.sequence) true false ∈ w.trace

theorem Unsent.logged (h : Unsent w₀ w) (logged : Logged w w') : Unsent w₀ w' := by
  have place := h.place.logged logged
  obtain ⟨e, -, -, rfl⟩ := logged
  exact ⟨place, List.mem_cons_of_mem _ h.planned⟩

theorem lost_unsent (h : At w₀ w' [] none) : Lost w₀ w' :=
  ⟨[], none, h, .inl rfl, fun _ same => (by cases same)⟩

theorem transact_goes (timeout : ℚ) (h : Unsent w₀ w) (empty : w.response = []) :
    (transact env timeout).Goes free (fun reply w' => At w₀ w' [(w₀.sequence, query)] (some reply) ∧ Valid reply)
      (fun _ w' => Lost w₀ w') w := by
  have logged {w w' : World} (h : Unsent w₀ w ∧ w.response = []) (logged : Logged w w') :
      Unsent w₀ w' ∧ w'.response = [] := by
    have unsent := h.1.logged logged
    obtain ⟨e, -, -, rfl⟩ := logged
    exact ⟨unsent, h.2⟩
  refine Goes.bind (F := fun _ w' => Unsent w₀ w' ∧ w'.response = []) ((selectRead_goes _).weaken
    (fun _ _ => logged ⟨h, empty⟩) (fun _ _ raised => lost_unsent (h.logged raised).place)) fun readable w₁ h₁ => ?_
  have unsolicited : (do
      let chunk ← osRead env
      setResponse chunk
      .raise (.query "unsolicited bytes before query" chunk 0) : Act Unit).Goes free
        (fun _ w' => w' = w₁) (fun _ w' => Lost w₀ w') w₁ := by
    refine (osRead_goes.weaken (fun _ _ taken => taken)
      (fun _ _ raised => lost_unsent (h₁.1.logged raised).place)).bind fun chunk w₂ taken => ?_
    subst taken
    exact change_goes (Goes.raise (lost_unsent ((h₁.1.place.read chunk).same rfl rfl)))
  refine (Goes.when (fun _ => unsolicited) fun _ => rfl).bind fun _ w₁' same => ?_
  subst same
  refine (monotonic_goes.ensures fun _ _ => logged h₁).bind fun start w₂ h₂ => ?_
  refine (monotonic_goes.ensures fun _ _ => logged h₂).bind fun now w₃ h₃ => ?_
  refine Goes.bind (F := fun _ w' => Unsent w₀ w' ∧ w'.response = []) ((selectWrite_goes _).weaken
    (fun _ _ => logged h₃) (fun _ _ raised => lost_unsent (h₃.1.logged raised).place)) fun writable w₄ h₄ => ?_
  refine check_goes (fun _ => lost_unsent h₄.1.place) fun _ => ?_
  refine (osWrite_goes.weaken (fun _ _ written => written)
    (fun _ _ raised => lost_unsent (h₄.1.logged raised).place)).bind fun _ w₅ written => ?_
  obtain ⟨sent, rfl⟩ := written
  obtain ⟨⟨place, planned⟩, none_⟩ := h₄
  rw [← place.sequence] at planned
  have place₅ : At w₀ { w₄.log (.write w₄.sequence (query.take sent)) with sent := sent }
      [(w₀.sequence, query.take sent)] (some []) := (place.write planned sent).same rfl rfl
  refine Goes.get_bind (check_goes (fun partial_ => ?_) fun whole => ?_)
  · refine ⟨_, _, place₅, .inr ⟨_, rfl⟩, fun r same valid => ?_⟩
    have length := valid.expected.1
    rw [← Option.some.inj same] at length
    cases length
  · have all : query.take sent = query := List.take_of_length_le (Nat.le_of_eq (not_not.mp whole).symm)
    rw [all] at place₅ ⊢
    have none₅ : ({ w₄.log (.write w₄.sequence query) with sent := sent } : World).response = [] := none_
    rw [← none₅] at place₅
    have receiving : Receiving w₀ { w₄.log (.write w₄.sequence query) with sent := sent } := by
      refine ⟨place₅, ?_⟩
      rw [none₅]
      exact Nat.zero_le _
    have received := @receive_goes env _ _ (start + timeout) 9 receiving (by omega)
    rw [none₅] at received
    refine received.bind fun _ w₆ h₆ => Goes.get_bind ?_
    obtain ⟨place₆, length⟩ := h₆
    refine (liftFault_goes (F := fun words w' => w' = w₆ ∧ parseExchange query w₆.response = .ok words)
      (fun words parsed => ⟨rfl, parsed⟩) fun f rejected => ?_).bind fun words w₆' parsed => ?_
    · refine ⟨_, _, place₆, .inr ⟨query, rfl⟩, fun r same valid => ?_⟩
      obtain ⟨-, words, parsed⟩ := valid
      rw [← Option.some.inj same, rejected] at parsed
      cases parsed
    · rw [parsed.1]
      exact Goes.pure ⟨place₆, (parseExchange_reply parsed.2).1, words, parsed.2⟩

theorem exchange_goes (timeout : ℚ) (h : Unsent w₀ w) :
    (exchange env query timeout).Goes free
      (fun reply w' => At w₀ w' [(w₀.sequence, query)] (some reply) ∧ Valid reply) (fun _ w' => Lost w₀ w') w := by
  refine Goes.get_bind (check_goes (fun _ => lost_unsent h.place) fun _ => ?_)
  refine (liftFault_goes (F := fun _ w' => w' = w) (fun _ _ => rfl) fun _ _ => lost_unsent h.place).bind fun _ w' same => ?_
  subst same
  refine change_goes ?_
  have unsent : Unsent w₀ { w' with response := [], sent := 0 } := ⟨h.place.same rfl rfl, h.planned⟩
  refine (transact_goes timeout unsent rfl).handle fun failure w₁ lost => ?_
  refine change_goes (Goes.get_bind ?_)
  have lost' : Lost w₀ { w₁ with leaseFailed := true } := by
    obtain ⟨ws, reply, place, rest⟩ := lost
    exact ⟨ws, reply, place.same rfl rfl, rest⟩
  cases failure with
  | query message reply transmitted => exact Goes.raise lost'
  | error e => exact Goes.ite (fun _ => Goes.raise lost') fun _ => Goes.raise lost'

/-! The sample. -/

structure Ended (w₀ w : World) (ws : List (Nat × Bytes)) (cs : List Nat) (returned : Bool) : Prop where
  events : ∃ events, w.trace = events ++ w₀.trace ∧ writes events = ws ∧ completes events = cs ∧
    (returned = true ↔ (∃ reply, received events = some reply ∧ Valid reply) ∧ ∀ e ∈ events, e.refused = false)
  planned : Always Planned w.trace

def Failed (w₀ w : World) : Prop :=
  w.sequence = w₀.sequence ∧ ∃ ws cs, Ended w₀ w ws cs false ∧
    Single w₀ ws ∧ (cs = [] ∨ cs = [w₀.sequence])

theorem failed_of_lost (h : Lost w₀ w) : Failed w₀ w := by
  obtain ⟨ws, reply, place, written, invalid⟩ := h
  obtain ⟨events, trace, same, completed, received, -⟩ := place.events
  refine ⟨place.sequence, ws, [], ⟨⟨events, trace, same, completed, ?_⟩, place.planned⟩, written, .inl rfl⟩
  simp only [Bool.false_eq_true, false_iff, not_and]
  rintro ⟨r, found, valid⟩
  exact absurd valid (invalid r (received ▸ found))

theorem failed_of_refused {reply : Option Bytes} {e : Event} (h : At w₀ w ws reply)
    (written : Single w₀ ws) (refused : e.refused = true) (silent : writes [e] = [])
    (completed : completes [e] = [] ∨ completes [e] = [w₀.sequence]) (planned : Planned e w.trace) :
    Failed w₀ (w.log e) := by
  obtain ⟨events, trace, same, none_, -, -⟩ := h.events
  refine ⟨h.sequence, ws, completes [e], ⟨⟨e :: events, congrArg (List.cons e) trace, ?_, ?_, ?_⟩, planned, h.planned⟩,
    written, completed⟩
  · have split := writes_append [e] events
    rw [silent, same] at split
    exact split
  · have split := completes_append [e] events
    rw [none_, List.append_nil] at split
    exact split
  · simp only [Bool.false_eq_true, false_iff, not_and]
    intro _ healthy
    rw [healthy e (List.mem_cons_self ..)] at refused
    cases refused

theorem failed_of_unhealthy {reply : Option Bytes} (h : At w₀ w ws reply)
    (written : Single w₀ ws) (raised : w' = w.log (.checkHealth true)) : Failed w₀ w' := by
  rw [raised]
  exact failed_of_refused h written rfl rfl (.inl rfl) trivial

theorem complete_goes {reply : Bytes} {words : List Word} {transmitted : Nat} {record : Record}
    (h : At w₀ w [(w₀.sequence, query)] (some reply)) (valid : Valid reply)
    (same : record = .transactionComplete w₀.sequence reply words transmitted) :
    (do
      checkJournal env
      journal env record
      checkJournal env
      .modify fun w => { w with sequence := w.sequence + 1 }
      return record : Act Record).Goes free
      (fun _ w' => w'.sequence = w₀.sequence + 1 ∧ Ended w₀ w' [(w₀.sequence, query)] [w₀.sequence] true)
      (fun _ w' => Failed w₀ w') w := by
  have written : Single w₀ [(w₀.sequence, query)] := .inr ⟨query, rfl⟩
  refine (checkJournal_goes.weaken (fun _ _ => h.logged) fun _ _ => failed_of_unhealthy h written).bind fun _ w₁ h₁ => ?_
  subst same
  refine ((journal_goes _).weaken (fun _ _ landed => landed) (fun _ w' raised => ?_)).bind fun _ w₂ landed => ?_
  · obtain ⟨landed, rfl⟩ := raised
    refine failed_of_refused h₁ written rfl rfl ?_ trivial
    cases landed
    · exact .inl rfl
    · exact .inr rfl
  · obtain ⟨events, trace, written', none_, received', healthy⟩ := h₁.events
    obtain ⟨entry, same⟩ :
        ∃ entry, entry = Event.journal (.transactionComplete w₀.sequence reply words transmitted) true false := ⟨_, rfl⟩
    have trace₂ : w₂.trace = entry :: events ++ w₀.trace := by
      rw [landed, same, List.cons_append, ← trace]
      rfl
    have written₂ : writes (entry :: events) = [(w₀.sequence, query)] := by
      rw [same]
      exact written'
    have completed₂ : completes (entry :: events) = [w₀.sequence] := by
      rw [same]
      exact congrArg (List.cons _) none_
    have received₂ : received (entry :: events) = some reply := by
      rw [same]
      exact received'
    have healthy₂ : ∀ e ∈ entry :: events, e.refused = false := by
      rw [same]
      exact List.forall_mem_cons.mpr ⟨rfl, healthy⟩
    have planned : Always Planned w₂.trace := by
      rw [landed]
      exact ⟨trivial, h₁.planned⟩
    have sequence : w₂.sequence = w₀.sequence := by
      rw [landed]
      exact h₁.sequence
    refine (checkJournal_goes.weaken (fun _ _ logged => logged) (fun _ w' raised => ?_)).bind fun _ w₃ logged => ?_
    · rw [raised]
      refine ⟨sequence, _, _, ⟨⟨.checkHealth true :: entry :: events, congrArg (List.cons _) trace₂, written₂,
        completed₂, ?_⟩, trivial, planned⟩, written, .inr rfl⟩
      simp only [Bool.false_eq_true, false_iff, not_and]
      intro _ sound
      exact Bool.noConfusion (sound (.checkHealth true) (List.mem_cons_self ..))
    · obtain ⟨e, neutral, sound, rfl⟩ := logged
      refine (modify_goes ⟨congrArg (· + 1) sequence, ⟨e :: entry :: events, congrArg (List.cons _) trace₂, ?_, ?_, ?_⟩,
        planned_neutral _ neutral, planned⟩).bind fun _ _ ended => Goes.pure ended
      · rw [writes_neutral _ neutral, written₂]
      · rw [completes_neutral _ neutral, completed₂]
      · have received₃ := (received_neutral (entry :: events) neutral).trans received₂
        exact ⟨fun _ => ⟨⟨reply, received₃, valid⟩, List.forall_mem_cons.mpr ⟨sound, healthy₂⟩⟩, fun _ => rfl⟩

theorem attempt_goes (c : PollConfig) (h : At w₀ w [] none) :
    (attempt env c w₀.sequence).Goes free
      (fun _ w' => w'.sequence = w₀.sequence + 1 ∧ Ended w₀ w' [(w₀.sequence, query)] [w₀.sequence] true)
      (fun _ w' => Failed w₀ w') w := by
  have unwritten : Single w₀ [] := .inl rfl
  refine (checkJournal_goes.weaken (fun _ _ => h.logged)
    fun _ _ => failed_of_unhealthy h unwritten).bind fun _ w₁ h₁ => ?_
  refine Goes.bind (F := fun _ w' => Unsent w₀ w') ((journal_goes _).weaken (fun _ w' planned => ?_)
    (fun _ w' raised => ?_)) fun _ w₂ h₂ => ?_
  · rw [planned]
    exact ⟨h₁.logged ⟨_, rfl, rfl, rfl⟩, List.mem_cons_self ..⟩
  · obtain ⟨landed, rfl⟩ := raised
    exact failed_of_refused h₁ unwritten rfl rfl (.inl rfl) trivial
  refine (checkJournal_goes.weaken (fun _ _ => h₂.logged)
    fun _ _ => failed_of_unhealthy h₂.place unwritten).bind fun _ w₃ h₃ => ?_
  refine change_goes ?_
  have unsent : Unsent w₀ { w₃ with exchangeStarted := true } := ⟨h₃.place.same rfl rfl, h₃.planned⟩
  refine ((exchange_goes c.timeout unsent).weaken (fun _ _ ended => ended)
    fun _ _ => failed_of_lost).bind fun reply w₄ h₄ => ?_
  obtain ⟨place₄, valid⟩ := h₄
  refine change_goes ?_
  have place₅ : At w₀ { w₄ with taken := reply } [(w₀.sequence, query)] (some reply) := place₄.same rfl rfl
  obtain ⟨words, parsed⟩ := valid.2
  rw [parsed]
  refine Goes.bind (Goes.pure (F := fun found w' => w' = { w₄ with taken := reply } ∧ found = words) ⟨rfl, rfl⟩)
    fun found w₅ same => ?_
  rw [same.1, same.2]
  exact complete_goes place₅ valid rfl

theorem Failed.log (h : Failed w₀ w) (e : Event) (neutral : e.neutral = true) : Failed w₀ (w.log e) := by
  obtain ⟨sequence, ws, cs, ⟨⟨events, trace, written, completed, returned⟩, planned⟩, single, complete⟩ := h
  refine ⟨sequence, ws, cs, ⟨⟨e :: events, congrArg (List.cons _) trace, ?_, ?_, ?_⟩, planned_neutral _ neutral, planned⟩,
    single, complete⟩
  · rw [writes_neutral _ neutral, written]
  · rw [completes_neutral _ neutral, completed]
  · rw [received_neutral _ neutral]
    refine ⟨fun no => (by cases no), fun ⟨valid, sound⟩ => ?_⟩
    exact returned.mpr ⟨valid, fun e' mem => sound e' (List.mem_cons_of_mem _ mem)⟩

theorem failSample_goes (failure : Failure) (h : Failed w₀ w) :
    (failSample env failure).Goes free (fun _ _ => False) (fun _ w' => w'.failed = true ∧ Failed w₀ w') w := by
  refine change_goes (Goes.get_bind ?_)
  have failed : ({ w with failed := true } : World).failed = true ∧ Failed w₀ { w with failed := true } := by
    obtain ⟨sequence, ws, cs, ended, single, complete⟩ := h
    exact ⟨rfl, sequence, ws, cs, ⟨ended.events, ended.planned⟩, single, complete⟩
  have logs {w w' : World} (h : w.failed = true ∧ Failed w₀ w) (logged : Logged w w') : w'.failed = true ∧ Failed w₀ w' := by
    obtain ⟨e, neutral, -, rfl⟩ := logged
    exact ⟨h.1, h.2.log e neutral⟩
  have neutral (landed raised : Bool) (w : World) :
      (Event.journal (failedRecord w failure) landed raised).neutral = true := by
    cases failure <;> rfl
  have reports : (do
      checkJournal env
      journal env (failedRecord { w with failed := true } failure) : Act Unit).Goes free
        (fun _ w' => w'.failed = true ∧ Failed w₀ w') (fun _ w' => w'.failed = true ∧ Failed w₀ w')
        { w with failed := true } := by
    refine (checkJournal_goes.weaken (fun _ _ => logs failed) fun _ w' raised => ?_).bind fun _ w₁ h₁ => ?_
    · rw [raised]
      exact ⟨rfl, failed.2.log _ rfl⟩
    · refine (journal_goes _).weaken (fun _ w' landed => ?_) fun _ w' raised => ?_
      · rw [landed]
        exact ⟨h₁.1, h₁.2.log _ (neutral _ _ _)⟩
      · obtain ⟨landed, rfl⟩ := raised
        exact ⟨h₁.1, h₁.2.log _ (neutral _ _ _)⟩
  refine Goes.bind (E := fun _ w' => w'.failed = true ∧ Failed w₀ w') (reports.handle fun e w' h' => ?_)
    fun _ _ h' => Goes.raise h'
  exact Goes.ite (fun _ => Goes.pure h') fun _ => Goes.raise h'

theorem at_start (planned : Always Planned w.trace) : At w w [] none :=
  ⟨rfl, ⟨[], rfl, rfl, rfl, rfl, fun _ mem => (by cases mem)⟩, planned⟩

theorem sample_goes (c : PollConfig) (w : World) (planned : Always Planned w.trace) :
    (sample env c).Goes free
      (fun _ w' => w.failed = false ∧ w'.sequence = w.sequence + 1 ∧ Ended w w' [(w.sequence, query)] [w.sequence] true)
      (fun _ w' => (w.failed = true → w' = w) ∧ w'.failed = true ∧ Failed w w') w := by
  refine Goes.get_bind (check_goes (fun failed => ?_) fun alive => ?_)
  · exact ⟨fun _ => rfl, failed, failed_of_lost (lost_unsent (at_start planned))⟩
  · have alive' : w.failed = false := by simpa using alive
    have dead {p : Prop} (failed : w.failed = true) : p := absurd failed alive
    refine change_goes ?_
    have start : At w { w with exchangeStarted := false, taken := [] } [] none := (at_start planned).same rfl rfl
    refine ((attempt_goes c start).ensures fun _ _ ended => ⟨alive', ended⟩).handle fun failure w' h' => ?_
    exact (failSample_goes failure h').weaken (fun _ _ no => no.elim) fun _ _ ended => ⟨dead, ended⟩

end

end Smartwheel.Feedback
