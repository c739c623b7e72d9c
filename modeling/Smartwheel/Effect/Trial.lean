import Smartwheel.Effect.Program

/-! Programs of named operations, of which one may fail: a `try` around some of them and the operations of its handler are told apart
by their names. -/
namespace Effect

structure Trial (κ σ : Type) where
  state : σ
  failing : Option (κ × Nat)

def Outcome.error {ε α : Type} : Outcome ε α → Option ε
  | .raised e => some e
  | _ => none

theorem Outcome.run_of_error {ε α σ : Type} {run : Outcome ε α × σ} {e : ε} (h : run.1.error = some e) : run = (.raised e, run.2) := by
  obtain ⟨o, s⟩ := run
  cases o with
  | raised e' => rw [Option.some.inj h]
  | value a | cut => cases h

namespace Trial
open Program (wp wp_bind wp_handle wp_ensure wp_raiseIf lastly_value lastly_raised andThen orElse lastly)
variable {κ σ ε α β : Type}

/-- An operation: `f` is what it does, `torn` what it has done when it fails. -/
def operate [DecidableEq κ] (site : κ) (fault : ε) (f : σ → σ) (torn : Nat → σ → σ) : Program (Trial κ σ) ε Unit := fun t =>
  match t.failing with
  | some (failed, way) =>
    if failed = site then (.raised fault, ⟨torn way t.state, t.failing⟩) else (.value (), ⟨f t.state, t.failing⟩)
  | none => (.value (), ⟨f t.state, t.failing⟩)

def examine [DecidableEq κ] (site : κ) (fault : ε) (f : σ → α) : Program (Trial κ σ) ε α := do
  operate site fault id fun _ => id
  let t ← Program.get
  return f t.state

def alter (f : σ → σ) : Program (Trial κ σ) ε Unit := .modify fun t => { t with state := f t.state }

def peek (f : σ → α) : Program (Trial κ σ) ε α := do
  let t ← Program.get
  return f t.state

def lift (x : Except ε α) : Program (Trial κ σ) ε α :=
  match x with
  | .ok a => pure a
  | .error e => .raise e

def forEach (body : β → Program σ ε Unit) : List β → Program σ ε Unit
  | [] => pure ()
  | b :: rest => do
    body b
    forEach body rest

/-- What `body` returns for each of a list, in order. -/
def gather (body : β → Program σ ε α) : List β → Program σ ε (List α)
  | [] => pure []
  | b :: rest => do
    let a ← body b
    let others ← gather body rest
    return a :: others

/-- From `s`, where `failing` fails: a value ensures `F`, an error `E`. -/
def Ends (failing : Option (κ × Nat)) (x : Program (Trial κ σ) ε α) (F : α → σ → Prop) (E : ε → σ → Prop) (s : σ) : Prop :=
  x.wp (fun r t => t.failing = failing ∧
    match r with
    | .value a => F a t.state
    | .raised e => E e t.state
    | .cut => False) ⟨s, failing⟩

namespace Ends
variable {failing : Option (κ × Nat)} {x : Program (Trial κ σ) ε α} {F F' : α → σ → Prop} {E E' : ε → σ → Prop} {s : σ}
  {site : κ} {fault : ε}

theorem pure {a : α} (h : F a s) : Ends failing (Pure.pure a : Program (Trial κ σ) ε α) F E s := ⟨rfl, h⟩

theorem raise {e : ε} (h : E e s) : Ends failing (Program.raise e : Program (Trial κ σ) ε α) F E s := ⟨rfl, h⟩

theorem weaken (h : Ends failing x F E s) (value : ∀ a s', F a s' → F' a s') (error : ∀ e s', E e s' → E' e s') :
    Ends failing x F' E' s := by
  refine wp.mono h ?_
  rintro (a | e | _) t ⟨same, last⟩
  · exact ⟨same, value a _ last⟩
  · exact ⟨same, error e _ last⟩
  · exact last.elim

theorem bind {f : α → Program (Trial κ σ) ε β} {G : β → σ → Prop} (h : Ends failing x F E s)
    (next : ∀ a s', F a s' → Ends failing (f a) G E s') : Ends failing (x >>= f) G E s := by
  unfold Ends
  rw [wp_bind]
  refine wp.mono h ?_
  rintro (a | e | _) ⟨s', held⟩ ⟨same, last⟩
  · cases same
    exact next a s' last
  · exact ⟨same, last⟩
  · exact last.elim

/-- `try x except e: handler e`. -/
theorem handle {handler : ε → Program (Trial κ σ) ε α} (h : Ends failing x F E' s)
    (next : ∀ e s', E' e s' → Ends failing (handler e) F E s') : Ends failing (x.handle handler) F E s := by
  unfold Ends
  rw [wp_handle]
  refine wp.mono h ?_
  rintro (a | e | _) ⟨s', held⟩ ⟨same, last⟩
  · exact ⟨same, last⟩
  · cases same
    exact next e s' last
  · exact last.elim

/-- `try x finally y`. -/
theorem ensure {y : Program (Trial κ σ) ε Unit} {G : α → σ → Prop} {H : ε → σ → Prop} (h : Ends failing x G H s)
    (value : ∀ a s', G a s' → Ends failing y (fun _ => F a) E s')
    (error : ∀ e s', H e s' → Ends failing y (fun _ => E e) E s') : Ends failing (x.ensure y) F E s := by
  unfold Ends
  rw [wp_ensure]
  refine wp.mono h ?_
  rintro (a | e | _) ⟨s', held⟩ ⟨same, last⟩
  · cases same
    rw [lastly_value, ← wp_bind]
    exact (value a s' last).bind fun _ _ done => Ends.pure done
  · cases same
    rw [lastly_raised, ← wp_bind]
    have after : Ends _ (y >>= fun _ => (Program.raise e : Program (Trial κ σ) ε α)) F E s' :=
      (error e s' last).bind fun _ _ done => Ends.raise done
    exact after
  · exact last.elim

theorem operate [DecidableEq κ] {f : σ → σ} {torn : Nat → σ → σ} {F : Unit → σ → Prop}
    (done : (∀ way, failing ≠ some (site, way)) → F () (f s)) (fails : ∀ way, failing = some (site, way) → E fault (torn way s)) :
    Ends failing (Trial.operate site fault f torn) F E s := by
  unfold Ends wp Trial.operate
  cases failing with
  | none => exact ⟨rfl, done fun way same => by cases same⟩
  | some p =>
    obtain ⟨failed, way⟩ := p
    dsimp only
    split
    · next same => exact ⟨rfl, fails way (by rw [same])⟩
    · next other => exact ⟨rfl, done fun way' same => other (congrArg Prod.fst (Option.some.inj same))⟩

theorem examine [DecidableEq κ] {f : σ → α} (done : (∀ way, failing ≠ some (site, way)) → F (f s) s)
    (fails : ∀ way, failing = some (site, way) → E fault s) : Ends failing (Trial.examine site fault f) F E s := by
  refine (Ends.operate (F := fun _ s' => s' = s ∧ ∀ way, failing ≠ some (site, way)) (fun clear => ⟨rfl, clear⟩) fails).bind ?_
  rintro - s' ⟨rfl, clear⟩
  exact ⟨rfl, done clear⟩

theorem alter {f : σ → σ} {F : Unit → σ → Prop} (h : F () (f s)) :
    Ends failing (Trial.alter f : Program (Trial κ σ) ε Unit) F E s := ⟨rfl, h⟩

theorem peek {f : σ → α} (h : F (f s) s) : Ends failing (Trial.peek f : Program (Trial κ σ) ε α) F E s := ⟨rfl, h⟩

theorem lift {o : Except ε α} (value : ∀ a, o = .ok a → F a s) (error : ∀ e, o = .error e → E e s) :
    Ends failing (Trial.lift o : Program (Trial κ σ) ε α) F E s := by
  cases o with
  | ok a => exact Ends.pure (value a rfl)
  | error e => exact Ends.raise (error e rfl)

theorem raiseIf {c : Prop} [Decidable c] {F : Unit → σ → Prop} (error : c → E fault s) (value : ¬c → F () s) :
    Ends failing (Program.raiseIf c fault) F E s := by
  unfold Ends
  rw [wp_raiseIf]
  split
  · next holds => exact ⟨rfl, error holds⟩
  · next fails => exact ⟨rfl, value fails⟩

theorem when {c : Prop} [Decidable c] {x : Program (Trial κ σ) ε Unit} {F : Unit → σ → Prop} (yes : c → Ends failing x F E s)
    (no : ¬c → F () s) : Ends failing (Program.when c x) F E s := by
  unfold Program.when
  split
  · next holds => exact yes holds
  · next fails => exact Ends.pure (no fails)

theorem forEach {body : β → Program (Trial κ σ) ε Unit} {K : List β → σ → Prop} {list : List β} (h : K list s)
    (step : ∀ b rest s', K (b :: rest) s' → Ends failing (body b) (fun _ => K rest) E s') :
    Ends failing (Trial.forEach body list) (fun _ => K []) E s := by
  induction list generalizing s with
  | nil => exact Ends.pure h
  | cons b rest ih => exact (step b rest s h).bind fun _ s' here => ih here

theorem run (h : Ends failing x F E s) : (∃ a s', x ⟨s, failing⟩ = (.value a, ⟨s', failing⟩) ∧ F a s') ∨
    ∃ e s', x ⟨s, failing⟩ = (.raised e, ⟨s', failing⟩) ∧ E e s' := by
  unfold Ends wp at h
  cases done : x ⟨s, failing⟩ with | mk outcome t =>
  rw [done] at h
  obtain ⟨s', held⟩ := t
  obtain ⟨same, last⟩ := h
  cases same
  cases outcome with
  | value a => exact .inl ⟨a, s', rfl, last⟩
  | raised e => exact .inr ⟨e, s', rfl, last⟩
  | cut => exact last.elim

end Ends

/-- What every operation of `x` keeps, `x` keeps, whichever fails. -/
def Stays (J : σ → Prop) (x : Program (Trial κ σ) ε α) : Prop := ∀ failing s, J s → Ends failing x (fun _ => J) (fun _ => J) s

namespace Stays
variable {J : σ → Prop} {x : Program (Trial κ σ) ε α} {site : κ} {fault : ε}

theorem pure (a : α) : Stays J (Pure.pure a : Program (Trial κ σ) ε α) := fun _ _ h => Ends.pure h

theorem raise (e : ε) : Stays J (Program.raise e : Program (Trial κ σ) ε α) := fun _ _ h => Ends.raise h

theorem bind {k : α → Program (Trial κ σ) ε β} (h : Stays J x) (next : ∀ a, Stays J (k a)) : Stays J (x >>= k) :=
  fun failing s hs => (h failing s hs).bind fun a s' hs' => next a failing s' hs'

theorem handle {handler : ε → Program (Trial κ σ) ε α} (h : Stays J x) (next : ∀ e, Stays J (handler e)) :
    Stays J (x.handle handler) := fun failing s hs => (h failing s hs).handle fun e s' hs' => next e failing s' hs'

theorem ensure {y : Program (Trial κ σ) ε Unit} (h : Stays J x) (last : Stays J y) : Stays J (x.ensure y) :=
  fun failing s hs => (h failing s hs).ensure (fun _ s' hs' => last failing s' hs') fun _ s' hs' => last failing s' hs'

theorem operate [DecidableEq κ] {f : σ → σ} {torn : Nat → σ → σ} (done : ∀ s, J s → J (f s)) (fails : ∀ way s, J s → J (torn way s)) :
    Stays J (Trial.operate site fault f torn) := fun _ s hs => Ends.operate (fun _ => done s hs) fun way _ => fails way s hs

theorem examine [DecidableEq κ] {f : σ → α} : Stays J (Trial.examine site fault f) :=
  fun _ _ hs => Ends.examine (fun _ => hs) fun _ _ => hs

theorem alter {f : σ → σ} (h : ∀ s, J s → J (f s)) : Stays J (Trial.alter f : Program (Trial κ σ) ε Unit) :=
  fun _ s hs => Ends.alter (h s hs)

theorem peek {f : σ → α} : Stays J (Trial.peek f : Program (Trial κ σ) ε α) := fun _ _ hs => Ends.peek hs

theorem lift {o : Except ε α} : Stays J (Trial.lift o : Program (Trial κ σ) ε α) :=
  fun _ _ hs => Ends.lift (fun _ _ => hs) fun _ _ => hs

theorem need {o : Option α} : Stays J (Program.need o fault : Program (Trial κ σ) ε α) := by
  cases o with
  | some a => exact pure a
  | none => exact raise fault

theorem raiseIf {c : Prop} [Decidable c] : Stays J (Program.raiseIf c fault : Program (Trial κ σ) ε Unit) :=
  fun _ _ hs => Ends.raiseIf (fun _ => hs) fun _ => hs

theorem when {c : Prop} [Decidable c] {x : Program (Trial κ σ) ε Unit} (h : Stays J x) : Stays J (Program.when c x) :=
  fun failing s hs => Ends.when (fun _ => h failing s hs) fun _ => hs

theorem forEach {body : β → Program (Trial κ σ) ε Unit} {list : List β} (h : ∀ b, Stays J (body b)) :
    Stays J (Trial.forEach body list) := fun failing _ hs =>
  Ends.forEach (K := fun _ => J) hs fun b _ s' hs' => h b failing s' hs'

end Stays
def Clear (failing : Option (κ × Nat)) (site : κ) : Prop := ∀ way, failing ≠ some (site, way)

/-- `x` changes nothing. It has a value, of which `Q` holds, if `P`, and raises if not. -/
def Decides (failing : Option (κ × Nat)) (P : Prop) (x : Program (Trial κ σ) ε α) (Q : α → Prop) (s : σ) : Prop :=
  Ends failing x (fun a s' => s' = s ∧ Q a ∧ P) (fun _ s' => s' = s ∧ ¬P) s

namespace Decides
variable {failing : Option (κ × Nat)} {x : Program (Trial κ σ) ε α} {P R : Prop} {Q G : α → Prop} {s : σ} {site : κ} {fault : ε}

theorem pure {a : α} (h : Q a) : Decides failing True (Pure.pure a : Program (Trial κ σ) ε α) Q s := Ends.pure ⟨rfl, h, trivial⟩

theorem done {a : α} : Decides failing True (Pure.pure a : Program (Trial κ σ) ε α) (fun _ => True) s := pure trivial

theorem weaken (h : Decides failing P x Q s) (same : P ↔ R) (value : ∀ a, Q a → P → G a) : Decides failing R x G s :=
  Ends.weaken h (fun a _ last => ⟨last.1, value a last.2.1 last.2.2, same.mp last.2.2⟩)
    fun _ _ last => ⟨last.1, fun p => last.2 (same.mpr p)⟩

theorem bind {f : α → Program (Trial κ σ) ε β} {G : β → Prop} (h : Decides failing P x Q s)
    (next : ∀ a, Q a → P → Decides failing R (f a) G s) : Decides failing (P ∧ R) (x >>= f) G s := by
  refine Ends.bind (Ends.weaken h (fun _ _ last => last) fun _ s' last => (?_ : s' = s ∧ ¬(P ∧ R))) ?_
  · exact ⟨last.1, fun both => last.2 both.1⟩
  · rintro a s' ⟨rfl, here, p⟩
    exact Ends.weaken (next a here p) (fun _ _ last => ⟨last.1, last.2.1, p, last.2.2⟩)
      fun _ _ last => ⟨last.1, fun both => last.2 both.2⟩

/-- The value of `x` is known. -/
theorem known {f : α → Program (Trial κ σ) ε β} {G : β → Prop} {a : α} (h : Decides failing P x (fun b => b = a) s)
    (next : P → Decides failing R (f a) G s) : Decides failing (P ∧ R) (x >>= f) G s :=
  h.bind fun _ same p => same ▸ next p

/-- `try x except: k`, of an `x` that changes nothing. -/
theorem handle {k : α} (h : Stays (fun s' => s' = s) x) :
    Decides failing True (x.handle fun _ => (Pure.pure k : Program (Trial κ σ) ε α)) (fun _ => True) s := by
  refine Ends.handle (Ends.weaken (h failing s rfl) (fun _ _ last => ⟨last, trivial, trivial⟩) fun _ _ last => last) ?_
  rintro e s' rfl
  exact Ends.pure ⟨rfl, trivial, trivial⟩

theorem examine [DecidableEq κ] {f : σ → α} :
    Decides failing (Clear failing site) (Trial.examine site fault f) (fun a => a = f s) s :=
  Ends.examine (fun clear => ⟨rfl, rfl, clear⟩) fun way hit => ⟨rfl, fun clear => clear way hit⟩

theorem lift {o : Except ε α} : Decides failing (∃ a, o = .ok a) (Trial.lift o : Program (Trial κ σ) ε α) (fun a => o = .ok a) s :=
  Ends.lift (fun a here => ⟨rfl, here, a, here⟩) fun e here => ⟨rfl, fun ⟨a, there⟩ => by rw [here] at there; cases there⟩

theorem raiseIf {c : Prop} [Decidable c] : Decides failing (¬c) (Program.raiseIf c fault : Program (Trial κ σ) ε Unit) (fun _ => True) s :=
  Ends.raiseIf (fun holds => ⟨rfl, fun fails => fails holds⟩) fun fails => ⟨rfl, trivial, fails⟩

theorem need {o : Option α} : Decides failing (∃ a, o = some a) (Program.need o fault : Program (Trial κ σ) ε α) (fun a => o = some a) s := by
  cases o with
  | some a => exact Ends.pure ⟨rfl, rfl, a, rfl⟩
  | none => exact Ends.raise ⟨rfl, fun ⟨a, there⟩ => by cases there⟩

theorem forEach {body : β → Program (Trial κ σ) ε Unit} {P : β → Prop} {list : List β}
    (h : ∀ b ∈ list, Decides failing (P b) (body b) (fun _ => True) s) :
    Decides failing (∀ b ∈ list, P b) (Trial.forEach body list) (fun _ => True) s := by
  induction list with
  | nil => exact done.weaken (by simp) fun _ _ _ => trivial
  | cons b rest ih =>
    refine ((h b List.mem_cons_self).bind fun _ _ _ => ih fun b' there => h b' (List.mem_cons_of_mem _ there)).weaken ?_
      fun _ _ _ => trivial
    exact List.forall_mem_cons.symm

theorem gather {body : β → Program (Trial κ σ) ε α} {P : β → Prop} {list : List β}
    (h : ∀ b ∈ list, Decides failing (P b) (body b) (fun _ => True) s) :
    Decides failing (∀ b ∈ list, P b) (Trial.gather body list) (fun _ => True) s := by
  induction list with
  | nil => exact done.weaken (by simp) fun _ _ _ => trivial
  | cons b rest ih =>
    refine ((h b List.mem_cons_self).bind fun _ _ _ => (ih fun b' there => h b' (List.mem_cons_of_mem _ there)).bind
      fun _ _ _ => done).weaken ?_ fun _ _ _ => trivial
    rw [and_true]
    exact List.forall_mem_cons.symm

theorem stays {J : σ → Prop} {P : Option (κ × Nat) → σ → Prop} {Q : σ → α → Prop}
    (h : ∀ failing s, Decides failing (P failing s) x (Q s) s) : Stays J x := fun failing s hs =>
  Ends.weaken (h failing s) (fun _ _ last => last.1 ▸ hs) fun _ _ last => last.1 ▸ hs

end Decides
end Trial
end Effect
