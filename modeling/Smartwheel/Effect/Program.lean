import Mathlib.Logic.Relation

/-! Programs over a state that may raise, with a weakest-precondition calculus. An outcome is a
value, a raised error, or `cut`: the observer stopped watching inside a loop, so nothing later of
the program (no handler and no final block either) is seen. -/
namespace Effect

inductive Outcome (ε α : Type) where
  | value (a : α)
  | raised (e : ε)
  | cut
deriving DecidableEq, Repr

def Program (σ ε α : Type) : Type := σ → Outcome ε α × σ

namespace Program
variable {σ ε α β : Type}

def pure (a : α) : Program σ ε α := fun s => (.value a, s)

def bind (x : Program σ ε α) (f : α → Program σ ε β) : Program σ ε β := fun s =>
  match x s with
  | (.value a, s') => f a s'
  | (.raised e, s') => (.raised e, s')
  | (.cut, s') => (.cut, s')

instance : Monad (Program σ ε) where
  pure := Program.pure
  bind := Program.bind

def get : Program σ ε σ := fun s => (.value s, s)
def modify (f : σ → σ) : Program σ ε Unit := fun s => (.value (), f s)
def raise (e : ε) : Program σ ε α := fun s => (.raised e, s)
def cut : Program σ ε α := fun s => (.cut, s)

/-- `try x except e: h e`. State changes made before the error are kept. -/
def handle (x : Program σ ε α) (h : ε → Program σ ε α) : Program σ ε α := fun s =>
  match x s with
  | (.value a, s') => (.value a, s')
  | (.raised e, s') => h e s'
  | (.cut, s') => (.cut, s')

/-- `try x finally y`: an error of `y` replaces the one of `x`. -/
def ensure (x : Program σ ε α) (y : Program σ ε Unit) : Program σ ε α := fun s =>
  match x s with
  | (.value a, s') => (y >>= fun _ => Program.pure a) s'
  | (.raised e, s') => (y >>= fun _ => raise e) s'
  | (.cut, s') => (.cut, s')

/-- `if c: x` in the middle of a block. -/
def when (c : Prop) [Decidable c] (x : Program σ ε Unit) : Program σ ε Unit :=
  if c then x else pure ()

def raiseIf (c : Prop) [Decidable c] (e : ε) : Program σ ε Unit := when c (raise e)

/-- The value of `o`, or the error where there is none. -/
def need (o : Option α) (e : ε) : Program σ ε α :=
  match o with
  | some a => pure a
  | none => raise e

theorem modify_modify (f g : σ → σ) :
    ((modify f : Program σ ε Unit) >>= fun _ => modify g) = modify fun s => g (f s) := rfl

theorem modify_modify_bind (f g : σ → σ) (k : Unit → Program σ ε α) :
    (modify f >>= fun _ => modify g >>= k) = (modify fun s => g (f s)) >>= k := rfl

/-- Weakest precondition: what must hold before `x` for `Q` to hold after it. -/
def wp (x : Program σ ε α) (Q : Outcome ε α → σ → Prop) (s : σ) : Prop := Q (x s).1 (x s).2

variable {Q R : Outcome ε α → σ → Prop} {s : σ}

@[simp] theorem wp_pure (a : α) : (Pure.pure a : Program σ ε α).wp Q s ↔ Q (.value a) s := Iff.rfl
@[simp] theorem wp_get {Q : Outcome ε σ → σ → Prop} :
    (get : Program σ ε σ).wp Q s ↔ Q (.value s) s := Iff.rfl
@[simp] theorem wp_modify {Q : Outcome ε Unit → σ → Prop} (f : σ → σ) :
    (modify f : Program σ ε Unit).wp Q s ↔ Q (.value ()) (f s) := Iff.rfl

def andThen (f : α → Program σ ε β) (Q : Outcome ε β → σ → Prop) : Outcome ε α → σ → Prop
  | .value a, s => (f a).wp Q s
  | .raised e, s => Q (.raised e) s
  | .cut, s => Q .cut s

@[simp] theorem andThen_value (f : α → Program σ ε β) (Q : Outcome ε β → σ → Prop) (a : α) :
    andThen f Q (.value a) s ↔ (f a).wp Q s := Iff.rfl
@[simp] theorem andThen_raised (f : α → Program σ ε β) (Q : Outcome ε β → σ → Prop) (e : ε) :
    andThen f Q (.raised e) s ↔ Q (.raised e) s := Iff.rfl

@[simp] theorem wp_bind (x : Program σ ε α) (f : α → Program σ ε β) (Q : Outcome ε β → σ → Prop) :
    (x >>= f).wp Q s ↔ x.wp (andThen f Q) s := by
  change Q (Program.bind x f s).1 (Program.bind x f s).2 ↔ andThen f Q (x s).1 (x s).2
  unfold Program.bind
  rcases x s with ⟨_ | _ | _, s'⟩ <;> rfl

def orElse (h : ε → Program σ ε α) (Q : Outcome ε α → σ → Prop) : Outcome ε α → σ → Prop
  | .value a, s => Q (.value a) s
  | .raised e, s => (h e).wp Q s
  | .cut, s => Q .cut s

@[simp] theorem wp_handle (x : Program σ ε α) (h : ε → Program σ ε α) :
    (x.handle h).wp Q s ↔ x.wp (orElse h Q) s := by
  change Q (Program.handle x h s).1 (Program.handle x h s).2 ↔ orElse h Q (x s).1 (x s).2
  unfold Program.handle
  rcases x s with ⟨_ | _ | _, s'⟩ <;> rfl

def lastly (y : Program σ ε Unit) (Q : Outcome ε α → σ → Prop) : Outcome ε α → σ → Prop
  | .value a, s => y.wp (andThen (fun _ => (Pure.pure a : Program σ ε α)) Q) s
  | .raised e, s => y.wp (andThen (fun _ => (raise e : Program σ ε α)) Q) s
  | .cut, s => Q .cut s

@[simp] theorem lastly_value (y : Program σ ε Unit) (a : α) :
    lastly y Q (.value a) s ↔ y.wp (andThen (fun _ => (Pure.pure a : Program σ ε α)) Q) s := Iff.rfl
@[simp] theorem lastly_raised (y : Program σ ε Unit) (e : ε) :
    lastly y Q (.raised e) s ↔ y.wp (andThen (fun _ => (raise e : Program σ ε α)) Q) s := Iff.rfl

@[simp] theorem wp_ensure (x : Program σ ε α) (y : Program σ ε Unit) :
    (x.ensure y).wp Q s ↔ x.wp (lastly y Q) s := by
  change Q (Program.ensure x y s).1 (Program.ensure x y s).2 ↔ lastly y Q (x s).1 (x s).2
  unfold Program.ensure
  rcases x s with ⟨a | e | _, s'⟩
  · exact wp_bind y (fun _ => (Program.pure a : Program σ ε α)) Q
  · exact wp_bind y (fun _ => (raise e : Program σ ε α)) Q
  · rfl

theorem wp_ite {c : Prop} [Decidable c] (x y : Program σ ε α) :
    (if c then x else y).wp Q s ↔ if c then x.wp Q s else y.wp Q s := by
  split <;> rfl

theorem wp_raiseIf {c : Prop} [Decidable c] {e : ε} {Q : Outcome ε Unit → σ → Prop} :
    (raiseIf c e : Program σ ε Unit).wp Q s ↔ if c then Q (.raised e) s else Q (.value ()) s := by
  unfold raiseIf when
  split <;> rfl

theorem wp.mono {x : Program σ ε α} (h : x.wp Q s) (hQ : ∀ r s', Q r s' → R r s') : x.wp R s :=
  hQ _ _ h

theorem wp.seq {x : Program σ ε α} {f : α → Program σ ε β} {T : Outcome ε β → σ → Prop}
    (h : x.wp Q s) (hv : ∀ a s', Q (.value a) s' → (f a).wp T s')
    (he : ∀ e s', Q (.raised e) s' → T (.raised e) s') (hc : ∀ s', Q .cut s' → T .cut s') :
    (x >>= f).wp T s := by
  rw [wp_bind]
  refine h.mono ?_
  rintro (a | e | _) s' hs
  · exact hv a s' hs
  · exact he e s' hs
  · exact hc s' hs

/-- What holds before `x` holds after it, whatever it raises and wherever it is cut. -/
def Preserves (J : σ → Prop) (x : Program σ ε α) : Prop := ∀ s, J s → x.wp (fun _ s' => J s') s

namespace Preserves
variable {J : σ → Prop} {x : Program σ ε α}

theorem pure (a : α) : (Pure.pure a : Program σ ε α).Preserves J := fun _ h => h

theorem raise (e : ε) : (Program.raise e : Program σ ε α).Preserves J := fun _ h => h

theorem get : (Program.get : Program σ ε σ).Preserves J := fun _ h => h

theorem modify {f : σ → σ} (h : ∀ s, J s → J (f s)) : (Program.modify f : Program σ ε Unit).Preserves J := h

theorem bind {f : α → Program σ ε β} (h : x.Preserves J) (next : ∀ a, (f a).Preserves J) : (x >>= f).Preserves J :=
  fun s hs => wp.seq (h s hs) (fun a s' h => next a s' h) (fun _ _ h => h) fun _ h => h

theorem handle {handler : ε → Program σ ε α} (h : x.Preserves J) (next : ∀ e, (handler e).Preserves J) :
    (x.handle handler).Preserves J := by
  intro s hs
  rw [wp_handle]
  refine (h s hs).mono ?_
  rintro (a | e | _) s' h'
  · exact h'
  · exact next e s' h'
  · exact h'

theorem when {c : Prop} [Decidable c] {x : Program σ ε Unit} (h : x.Preserves J) : (Program.when c x).Preserves J := by
  unfold Program.when
  split
  · exact h
  · exact pure _

theorem raiseIf {c : Prop} [Decidable c] {e : ε} : (Program.raiseIf c e).Preserves J := when (raise e)

theorem need {o : Option α} {e : ε} : (Program.need o e).Preserves J := by
  unfold Program.need
  split
  · exact pure _
  · exact raise _

end Preserves
end Program
end Effect
