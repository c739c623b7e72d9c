import Smartwheel.Effect.Program

/-! Programs whose operations can fail and can be the last: every operation on the outside has a fate, a process that
is killed is cut. What holds at a cut holds wherever the process may die. -/
namespace Effect

inductive Fate where
  | done
  | fails (way : Nat)
  | killed (way : Nat)
deriving DecidableEq, Repr

structure Host (σ : Type) where
  state : σ
  fates : List Fate
deriving DecidableEq, Repr

namespace Program
variable {σ ε α β : Type}

/-- An operation: `f` is what it does, `torn` what one that does not come to its end does, `fault` what it raises. -/
def attempt (fault : ε) (f : σ → σ) (torn : Nat → σ → σ) : Program (Host σ) ε Unit := fun h =>
  match h.fates with
  | [] => (.value (), ⟨f h.state, []⟩)
  | .done :: fates => (.value (), ⟨f h.state, fates⟩)
  | .fails way :: fates => (.raised fault, ⟨torn way h.state, fates⟩)
  | .killed way :: fates => (.cut, ⟨torn way h.state, fates⟩)

def atomic (fault : ε) (f : σ → σ) : Program (Host σ) ε Unit := attempt fault f fun _ => id

def fated (fate : Fate) (fault : ε) (f : σ → σ) (torn : Nat → σ → σ) : Program (Host σ) ε Unit := fun h =>
  match fate with
  | .done => (.value (), ⟨f h.state, h.fates⟩)
  | .fails way => (.raised fault, ⟨torn way h.state, h.fates⟩)
  | .killed way => (.cut, ⟨torn way h.state, h.fates⟩)

/-- `x` where all goes well. -/
def calmly (x : Program (Host σ) ε α) : Program (Host σ) ε α := fun h =>
  ((x ⟨h.state, []⟩).1, ⟨(x ⟨h.state, []⟩).2.state, h.fates⟩)

def view (fault : ε) (f : σ → α) : Program (Host σ) ε α := do
  atomic fault id
  let h ← get
  return f h.state

def change (f : σ → σ) : Program (Host σ) ε Unit := modify fun h => { h with state := f h.state }

def look (f : σ → α) : Program (Host σ) ε α := do
  let h ← get
  return f h.state

def each (body : β → Program σ ε Unit) : List β → Program σ ε Unit
  | [] => pure ()
  | b :: rest => do
    body b
    each body rest

/-- What `body` returns for each of a list, in order. -/
def collect (body : β → Program σ ε α) : List β → Program σ ε (List α)
  | [] => pure []
  | b :: rest => do
    let a ← body b
    let others ← collect body rest
    return a :: others

/-- From the outside `s`, whatever the fates: a value ensures `F`, an error `E`, a cut `I`. Where `calm` is true no
operation fails and none is the last. -/
def Runs (calm : Prop) (x : Program (Host σ) ε α) (I : σ → Prop) (F : α → σ → Prop) (E : ε → σ → Prop) (s : σ) : Prop :=
  ∀ fates, (calm → fates = []) →
    x.wp (fun r h => (calm → h.fates = []) ∧
      match r with
      | .value a => F a h.state
      | .raised e => E e h.state
      | .cut => ¬calm ∧ I h.state) ⟨s, fates⟩

namespace Runs
variable {calm : Prop} {x : Program (Host σ) ε α} {I I' : σ → Prop} {F F' : α → σ → Prop} {E E' : ε → σ → Prop} {s : σ}

theorem pure {a : α} (h : F a s) : (Pure.pure a : Program (Host σ) ε α).Runs calm I F E s := fun _ still => ⟨still, h⟩

theorem raise {e : ε} (h : E e s) : (Program.raise e : Program (Host σ) ε α).Runs calm I F E s := fun _ still => ⟨still, h⟩

theorem raiseIf {c : Prop} [Decidable c] {e : ε} {F : Unit → σ → Prop} (error : c → E e s) (value : ¬c → F () s) :
    (Program.raiseIf c e : Program (Host σ) ε Unit).Runs calm I F E s := by
  unfold Program.raiseIf when
  split
  · rename_i hc
    exact Runs.raise (error hc)
  · rename_i hc
    exact Runs.pure (value hc)

theorem need {o : Option α} {e : ε} (value : ∀ a, o = some a → F a s) (error : o = none → E e s) :
    (Program.need o e : Program (Host σ) ε α).Runs calm I F E s := by
  unfold Program.need
  split
  · exact Runs.pure (value _ rfl)
  · exact Runs.raise (error rfl)

theorem when {c : Prop} [Decidable c] {x : Program (Host σ) ε Unit} {F : Unit → σ → Prop} (yes : c → x.Runs calm I F E s)
    (no : ¬c → F () s) : (Program.when c x).Runs calm I F E s := by
  unfold Program.when
  split
  · rename_i hc
    exact yes hc
  · rename_i hc
    exact Runs.pure (no hc)

theorem weaken (h : x.Runs calm I F E s) (hI : ∀ s', I s' → I' s') (hF : ∀ a s', F a s' → F' a s')
    (hE : ∀ e s', E e s' → E' e s') : x.Runs calm I' F' E' s := by
  intro fates still
  refine (h fates still).mono ?_
  rintro (a | e | _) s' ⟨still', hr⟩
  · exact ⟨still', hF a _ hr⟩
  · exact ⟨still', hE e _ hr⟩
  · exact ⟨still', hr.1, hI _ hr.2⟩

variable {G : β → σ → Prop}

theorem bind {f : α → Program (Host σ) ε β} (h : x.Runs calm I F E s)
    (next : ∀ a s', F a s' → (f a).Runs calm I G E s') : (x >>= f).Runs calm I G E s := by
  intro fates still
  rw [wp_bind]
  refine (h fates still).mono ?_
  rintro (a | e | _) s' ⟨still', hr⟩
  · exact next a _ hr _ still'
  · exact ⟨still', hr⟩
  · exact ⟨still', hr⟩

/-- `try x except e: handler e`. -/
theorem handle {handler : ε → Program (Host σ) ε α} {G : ε → σ → Prop} (h : x.Runs calm I F G s)
    (next : ∀ e s', G e s' → (handler e).Runs calm I F E s') : (x.handle handler).Runs calm I F E s := by
  intro fates still
  rw [wp_handle]
  refine (h fates still).mono ?_
  rintro (a | e | _) s' ⟨still', hr⟩
  · exact ⟨still', hr⟩
  · exact next e _ hr _ still'
  · exact ⟨still', hr⟩

/-- `try x finally y`. -/
theorem ensure {y : Program (Host σ) ε Unit} (h : x.Runs calm I F' E' s)
    (value : ∀ a s', F' a s' → y.Runs calm I (fun _ => F a) E s')
    (error : ∀ e s', E' e s' → y.Runs calm I (fun _ => E e) E s') : (x.ensure y).Runs calm I F E s := by
  intro fates still
  rw [wp_ensure]
  refine (h fates still).mono ?_
  rintro (a | e | _) s' ⟨still', hr⟩
  · rw [lastly_value, ← wp_bind]
    have last : (y >>= fun _ => (Pure.pure a : Program (Host σ) ε α)).Runs calm I F E s'.state :=
      (value a _ hr).bind fun _ _ last => Runs.pure last
    exact last _ still'
  · rw [lastly_raised, ← wp_bind]
    have last : (y >>= fun _ => (Program.raise e : Program (Host σ) ε α)).Runs calm I F E s'.state :=
      (error e _ hr).bind fun _ _ last => Runs.raise last
    exact last _ still'
  · exact ⟨still', hr⟩

variable {f : σ → σ} {fault : ε} {torn : Nat → σ → σ}

theorem attempt {F : Unit → σ → Prop} (done : F () (f s))
    (fails : ¬calm → ∀ way, E fault (torn way s)) (killed : ¬calm → ∀ way, I (torn way s)) :
    (Program.attempt fault f torn).Runs calm I F E s := by
  intro fates still
  have rough {fate : Fate} {rest : List Fate} (here : fates = fate :: rest) : ¬calm := fun quiet => by
    simp [still quiet] at here
  unfold wp Program.attempt
  split
  · exact ⟨fun _ => rfl, done⟩
  · rename_i here
    exact ⟨fun quiet => absurd quiet (rough here), done⟩
  · rename_i here
    exact ⟨fun quiet => absurd quiet (rough here), fails (rough here) _⟩
  · rename_i here
    exact ⟨fun quiet => absurd quiet (rough here), rough here, killed (rough here) _⟩

theorem fated {fate : Fate} {F : Unit → σ → Prop} (done : fate = .done → F () (f s))
    (fails : ∀ way, fate = .fails way → E fault (torn way s)) (killed : ∀ way, fate = .killed way → ¬calm ∧ I (torn way s)) :
    (Program.fated fate fault f torn).Runs calm I F E s := by
  intro fates still
  unfold wp Program.fated
  split
  · exact ⟨still, done rfl⟩
  · exact ⟨still, fails _ rfl⟩
  · exact ⟨still, killed _ rfl⟩

theorem quiet {I' : σ → Prop} (h : x.Runs True I' F E s) : (Program.calmly x).Runs calm I F E s := by
  intro fates still
  have last := (h [] fun _ => rfl).2
  unfold wp Program.calmly
  refine ⟨still, ?_⟩
  cases r : (x ⟨s, []⟩).1 with
  | value a | raised e => simpa [r] using last
  | cut => simp [r] at last

theorem atomic {F : Unit → σ → Prop} (done : F () (f s)) (fails : ¬calm → E fault s)
    (killed : I s) : (Program.atomic fault f).Runs calm I F E s :=
  attempt done (fun rough _ => fails rough) fun _ _ => killed

theorem view {f : σ → α} (done : F (f s) s) (fails : ¬calm → E fault s) (killed : I s) :
    (Program.view fault f).Runs calm I F E s := by
  refine (Runs.atomic (F := fun _ s' => s' = s) rfl fails killed).bind ?_
  rintro - _ rfl
  exact fun _ still => ⟨still, done⟩

theorem change {F : Unit → σ → Prop} (done : F () (f s)) :
    (Program.change f : Program (Host σ) ε Unit).Runs calm I F E s := fun _ still => ⟨still, done⟩

theorem look {f : σ → α} (done : F (f s) s) : (Program.look f : Program (Host σ) ε α).Runs calm I F E s :=
  fun _ still => ⟨still, done⟩

variable {k : Unit → Program (Host σ) ε β}

theorem change_bind (next : (k ()).Runs calm I G E (f s)) :
    (Program.change f >>= k).Runs calm I G E s := fun fates still => next fates still

theorem look_bind {f : σ → α} {k : α → Program (Host σ) ε β} (next : (k (f s)).Runs calm I G E s) :
    (Program.look f >>= k).Runs calm I G E s := fun fates still => next fates still

theorem atomic_bind (next : (k ()).Runs calm I G E (f s)) (fails : ¬calm → E fault s) (killed : I s) :
    (Program.atomic fault f >>= k).Runs calm I G E s := by
  refine (Runs.atomic (F := fun _ s' => s' = f s) rfl fails killed).bind ?_
  rintro - _ rfl
  exact next

theorem attempt_bind (next : (k ()).Runs calm I G E (f s)) (fails : ¬calm → ∀ way, E fault (torn way s))
    (killed : ¬calm → ∀ way, I (torn way s)) : (Program.attempt fault f torn >>= k).Runs calm I G E s := by
  refine (Runs.attempt (F := fun _ s' => s' = f s) rfl fails killed).bind ?_
  rintro - _ rfl
  exact next

theorem view_bind {f : σ → α} {k : α → Program (Host σ) ε β}
    (next : (k (f s)).Runs calm I G E s) (fails : ¬calm → E fault s) (killed : I s) :
    (Program.view fault f >>= k).Runs calm I G E s := by
  refine (Runs.view (F := fun a s' => a = f s ∧ s' = s) ⟨rfl, rfl⟩ fails killed).bind ?_
  rintro _ _ ⟨rfl, rfl⟩
  exact next

theorem raiseIf_bind {c : Prop} [Decidable c] {e : ε}
    (error : c → E e s) (next : ¬c → (k ()).Runs calm I G E s) : (Program.raiseIf c e >>= k).Runs calm I G E s := by
  refine (Runs.raiseIf (F := fun _ s' => s' = s ∧ ¬c) error fun hc => ⟨rfl, hc⟩).bind ?_
  rintro - _ ⟨rfl, hc⟩
  exact next hc

theorem need_bind {o : Option α} {a : α} {e : ε} {k : α → Program (Host σ) ε β} (here : o = some a)
    (next : (k a).Runs calm I G E s) : (Program.need o e >>= k).Runs calm I G E s := by
  subst here
  exact next

structure Rests (calm : Prop) (I : σ → Prop) (E : ε → σ → Prop) (s : σ) : Prop where
  cut : I s
  fails : ¬calm → ∀ e, E e s

namespace Rests
variable {k : Unit → Program (Host σ) ε β} {G : β → σ → Prop} {fault : ε}

theorem atomic (rest : Rests calm I E s) (next : (k ()).Runs calm I G E (f s)) :
    (Program.atomic fault f >>= k).Runs calm I G E s := atomic_bind next (fun rough => rest.fails rough _) rest.cut

theorem view {f : σ → α} {k : α → Program (Host σ) ε β} (rest : Rests calm I E s) (next : (k (f s)).Runs calm I G E s) :
    (Program.view fault f >>= k).Runs calm I G E s := view_bind next (fun rough => rest.fails rough _) rest.cut

end Rests

theorem each {body : β → Program (Host σ) ε Unit} {K : List β → σ → Prop} {list : List β} (h : K list s)
    (step : ∀ b rest s', K (b :: rest) s' → (body b).Runs calm I (fun _ => K rest) E s') :
    (Program.each body list).Runs calm I (fun _ => K []) E s := by
  induction list generalizing s with
  | nil => exact Runs.pure h
  | cons b rest ih => exact (step b rest s h).bind fun _ s' here => ih here

theorem calmly (h : x.Runs True I F E s) :
    (∃ a, (x ⟨s, []⟩).1 = .value a ∧ F a (x ⟨s, []⟩).2.state) ∨ ∃ e, (x ⟨s, []⟩).1 = .raised e ∧ E e (x ⟨s, []⟩).2.state := by
  have last := (h [] fun _ => rfl).2
  cases r : (x ⟨s, []⟩).1 with
  | value a => exact .inl ⟨a, rfl, by simpa [r] using last⟩
  | raised e => exact .inr ⟨e, rfl, by simpa [r] using last⟩
  | cut => simp [r] at last

theorem always {P : σ → Prop} (h : x.Runs False I F E s) (hI : ∀ s', I s' → P s') (hF : ∀ a s', F a s' → P s')
    (hE : ∀ e s', E e s' → P s') (fates : List Fate) : P (x ⟨s, fates⟩).2.state := by
  have last := (h fates fun no => no.elim).2
  cases r : (x ⟨s, fates⟩).1 with
  | value a => exact hF a _ (by simpa [r] using last)
  | raised e => exact hE e _ (by simpa [r] using last)
  | cut => exact hI _ (by simpa [r] using last)

end Runs

/-- What every operation of `x` keeps, `x` keeps, wherever it ends. -/
def Keeps (J : σ → Prop) (x : Program (Host σ) ε α) : Prop := ∀ s, J s → x.Runs False J (fun _ => J) (fun _ => J) s

namespace Keeps
variable {J : σ → Prop} {x : Program (Host σ) ε α} {k : α → Program (Host σ) ε β}

theorem pure (a : α) : (Pure.pure a : Program (Host σ) ε α).Keeps J := fun _ h => Runs.pure h

theorem raise (e : ε) : (Program.raise e : Program (Host σ) ε α).Keeps J := fun _ h => Runs.raise h

theorem bind (h : x.Keeps J) (next : ∀ a, (k a).Keeps J) : (x >>= k).Keeps J :=
  fun s hs => (h s hs).bind fun a s' hs' => next a s' hs'

theorem handle {handler : ε → Program (Host σ) ε α} (h : x.Keeps J) (next : ∀ e, (handler e).Keeps J) :
    (x.handle handler).Keeps J := fun s hs => (h s hs).handle fun e s' hs' => next e s' hs'

theorem atomic {fault : ε} {f : σ → σ} (h : ∀ s, J s → J (f s)) : (Program.atomic fault f).Keeps J :=
  fun s hs => Runs.atomic (h s hs) (fun _ => hs) hs

theorem view {fault : ε} {f : σ → α} : (Program.view fault f).Keeps J := fun _ hs => Runs.view hs (fun _ => hs) hs

theorem change {f : σ → σ} (h : ∀ s, J s → J (f s)) : (Program.change f : Program (Host σ) ε Unit).Keeps J :=
  fun s hs => Runs.change (h s hs)

theorem look {f : σ → α} : (Program.look f : Program (Host σ) ε α).Keeps J := fun _ hs => Runs.look hs

theorem raiseIf {c : Prop} [Decidable c] {e : ε} : (Program.raiseIf c e : Program (Host σ) ε Unit).Keeps J :=
  fun _ hs => Runs.raiseIf (fun _ => hs) fun _ => hs

theorem when {c : Prop} [Decidable c] {x : Program (Host σ) ε Unit} (h : x.Keeps J) : (Program.when c x).Keeps J := by
  unfold Program.when
  split
  · exact h
  · exact pure _

theorem raiseIf_bind {c : Prop} [Decidable c] {e : ε} {k : Unit → Program (Host σ) ε β} (next : ¬c → (k ()).Keeps J) :
    (Program.raiseIf c e >>= k).Keeps J := fun s hs => Runs.raiseIf_bind (fun _ => hs) fun hc => next hc s hs

theorem need {o : Option α} {e : ε} : (Program.need o e : Program (Host σ) ε α).Keeps J :=
  fun _ hs => Runs.need (fun _ _ => hs) fun _ => hs

theorem each {body : β → Program (Host σ) ε Unit} {list : List β} (h : ∀ b, (body b).Keeps J) :
    (Program.each body list).Keeps J := fun _ hs => Runs.each (K := fun _ => J) hs fun b _ s' hs' => h b s' hs'

theorem collect {body : β → Program (Host σ) ε α} {list : List β} (h : ∀ b, (body b).Keeps J) :
    (Program.collect body list).Keeps J := by
  induction list with
  | nil => exact pure _
  | cons b rest ih => exact (h b).bind fun a => ih.bind fun others => pure _

theorem attempt {fault : ε} {f : σ → σ} {torn : Nat → σ → σ} (h : ∀ s, J s → J (f s)) (part : ∀ way s, J s → J (torn way s)) :
    (Program.attempt fault f torn).Keeps J :=
  fun s hs => Runs.attempt (h s hs) (fun _ way => part way s hs) fun _ way => part way s hs

theorem always (h : x.Keeps J) {s : σ} (hs : J s) (fates : List Fate) : J (x ⟨s, fates⟩).2.state :=
  (h s hs).always (fun _ h => h) (fun _ _ h => h) (fun _ _ h => h) fates

end Keeps
/-- Without faults, `x` returns and ensures `F`. -/
def Returns (x : Program (Host σ) ε α) (F : α → σ → Prop) (s : σ) : Prop :=
  ∃ a s', x ⟨s, []⟩ = (.value a, ⟨s', []⟩) ∧ F a s'

namespace Returns
variable {x : Program (Host σ) ε α} {F : α → σ → Prop} {G : β → σ → Prop} {s : σ} {fault : ε}

theorem pure {a : α} (h : F a s) : (Pure.pure a : Program (Host σ) ε α).Returns F s := ⟨a, s, rfl, h⟩

theorem bind {k : α → Program (Host σ) ε β} (h : x.Returns F s) (next : ∀ a s', F a s' → (k a).Returns G s') :
    (x >>= k).Returns G s := by
  obtain ⟨a, s', runs, here⟩ := h
  obtain ⟨b, s'', last, there⟩ := next a s' here
  refine ⟨b, s'', ?_, there⟩
  show Program.bind x k ⟨s, []⟩ = _
  simp only [Program.bind, runs, last]

theorem atomic {f : σ → σ} {F : Unit → σ → Prop} (h : F () (f s)) : (Program.atomic fault f).Returns F s := ⟨(), f s, rfl, h⟩

theorem attempt_bind {f : σ → σ} {torn : Nat → σ → σ} {k : Unit → Program (Host σ) ε β} (next : (k ()).Returns G (f s)) :
    (Program.attempt fault f torn >>= k).Returns G s := next

theorem atomic_bind {f : σ → σ} {k : Unit → Program (Host σ) ε β} (next : (k ()).Returns G (f s)) :
    (Program.atomic fault f >>= k).Returns G s := next

theorem view_bind {f : σ → α} {k : α → Program (Host σ) ε β} (next : (k (f s)).Returns G s) :
    (Program.view fault f >>= k).Returns G s := next

theorem raiseIf_bind {c : Prop} [Decidable c] {k : Unit → Program (Host σ) ε β} (passes : ¬c) (next : (k ()).Returns G s) :
    (Program.raiseIf c fault >>= k).Returns G s := by
  unfold Program.raiseIf when
  rw [if_neg passes]
  exact next

theorem need_bind {o : Option α} {a : α} {k : α → Program (Host σ) ε β} (here : o = some a) (next : (k a).Returns G s) :
    (Program.need o fault >>= k).Returns G s := by
  subst here
  exact next

end Returns
end Program
end Effect
