import Smartwheel.Effect.Program
import Smartwheel.Effect.History

/-! Partial correctness with a guarantee: everything a program does between its first and its last
state is a path of one step relation, whatever it raises and wherever it is cut. -/
namespace Effect.Program
variable {σ ε α β : Type}

/-- What a program may do in one step, how the states before and after a finished program may be
related, and whether a program may be cut. -/
structure Guarantee (σ : Type) where
  step : σ → σ → Prop
  whole : σ → σ → Prop
  cuts : Prop
  whole_refl : ∀ s, whole s s
  whole_trans : ∀ {a b c}, whole a b → whole b c → whole a c

def Guarantee.loose (G : Guarantee σ) : Guarantee σ where
  step := G.step
  whole _ _ := True
  cuts := G.cuts
  whole_refl _ := trivial
  whole_trans _ _ := trivial

variable {G : Guarantee σ} {s : σ} {F F' : α → σ → Prop} {E E' : ε → σ → Prop}

def Ends (C : Prop) (W : σ → Prop) (F : α → σ → Prop) (E : ε → σ → Prop) : Outcome ε α → σ → Prop
  | .value a, s => W s ∧ F a s
  | .raised e, s => W s ∧ E e s
  | .cut, _ => C

/-- From `s`, `x` moves along `G`; a value ensures `F`, an error ensures `E`. -/
def Goes (G : Guarantee σ) (x : Program σ ε α) (F : α → σ → Prop) (E : ε → σ → Prop) (s : σ) : Prop :=
  x.wp (fun r s' => Path G.step s s' ∧ Ends G.cuts (G.whole s) F E r s') s

namespace Goes

variable {x : Program σ ε α}

theorem path (h : x.Goes G F E s) : Path G.step s (x s).2 := h.1

theorem uncut (h : x.Goes G F E s) (hc : ¬G.cuts) : (x s).1 ≠ .cut := by
  intro hx
  have h2 := h.2
  rw [hx] at h2
  exact hc h2

theorem value (h : x.Goes G F E s) {a : α} (hx : (x s).1 = .value a) : G.whole s (x s).2 ∧ F a (x s).2 := by
  have h2 := h.2
  rw [hx] at h2
  exact h2

theorem raised (h : x.Goes G F E s) {e : ε} (hx : (x s).1 = .raised e) : G.whole s (x s).2 ∧ E e (x s).2 := by
  have h2 := h.2
  rw [hx] at h2
  exact h2

theorem weaken (h : x.Goes G F E s) (hF : ∀ a s', F a s' → F' a s')
    (hE : ∀ e s', E e s' → E' e s') : x.Goes G F' E' s := by
  refine h.mono ?_
  rintro (a | e | _) s' ⟨hp, hr⟩
  · exact ⟨hp, hr.1, hF a s' hr.2⟩
  · exact ⟨hp, hr.1, hE e s' hr.2⟩
  · exact ⟨hp, hr⟩

theorem ensures (h : x.Goes G F E s) (hF : ∀ a s', F a s' → F' a s') : x.Goes G F' E s := h.weaken hF fun _ _ hE => hE

theorem with_path (h : x.Goes G F E s) :
    x.Goes G (fun a s' => Path G.step s s' ∧ F a s') (fun e s' => Path G.step s s' ∧ E e s') s := by
  refine h.mono ?_
  rintro (a | e | _) s' ⟨hp, hr⟩
  · exact ⟨hp, hr.1, hp, hr.2⟩
  · exact ⟨hp, hr.1, hp, hr.2⟩
  · exact ⟨hp, hr⟩

theorem along (h : x.Goes G F E s) : x.Goes G (fun a s' => Path G.step s s' ∧ F a s') E s :=
  h.with_path.weaken (fun _ _ h => h) fun _ _ h => h.2

theorem loosen (h : x.Goes G F E s) :
    x.Goes G.loose (fun a s' => G.whole s s' ∧ F a s') (fun e s' => G.whole s s' ∧ E e s') s := by
  refine h.mono ?_
  rintro (a | e | _) s' ⟨hp, hr⟩
  · exact ⟨hp, trivial, hr⟩
  · exact ⟨hp, trivial, hr⟩
  · exact ⟨hp, hr⟩

theorem relax (h : x.Goes G F E s) : x.Goes G.loose F E s :=
  h.loosen.weaken (fun _ _ h => h.2) fun _ _ h => h.2

theorem tighten (h : x.Goes G.loose (fun a s' => G.whole s s' ∧ F a s') (fun e s' => G.whole s s' ∧ E e s') s) :
    x.Goes G F E s := by
  refine h.mono ?_
  rintro (a | e | _) s' ⟨hp, hr⟩
  · exact ⟨hp, hr.2⟩
  · exact ⟨hp, hr.2⟩
  · exact ⟨hp, hr⟩

theorem recast {H : Guarantee σ} (hG : H.step = G.step) (hc : G.cuts → H.cuts)
    (hw : ∀ s', G.whole s s' → H.whole s s') (h : x.Goes G F E s) :
    x.Goes H (fun a s' => G.whole s s' ∧ F a s') (fun e s' => G.whole s s' ∧ E e s') s := by
  refine h.mono ?_
  rintro (a | e | _) s' ⟨hp, hr⟩
  · exact ⟨hG ▸ hp, hw s' hr.1, hr⟩
  · exact ⟨hG ▸ hp, hw s' hr.1, hr⟩
  · exact ⟨hG ▸ hp, hc hr⟩

/-- A part done before `x` goes into the whole. -/
theorem after {s' : σ} (hp : Path G.step s s') (hw : G.whole s s')
    (h : x.Goes G F E s') : x.wp (fun r s'' => Path G.step s s'' ∧ Ends G.cuts (G.whole s) F E r s'') s' := by
  refine h.mono ?_
  rintro (a | e | _) s'' ⟨hq, hr⟩
  · exact ⟨hp.trans hq, G.whole_trans hw hr.1, hr.2⟩
  · exact ⟨hp.trans hq, G.whole_trans hw hr.1, hr.2⟩
  · exact ⟨hp.trans hq, hr⟩

theorem pure {a : α} (h : F a s) : (Pure.pure a : Program σ ε α).Goes G F E s :=
  ⟨.refl, G.whole_refl s, h⟩

theorem raise {e : ε} (h : E e s) : (Program.raise e : Program σ ε α).Goes G F E s :=
  ⟨.refl, G.whole_refl s, h⟩

theorem cut (hc : G.cuts) : (Program.cut : Program σ ε α).Goes G F E s := ⟨.refl, hc⟩

theorem modify {F : Unit → σ → Prop} {f : σ → σ} (hR : Path G.step s (f s)) (hw : G.whole s (f s))
    (h : F () (f s)) : (Program.modify f : Program σ ε Unit).Goes G F E s := ⟨hR, hw, h⟩

theorem need {o : Option α} {e : ε} (hv : ∀ a, o = some a → F a s) (he : o = none → E e s) :
    (Program.need o e).Goes G F E s := by
  cases o with
  | some a => exact pure (hv a rfl)
  | none => exact raise (he rfl)

variable {H : β → σ → Prop}

theorem bind {f : α → Program σ ε β}
    (h : x.Goes G F E s) (hf : ∀ a s', F a s' → (f a).Goes G H E s') : (x >>= f).Goes G H E s := by
  refine wp.seq h ?_ ?_ ?_
  · rintro a s' ⟨hp, hw, hF⟩
    exact (hf a s' hF).after hp hw
  · rintro e s' ⟨hp, hE⟩
    exact ⟨hp, hE⟩
  · rintro s' ⟨hp, hc⟩
    exact ⟨hp, hc⟩

theorem get_bind {f : σ → Program σ ε β} (h : (f s).Goes G H E s) : (Program.get >>= f).Goes G H E s := h

theorem map {f : α → β} (h : x.Goes G (fun a s' => H (f a) s') E s) : (f <$> x).Goes G H E s :=
  h.bind fun _ _ hF => pure hF

theorem handle {k : ε → Program σ ε α} (h : x.Goes G F E s)
    (hk : ∀ e s', E e s' → (k e).Goes G F E' s') : (x.handle k).Goes G F E' s := by
  rw [Goes, wp_handle]
  refine h.mono ?_
  rintro (a | e | _) s' ⟨hp, hr⟩
  · exact ⟨hp, hr⟩
  · exact (hk e s' hr.2).after hp hr.1
  · exact ⟨hp, hr⟩

theorem ensure {y : Program σ ε Unit} (h : x.Goes G F E s)
    (hv : ∀ a s', F a s' → y.Goes G (fun _ s'' => F' a s'') E' s')
    (he : ∀ e s', E e s' → y.Goes G (fun _ s'' => E' e s'') E' s') :
    (x.ensure y).Goes G F' E' s := by
  rw [Goes, wp_ensure]
  refine h.mono ?_
  rintro (a | e | _) s' ⟨hp, hr⟩
  · exact (wp_bind _ _ _).mp ((bind (hv a s' hr.2) fun _ _ hF => pure hF).after hp hr.1)
  · exact (wp_bind _ _ _).mp ((bind (he e s' hr.2) fun _ _ hE => raise hE).after hp hr.1)
  · exact ⟨hp, hr⟩

theorem ite {c : Prop} [Decidable c] {y : Program σ ε α} (hx : c → x.Goes G F E s)
    (hy : ¬c → y.Goes G F E s) : (if c then x else y).Goes G F E s := by
  split
  · exact hx ‹_›
  · exact hy ‹_›

theorem when {c : Prop} [Decidable c] {x : Program σ ε Unit} {F : Unit → σ → Prop}
    (hx : c → x.Goes G F E s) (hc : ¬c → F () s) : (Program.when c x).Goes G F E s :=
  ite hx fun h => pure (hc h)

theorem raiseIf {c : Prop} [Decidable c] {e : ε} {F : Unit → σ → Prop} (he : c → E e s)
    (hc : ¬c → F () s) : (Program.raiseIf c e).Goes G F E s :=
  when (fun h => raise (he h)) hc

end Goes
end Effect.Program
