import Smartwheel.Calibration.Transforms
import Smartwheel.Gain.Walk

/-! `_connected_values` finds the values along all walks from its origin, or a cycle that is not the identity. -/
namespace Smartwheel.Calibration
open Gain

/-- A search ends with what `P` says, or raises for its paths, and then there is `wrong`. -/
def Searched {α : Type} (wrong : Prop) (P : α → Prop) : Except Failure α → Prop
  | .ok a => P a
  | .error failure => (∃ origin neighbor, failure = .inconsistent origin neighbor) ∧ wrong

namespace Searched
variable {α β : Type} {wrong wrong' : Prop} {P : α → Prop} {Q : β → Prop} {x : Except Failure α}
  {f : α → Except Failure β}

theorem bind (hx : Searched wrong P x) (hf : ∀ a, P a → Searched wrong Q (f a)) : Searched wrong Q (x >>= f) := by
  cases x with
  | error failure => exact hx
  | ok a => exact hf a hx

theorem mono (hx : Searched wrong P x) (hw : wrong → wrong') : Searched wrong' P x := by
  cases x with
  | error failure => exact ⟨hx.1, hw hx.2⟩
  | ok a => exact hx

end Searched

def Graph.Edge {M : Type} (graph : Graph M) (a b : Frame) (m : M) : Prop := (b, m) ∈ graph a

variable {M : Type}

theorem Graph.edge_append {graph : Graph M} {a b v w : Frame} {m g : M} :
    (graph.append a b m).Edge v w g ↔ graph.Edge v w g ∨ v = a ∧ w = b ∧ g = m := by
  by_cases hv : v = a
  · simp [Graph.Edge, Graph.append, hv]
  · simp [Graph.Edge, Graph.append, hv]

theorem lookup_append_new {result : List (Frame × M)} {frame : Frame} (value : M) (new : result.lookup frame = none) :
    (fun a => (result ++ [(frame, value)]).lookup a) = fun a => if a = frame then some value else result.lookup a := by
  funext a
  by_cases ha : a = frame
  · simp [List.lookup_append, ha, new]
  · have hb : (a == frame) = false := by simpa using ha
    simp [List.lookup_append, ha, List.lookup_cons, hb]

variable [Monoid M]

structure Searching (graph : Graph M) (origin current : Frame) (rest result : List (Frame × M)) (pending : List Frame) :
    Prop where
  explored : Explored graph.Edge origin (fun a => result.lookup a)
    (fun v w h => v ∈ pending ∨ v = current ∧ (w, h) ∈ rest)
  waiting : ∀ frame ∈ pending, (result.lookup frame).isSome

namespace Searching
variable {graph : Graph M} {origin current : Frame} {rest result : List (Frame × M)} {pending : List Frame} {value : M}
  {neighbor : Frame} {step : M}

theorem agree (s : Searching graph origin current ((neighbor, step) :: rest) result pending)
    (here : result.lookup current = some value) (old : result.lookup neighbor = some (value * step)) :
    Searching graph origin current rest result pending := by
  refine ⟨(s.explored.checked here old).weaken fun v w h _ todo => ?_, s.waiting⟩
  rcases todo with ⟨waiting | ⟨rfl, now⟩, other⟩
  · exact .inl waiting
  · rcases List.mem_cons.mp now with same | now
    · exact absurd ⟨rfl, (Prod.mk.inj same).1, (Prod.mk.inj same).2⟩ other
    · exact .inr ⟨rfl, now⟩

theorem extend (s : Searching graph origin current ((neighbor, step) :: rest) result pending)
    (he : graph.Edge current neighbor step) (here : result.lookup current = some value)
    (new : result.lookup neighbor = none) :
    Searching graph origin current rest (result ++ [(neighbor, value * step)]) (pending ++ [neighbor]) := by
  have found := lookup_append_new (value * step) new
  refine ⟨?_, fun frame waiting => ?_⟩
  · rw [found]
    refine (s.explored.extended here he new).weaken fun v w h _ todo => ?_
    rcases todo with ⟨waiting | ⟨rfl, now⟩, other⟩ | rfl
    · exact .inl (by simp [waiting])
    · rcases List.mem_cons.mp now with same | now
      · exact absurd ⟨rfl, (Prod.mk.inj same).1, (Prod.mk.inj same).2⟩ other
      · exact .inr ⟨rfl, now⟩
    · exact .inl (by simp)
  · rw [congrFun found frame]
    by_cases same : frame = neighbor
    · simp [same]
    · have before : frame ∈ pending := by simpa [same] using waiting
      simpa [same] using s.waiting frame before

theorem next (s : Searching graph origin neighbor [] result (current :: pending)) :
    Searching graph origin current (graph current) result pending := by
  refine ⟨s.explored.weaken fun v w h he todo => ?_, fun frame h => s.waiting frame (List.mem_cons_of_mem _ h)⟩
  rcases todo with waiting | ⟨_, none⟩
  · rcases List.mem_cons.mp waiting with rfl | waiting
    · exact .inr ⟨rfl, he⟩
    · exact .inl waiting
  · cases none

end Searching

variable [DecidableEq M] {graph : Graph M} {origin current : Frame} {rest result : List (Frame × M)} {pending : List Frame} {value : M}

theorem neighbors_spec (rev : Reversible graph.Edge) (s : Searching graph origin current rest result pending)
    (here : result.lookup current = some value) (edges : ∀ e ∈ rest, e ∈ graph current) :
    Searched (¬Balanced graph.Edge) (fun r => Searching graph origin current [] r.1 r.2) (neighbors origin value rest result pending) := by
  induction rest generalizing result pending with
  | nil => exact s
  | cons edge rest ih =>
    obtain ⟨neighbor, step⟩ := edge
    have he : graph.Edge current neighbor step := edges _ (by simp)
    have later : ∀ e ∈ rest, e ∈ graph current := fun e h => edges e (List.mem_cons_of_mem _ h)
    cases found : result.lookup neighbor with
    | none =>
      simp only [neighbors, found]
      exact ih (s.extend he here found) (by simp [List.lookup_append, here]) later
    | some known =>
      by_cases agrees : known = value * step
      · simp only [neighbors, found, agrees, if_true]
        exact ih (s.agree here (found.trans (congrArg some agrees))) here later
      · simp only [neighbors, found, agrees, if_false]
        exact ⟨⟨origin, neighbor, rfl⟩, s.explored.conflict rev here he found agrees⟩

theorem explore_spec (rev : Reversible graph.Edge) (s : Searching graph origin current [] result pending) :
    Searched (¬Balanced graph.Edge) (fun found => Explored graph.Edge origin (fun a => found.lookup a) fun _ _ _ => False)
      (explore graph origin result pending) := by
  induction result, pending using explore.induct graph origin generalizing current with
  | case1 result =>
    rw [explore]
    exact s.explored.weaken fun v w h _ todo => by simp at todo
  | case2 result place pending absent =>
    have found := s.waiting place (by simp)
    simp [absent] at found
  | case3 result place pending value here failure stops =>
    have spec := neighbors_spec rev s.next here fun e h => h
    rw [explore]
    simp only [here]
    split
    · rename_i other h
      rw [h] at spec
      exact spec
    · rename_i h
      rw [stops] at h
      cases h
  | case4 result place pending value here result' pending' goes ih =>
    have spec := neighbors_spec rev s.next here fun e h => h
    rw [goes] at spec
    rw [explore]
    simp only [here]
    split
    · rename_i h
      rw [goes] at h
      cases h
    · rename_i h
      rw [goes] at h
      cases h
      exact ih spec

/-- The values of `_connected_values` are those along all walks from its origin. -/
theorem connectedValues_spec (rev : Reversible graph.Edge) (origin : Frame) :
    Searched (¬Balanced graph.Edge) (fun found => ∀ a m, found.lookup a = some m ↔ Walk graph.Edge origin a m)
      (connectedValues graph origin) := by
  have s : Searching graph origin origin [] [(origin, (1 : M))] [origin] := by
    have root : (fun a => [(origin, (1 : M))].lookup a) = fun a => if a = origin then some 1 else none :=
      @lookup_append_new M [] origin 1 rfl
    refine ⟨?_, by simp [List.lookup_cons]⟩
    rw [root]
    exact (Explored.start origin).weaken fun v w h _ todo => .inl (by simp [todo])
  have spec := explore_spec rev s
  rw [connectedValues]
  cases h : explore graph origin [(origin, (1 : M))] [origin] with
  | error failure =>
    rw [h] at spec
    exact spec
  | ok found =>
    rw [h] at spec
    exact spec.finished

theorem checkComponents_spec (rev : Reversible graph.Edge) (frames : List Frame) :
    Searched (¬Balanced graph.Edge) (fun _ => True) (checkComponents graph frames) := by
  suffices h : ∀ checked : List Frame, Searched (¬Balanced graph.Edge) (fun _ => True)
      (frames.foldlM
        (fun checked origin => do
          if origin ∈ checked then return checked
          else
            let found ← connectedValues graph origin
            return checked ++ found.map Prod.fst)
        checked) from h []
  induction frames with
  | nil => exact fun checked => trivial
  | cons origin frames ih =>
    intro checked
    rw [List.foldlM_cons]
    refine Searched.bind (P := fun _ => True) ?_ fun next _ => ih next
    by_cases old : origin ∈ checked
    · simp only [old, if_true]
      exact trivial
    · simp only [old, if_false]
      exact (connectedValues_spec rev origin).bind fun found _ => trivial

/-- A value of the table for `a`. -/
def valueAt (table : List (Frame × List (Frame × M))) (a b : Frame) : Option M :=
  (table.lookup a).bind fun found => found.lookup b

theorem resolveAll_spec (rev : Reversible graph.Edge) (frames : List Frame) :
    Searched (¬Balanced graph.Edge)
      (fun table => ∀ a ∈ frames, ∀ b m, valueAt table a b = some m ↔ Walk graph.Edge a b m)
      (resolveAll graph frames) := by
  induction frames with
  | nil => exact fun a none => by simp at none
  | cons frame frames ih =>
    rw [resolveAll, List.mapM_cons]
    refine Searched.bind (P := fun row => row.1 = frame ∧ ∀ b m, row.2.lookup b = some m ↔ Walk graph.Edge frame b m)
      ?_ fun row hrow => ?_
    · exact (connectedValues_spec rev frame).bind fun found hfound => ⟨rfl, hfound⟩
    refine ih.bind fun table htable => ?_
    obtain ⟨name, found⟩ := row
    obtain ⟨rfl, hfound⟩ := hrow
    intro a ha b m
    by_cases same : a = name
    · subst same
      simpa [valueAt, List.lookup_cons] using hfound b m
    · have there : a ∈ frames := (List.mem_cons.mp ha).resolve_left same
      have differ : (a == name) = false := by simpa using same
      simpa [valueAt, List.lookup_cons, differ] using htable a there b m

end Smartwheel.Calibration
