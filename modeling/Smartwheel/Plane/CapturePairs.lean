import Smartwheel.Calibration.FramePairs

/-! `_pairs` of the plane capture: every left frame in turn takes the nearer one of the two right frames around its arrival that are not used
yet, and some of these pairs are selected, spread over all of them. -/
namespace Smartwheel.CapturePairs
open Effect
open Search (bisectLeft lt_bisectLeft_iff bisectLeft_mono bisectLeft_between sorted_le)
open Smartwheel.FramePairs (Pair Found options distance positions mem_options distance_of_getElem? items_of_ok items_pairwise
  positions_length positions_increasing)

def PAIR_COUNT : ℕ := 20

def MIN_PAIRS : ℕ := 5

def MAX_PAIR_DT_NS : ℤ := 50000000

section pairs
variable (right : List ℤ)

def selected (used : List ℕ) (left : ℤ) : Option ℕ :=
  ((options right left).filter fun j => !used.contains j).argmin fun j => toLex (distance right left j, j)

def take (found : Found) (i : ℕ) (left : ℤ) : Found :=
  match selected right found.used left with
  | some j =>
    let delta := distance right left j
    if delta ≤ MAX_PAIR_DT_NS then ⟨found.candidates ++ [⟨i, j, delta⟩], j :: found.used⟩ else found
  | none => found

/-- The loop over the left frames, from the `i`th one on. -/
def collect : ℕ → List ℤ → Found → Found
  | _, [], found => found
  | i, left :: rest, found => collect (i + 1) rest (take right found i left)

end pairs

def candidates (left right : List ℤ) : List Pair := (collect right 0 left ⟨[], []⟩).candidates

def latter (times : List ℤ) (midpoint stop : ℤ) : List ℤ := times.filter fun t => decide (midpoint ≤ t ∧ t ≤ stop)

/-- `_pairs`, of the times of the frames; positions are those in the latter half-window. `np.linspace` is exact; no quotient of it is half
an integer, or all of them are integers. -/
def pairs (left right : List ℤ) (midpoint stop : ℤ) : Except String (List Pair) := do
  let left := latter left midpoint stop
  let right := latter right midpoint stop
  require (left ≠ [] ∧ right ≠ []) "Both sensors need frames in the latter formal half-window"
  let result := candidates left right
  require (MIN_PAIRS ≤ result.length) "Fewer than 5 distinct pairs within 50 ms in the latter window"
  (positions result.length (min PAIR_COUNT result.length : ℕ)).mapM (FramePairs.item result)

structure Promised (left right : List ℤ) (midpoint stop : ℤ) : Prop where
  lefts : (candidates (latter left midpoint stop) (latter right midpoint stop)).Pairwise fun p q => p.left < q.left
  rights : (candidates (latter left midpoint stop) (latter right midpoint stop)).Pairwise fun p q => p.right < q.right
  close : ∀ p ∈ candidates (latter left midpoint stop) (latter right midpoint stop), p.delta ≤ MAX_PAIR_DT_NS
  nearest : ∀ p ∈ candidates (latter left midpoint stop) (latter right midpoint stop),
    ∃ host, (latter left midpoint stop)[p.left]? = some host ∧ p.right < (latter right midpoint stop).length ∧
      p.delta = distance (latter right midpoint stop) host p.right ∧
        ∀ k < (latter right midpoint stop).length, p.delta ≤ distance (latter right midpoint stop) host k
  chosen : ∀ picked, pairs left right midpoint stop = .ok picked →
    picked.Pairwise (fun p q => p.left < q.left ∧ p.right < q.right) ∧
      picked ⊆ candidates (latter left midpoint stop) (latter right midpoint stop) ∧
        picked.length = min PAIR_COUNT (candidates (latter left midpoint stop) (latter right midpoint stop)).length

section selected
variable {right : List ℤ} {used : List ℕ} {host : ℤ} {j k : ℕ}

theorem selected_spec (h : selected right used host = some j) : j ∈ options right host ∧ j ∉ used ∧
    ∀ k ∈ options right host, k ∉ used →
      distance right host j < distance right host k ∨ (distance right host j = distance right host k ∧ j ≤ k) := by
  obtain ⟨inside, free⟩ := List.mem_filter.mp (List.argmin_mem h)
  refine ⟨inside, by simpa using free, fun k inside free => ?_⟩
  have least := List.le_of_mem_argmin (List.mem_filter.mpr ⟨inside, by simpa using free⟩) h
  rwa [Prod.Lex.toLex_le_toLex] at least

end selected

/-! ### The loop -/

section loop
variable {right : List ℤ} {found : Found} {host : ℤ}

theorem collect_append (i : ℕ) (before after : List ℤ) :
    collect right i (before ++ after) found = collect right (i + before.length) after (collect right i before found) := by
  induction before generalizing i found with
  | nil => rfl
  | cons left before ih =>
    show collect right (i + 1) (before ++ after) _ = _
    rw [ih, List.length_cons]
    congr 1
    omega

/-- What the loop has made of `hosts`. -/
structure Collected (right hosts : List ℤ) (found : Found) : Prop where
  used : ∀ j, j ∈ found.used ↔ ∃ p ∈ found.candidates, p.right = j
  lefts : found.candidates.Pairwise fun p q => p.left < q.left
  near : ∀ p ∈ found.candidates, p.delta ≤ MAX_PAIR_DT_NS ∧ ∃ host, hosts[p.left]? = some host ∧ p.delta = distance right host p.right ∧
    p.right ∈ options right host ∧ ∀ k ∈ options right host, k ∉ found.used →
      distance right host p.right < distance right host k ∨ (distance right host p.right = distance right host k ∧ p.right ≤ k)

structure Ordered (right hosts : List ℤ) (found : Found) : Prop where
  rights : found.candidates.Pairwise fun p q => p.right < q.right
  nearest : ∀ p ∈ found.candidates, ∀ host, hosts[p.left]? = some host → ∀ k ∈ options right host,
    distance right host p.right ≤ distance right host k

theorem take_cases (right : List ℤ) (found : Found) (host : ℤ) (i : ℕ) :
    take right found i host = found ∨
      ∃ j, selected right found.used host = some j ∧ distance right host j ≤ MAX_PAIR_DT_NS ∧
        take right found i host = ⟨found.candidates ++ [⟨i, j, distance right host j⟩], j :: found.used⟩ := by
  cases chosen : selected right found.used host with
  | none =>
    refine .inl ?_
    unfold take
    rw [chosen]
  | some j =>
    by_cases close : distance right host j ≤ MAX_PAIR_DT_NS
    · refine .inr ⟨j, rfl, close, ?_⟩
      unfold take
      rw [chosen]
      exact if_pos close
    · refine .inl ?_
      unfold take
      rw [chosen]
      exact if_neg close

theorem inside_of_near {hosts : List ℤ} (h : Collected right hosts found) {p : Pair} (there : p ∈ found.candidates) : p.left < hosts.length := by
  obtain ⟨-, other, here, -⟩ := h.near p there
  exact (List.getElem?_eq_some_iff.mp here).1

theorem Collected.take {hosts : List ℤ} (h : Collected right hosts found) (host : ℤ) :
    Collected right (hosts ++ [host]) (take right found hosts.length host) := by
  have here {p : Pair} {other : ℤ} (there : p ∈ found.candidates) (known : hosts[p.left]? = some other) :
      (hosts ++ [host])[p.left]? = some other := by
    rw [List.getElem?_append_left (inside_of_near h there), known]
  rcases take_cases right found host hosts.length with same | ⟨j, chosen, close, same⟩
  · rw [same]
    refine ⟨h.used, h.lefts, fun p there => ?_⟩
    obtain ⟨near, other, known, rest⟩ := h.near p there
    exact ⟨near, other, here there known, rest⟩
  · rw [same]
    obtain ⟨inside, free, least⟩ := selected_spec chosen
    refine ⟨fun k => ?_, ?_, fun p there => ?_⟩
    · simp only [List.mem_cons, List.mem_append, List.not_mem_nil, or_false]
      rw [h.used]
      constructor
      · rintro (rfl | ⟨p, there, same⟩)
        · exact ⟨_, .inr rfl, rfl⟩
        · exact ⟨p, .inl there, same⟩
      · rintro ⟨p, there | rfl, same⟩
        · exact .inr ⟨p, there, same⟩
        · exact .inl same.symm
    · refine List.pairwise_append.mpr ⟨h.lefts, List.pairwise_singleton _ _, fun p there q last => ?_⟩
      rw [List.mem_singleton.mp last]
      exact inside_of_near h there
    · rcases List.mem_append.mp there with there | last
      · obtain ⟨near, other, known, delta, inside, first⟩ := h.near p there
        exact ⟨near, other, here there known, delta, inside, fun k option unused =>
          first k option fun used => unused (List.mem_cons_of_mem _ used)⟩
      · rw [List.mem_singleton.mp last]
        exact ⟨close, host, List.getElem?_concat_length, rfl, inside, fun k option unused =>
          least k option fun used => unused (List.mem_cons_of_mem _ used)⟩

theorem collect_collected (right hosts : List ℤ) : Collected right hosts (collect right 0 hosts ⟨[], []⟩) := by
  induction hosts using List.reverseRecOn with
  | nil => exact ⟨by simp [collect], List.Pairwise.nil, by simp [collect]⟩
  | append_singleton hosts host ih =>
    have next := ih.take host
    rw [collect_append, Nat.zero_add]
    exact next

end loop

section main
variable {left right : List ℤ} {midpoint stop : ℤ}

end main

end Smartwheel.CapturePairs
