import Mathlib.Data.List.MinMax
import Mathlib.Data.Prod.Lex
import Mathlib.Algebra.Order.Group.Abs
import Mathlib.Algebra.Order.Group.Int
import Smartwheel.Effect.Check
import Smartwheel.Manual.Encoding
import Smartwheel.Search.Bisect

/-! `select_pairs` of the pairing capture: every left frame in turn takes the right frame that arrived nearest to it, unless an
earlier one has it, and some of these pairs are selected, spread over all of them. -/
namespace Smartwheel.FramePairs
open Effect
open Search (bisectLeft lt_bisectLeft_iff bisectLeft_mono bisectLeft_between sorted_le)

structure Pair where
  left : ℕ
  right : ℕ
  delta : ℤ
deriving DecidableEq, Repr

section selection
variable (times : List ℤ)

def options (host : ℤ) : List ℕ :=
  let place := bisectLeft times host
  (if 0 < place then [place - 1] else []) ++ if place < times.length then [place] else []

def distance (host : ℤ) (j : ℕ) : ℤ := |host - times.getD j 0|

/-- Distances first, then positions. -/
instance lexPreorder : Preorder (ℤ ×ₗ ℕ) := @Prod.Lex.instPreorder ℤ ℕ Int.instLinearOrder.toPartialOrder.toPreorder Nat.instPreorder

instance lexOrder : LinearOrder (ℤ ×ₗ ℕ) := @Prod.Lex.instLinearOrder ℤ ℕ Int.instLinearOrder Nat.instLinearOrder

def nearest (host : ℤ) : Option ℕ := (options times host).argmin fun j => toLex (distance times host j, j)

structure Found where
  candidates : List Pair
  used : List ℕ

def take (maxDt : ℤ) (found : Found) (i : ℕ) (host : ℤ) : Found :=
  match nearest times host with
  | some j =>
    let delta := distance times host j
    if delta ≤ maxDt ∧ j ∉ found.used then ⟨found.candidates ++ [⟨i, j, delta⟩], j :: found.used⟩ else found
  | none => found

/-- The loop over the left frames, from the `i`th one on. -/
def collect (maxDt : ℤ) : ℕ → List ℤ → Found → Found
  | _, [], found => found
  | i, host :: rest, found => collect maxDt (i + 1) rest (take times maxDt found i host)

end selection

def candidates (left right : List ℤ) (maxDt : ℤ) : List Pair := (collect right maxDt 0 left ⟨[], []⟩).candidates

/-- `k*(len(candidates)-1)/(wanted-1)`, exactly. -/
def spread (found : ℕ) (wanted : ℤ) (k : ℕ) : ℚ := ((k * ((found : ℤ) - 1) : ℤ) : ℚ) / ((wanted - 1 : ℤ) : ℚ)

def positions (found : ℕ) (wanted : ℤ) : List ℕ :=
  if wanted = 1 then [found / 2] else (List.range wanted.toNat).map fun k : ℕ => (roundHalfEven (spread found wanted k)).toNat

def item (list : List Pair) (k : ℕ) : Except String Pair :=
  match list[k]? with
  | some p => .ok p
  | none => .error "list index out of range"

/-- `select_pairs`, of the host times of the frames. -/
def selectPairs (left right : List ℤ) (count maxDt : ℤ) : Except String (List Pair) := do
  require (left ≠ [] ∧ right ≠ []) "双雷达必须各有有效原始帧"
  let found := candidates left right maxDt
  require (found ≠ []) "没有满足主机到达时间差上限的左右帧对"
  let wanted := min count found.length
  (positions found.length wanted).mapM (item found)

/-! ### The nearest frame -/

section nearest
variable {times : List ℤ} {host host' : ℤ} {j j' k : ℕ}

theorem distance_of_getElem? {b : ℤ} (there : times[j]? = some b) : distance times host j = |host - b| := by
  unfold distance
  rw [List.getD_eq_getElem?_getD, there, Option.getD_some]

theorem mem_options : k ∈ options times host ↔ k + 1 = bisectLeft times host ∨ (k = bisectLeft times host ∧ k < times.length) := by
  unfold options
  dsimp only
  split
  · next before =>
    split
    · next inside =>
      rw [List.mem_append, List.mem_singleton, List.mem_singleton]
      omega
    · next past =>
      rw [List.append_nil, List.mem_singleton]
      omega
  · next first =>
    split
    · next inside =>
      rw [List.nil_append, List.mem_singleton]
      omega
    · next past =>
      rw [List.append_nil]
      refine ⟨fun none => absurd none List.not_mem_nil, fun known => ?_⟩
      omega

theorem nearest_spec (h : nearest times host = some j) : j ∈ options times host ∧
    ∀ k ∈ options times host, distance times host j < distance times host k ∨ (distance times host j = distance times host k ∧ j ≤ k) := by
  refine ⟨List.argmin_mem h, fun k inside => ?_⟩
  have least := List.le_of_mem_argmin inside h
  rwa [Prod.Lex.toLex_le_toLex] at least

theorem nearest_isSome (some_ : times ≠ []) : ∃ j, nearest times host = some j := by
  rw [← Option.ne_none_iff_exists']
  intro none
  have empty : options times host = [] := List.argmin_eq_none.mp none
  have positive := List.length_pos_iff.mpr some_
  by_cases before : 0 < bisectLeft times host
  · have inside : bisectLeft times host - 1 ∈ options times host := mem_options.mpr (.inl (by omega))
    rw [empty] at inside
    exact List.not_mem_nil inside
  · have inside : bisectLeft times host ∈ options times host := mem_options.mpr (.inr ⟨rfl, by omega⟩)
    rw [empty] at inside
    exact List.not_mem_nil inside

variable (sorted : times.Pairwise (· ≤ ·))
include sorted

theorem nearest_lt (h : nearest times host = some j) : j < times.length := by
  have inside := (bisectLeft_between sorted host).inside
  rcases mem_options.mp (nearest_spec h).1 with before | ⟨-, there⟩
  · omega
  · exact there

theorem nearest_closest (h : nearest times host = some j) (there : k < times.length) : distance times host j ≤ distance times host k := by
  have known : times[k]? = some times[k] := List.getElem?_eq_getElem there
  obtain ⟨-, least⟩ := nearest_spec h
  have least : ∀ k ∈ options times host, distance times host j ≤ distance times host k :=
    fun k inside => (least k inside).elim le_of_lt fun same => le_of_eq same.1
  by_cases before : k < bisectLeft times host
  · have inside := (bisectLeft_between sorted host).inside
    have there : bisectLeft times host - 1 < times.length := by omega
    have neighbour : times[bisectLeft times host - 1]? = some times[bisectLeft times host - 1] := List.getElem?_eq_getElem there
    have inside : bisectLeft times host - 1 ∈ options times host := mem_options.mpr (.inl (by omega))
    refine le_trans (least _ inside) ?_
    rw [distance_of_getElem? neighbour, distance_of_getElem? known]
    have order := sorted_le sorted known neighbour (by omega)
    have less := (lt_bisectLeft_iff sorted neighbour).mp (by omega : bisectLeft times host - 1 < bisectLeft times host)
    rw [abs_of_nonneg (by omega), abs_of_nonneg (by omega)]
    omega
  · have there : bisectLeft times host < times.length := by omega
    have neighbour : times[bisectLeft times host]? = some times[bisectLeft times host] := List.getElem?_eq_getElem there
    refine le_trans (least _ (mem_options.mpr (.inr ⟨rfl, by omega⟩))) ?_
    rw [distance_of_getElem? neighbour, distance_of_getElem? known]
    have order := sorted_le sorted neighbour known (by omega)
    have more : ¬times[bisectLeft times host] < host :=
      fun less => Nat.lt_irrefl _ ((lt_bisectLeft_iff sorted neighbour).mpr less)
    rw [abs_of_nonpos (by omega), abs_of_nonpos (by omega)]
    omega

theorem nearest_mono (h : nearest times host = some j) (h' : nearest times host' = some j') (order : host ≤ host') : j ≤ j' := by
  have places := bisectLeft_mono sorted order
  obtain ⟨inside, least⟩ := nearest_spec h
  obtain ⟨inside', least'⟩ := nearest_spec h'
  have length := (bisectLeft_between sorted host).inside
  by_contra later
  -- the two have the same neighbours, of which the later one takes the earlier
  have same : bisectLeft times host = bisectLeft times host' ∧ j = bisectLeft times host ∧ j' + 1 = j ∧ j < times.length := by
    rcases mem_options.mp inside with before | ⟨here, there⟩
    · rcases mem_options.mp inside' with before' | ⟨here', there'⟩ <;> omega
    · rcases mem_options.mp inside' with before' | ⟨here', there'⟩ <;> omega
  obtain ⟨same, here, next, there⟩ := same
  have known : times[j]? = some times[j] := List.getElem?_eq_getElem there
  have there' : j' < times.length := by omega
  have known' : times[j']? = some times[j'] := List.getElem?_eq_getElem there'
  have closer := least j' (mem_options.mpr (.inl (by omega)))
  have closer' := least' j (mem_options.mpr (.inr ⟨by omega, there⟩))
  rw [distance_of_getElem? known, distance_of_getElem? known'] at closer closer'
  have below := (lt_bisectLeft_iff (x := host) sorted known').mp (by omega)
  have above : ¬times[j] < host' := fun less => absurd ((lt_bisectLeft_iff sorted known).mpr less) (by omega)
  rw [abs_of_nonpos (by omega : host - times[j] ≤ 0), abs_of_nonneg (by omega : 0 ≤ host - times[j'])] at closer
  rw [abs_of_nonpos (by omega : host' - times[j] ≤ 0), abs_of_nonneg (by omega : 0 ≤ host' - times[j'])] at closer'
  omega

end nearest

/-! ### The candidates -/

section collect
variable {times : List ℤ} {maxDt : ℤ}

/-- What the loop has made of `hosts`. -/
structure Collected (times : List ℤ) (maxDt : ℤ) (hosts : List ℤ) (found : Found) : Prop where
  used : ∀ j, j ∈ found.used ↔ ∃ p ∈ found.candidates, p.right = j
  increasing : found.candidates.Pairwise fun p q => p.left < q.left ∧ p.right < q.right
  near : ∀ p ∈ found.candidates, p.delta ≤ maxDt ∧ ∃ host, hosts[p.left]? = some host ∧
    nearest times host = some p.right ∧ p.delta = distance times host p.right
  taken : ∀ i host j, hosts[i]? = some host → nearest times host = some j → distance times host j ≤ maxDt →
    ∃ p ∈ found.candidates, p.right = j ∧ p.left ≤ i

theorem Collected.grow {hosts : List ℤ} {found : Found} (h : Collected times maxDt hosts found) (host : ℤ)
    (last : ∀ j, nearest times host = some j → distance times host j ≤ maxDt → ∃ p ∈ found.candidates, p.right = j) :
    Collected times maxDt (hosts ++ [host]) found := by
  have inside : ∀ p ∈ found.candidates, p.left < hosts.length := by
    intro p there
    obtain ⟨-, other, here, -⟩ := h.near p there
    exact (List.getElem?_eq_some_iff.mp here).1
  refine ⟨h.used, h.increasing, fun p there => ?_, fun i other j here first close => ?_⟩
  · obtain ⟨close, other, here, rest⟩ := h.near p there
    exact ⟨close, other, by rw [List.getElem?_append_left (inside p there), here], rest⟩
  · by_cases old : i < hosts.length
    · rw [List.getElem?_append_left old] at here
      exact h.taken i other j here first close
    · have new : i = hosts.length := by
        have := (List.getElem?_eq_some_iff.mp here).1
        simp at this
        omega
      subst new
      rw [List.getElem?_concat_length] at here
      cases here
      obtain ⟨p, there, same⟩ := last j first close
      exact ⟨p, there, same, Nat.le_of_lt (inside p there)⟩

theorem Collected.take (sorted : times.Pairwise (· ≤ ·)) {hosts : List ℤ} {found : Found} (h : Collected times maxDt hosts found)
    {host : ℤ} (later : ∀ (i : ℕ) (other : ℤ), hosts[i]? = some other → other ≤ host) :
    Collected times maxDt (hosts ++ [host]) (take times maxDt found hosts.length host) := by
  unfold FramePairs.take
  split
  · next j first =>
    dsimp only
    split
    · next new =>
      have before : ∀ p ∈ found.candidates, p.left < hosts.length ∧ p.right < j := by
        intro p there
        obtain ⟨-, other, here, first', -⟩ := h.near p there
        refine ⟨(List.getElem?_eq_some_iff.mp here).1, ?_⟩
        have order := nearest_mono sorted first' first (later _ _ here)
        have different : p.right ≠ j := fun same => new.2 ((h.used j).mpr ⟨p, there, same⟩)
        omega
      refine ⟨fun k => ?_, ?_, fun p there => ?_, fun i other k here first' close => ?_⟩
      · simp only [List.mem_cons, List.mem_append, List.not_mem_nil, or_false]
        rw [h.used]
        constructor
        · rintro (rfl | ⟨p, there, same⟩)
          · exact ⟨_, .inr rfl, rfl⟩
          · exact ⟨p, .inl there, same⟩
        · rintro ⟨p, there | rfl, same⟩
          · exact .inr ⟨p, there, same⟩
          · exact .inl same.symm
      · refine List.pairwise_append.mpr ⟨h.increasing, List.pairwise_singleton _ _, fun p there q last => ?_⟩
        rw [List.mem_singleton.mp last]
        exact before p there
      · rcases List.mem_append.mp there with there | last
        · obtain ⟨close, other, here, rest⟩ := h.near p there
          exact ⟨close, other, by rw [List.getElem?_append_left (before p there).1, here], rest⟩
        · rw [List.mem_singleton.mp last]
          exact ⟨new.1, host, List.getElem?_concat_length, first, rfl⟩
      · by_cases old : i < hosts.length
        · rw [List.getElem?_append_left old] at here
          obtain ⟨p, there, rest⟩ := h.taken i other k here first' close
          exact ⟨p, List.mem_append_left _ there, rest⟩
        · have last : i = hosts.length := by
            have := (List.getElem?_eq_some_iff.mp here).1
            simp at this
            omega
          subst last
          rw [List.getElem?_concat_length] at here
          cases here
          cases first.symm.trans first'
          exact ⟨_, List.mem_append_right _ (List.mem_singleton_self _), rfl, Nat.le_refl _⟩
    · next known =>
      refine h.grow host fun k first' close => ?_
      cases first.symm.trans first'
      by_contra free
      exact known ⟨close, fun used => free ((h.used j).mp used)⟩
  · next none => exact h.grow host fun j first => absurd (none.symm.trans first) (by simp)

theorem collect_collected (sorted : times.Pairwise (· ≤ ·)) (rest hosts : List ℤ) (found : Found) (h : Collected times maxDt hosts found)
    (order : (hosts ++ rest).Pairwise (· ≤ ·)) :
    Collected times maxDt (hosts ++ rest) (collect times maxDt hosts.length rest found) := by
  induction rest generalizing hosts found with
  | nil => rwa [List.append_nil]
  | cons host rest ih =>
    have whole : hosts ++ host :: rest = (hosts ++ [host]) ++ rest := by simp
    have later : ∀ (i : ℕ) (other : ℤ), hosts[i]? = some other → other ≤ host := by
      intro i other here
      exact (List.pairwise_append.mp order).2.2 other (List.mem_of_getElem? here) host List.mem_cons_self
    rw [whole] at order ⊢
    have := ih _ _ (h.take sorted later) order
    rwa [List.length_append, List.length_singleton] at this

theorem candidates_collected {left right : List ℤ} (sortedLeft : left.Pairwise (· ≤ ·)) (sortedRight : right.Pairwise (· ≤ ·)) :
    Collected right maxDt left (collect right maxDt 0 left ⟨[], []⟩) := by
  have start : Collected right maxDt [] ⟨[], []⟩ := ⟨by simp, List.Pairwise.nil, by simp, by simp⟩
  exact collect_collected sortedRight left [] ⟨[], []⟩ start sortedLeft

end collect

/-! ### The selection -/

section positions
variable {found : ℕ} {wanted : ℤ}

theorem roundHalfEven_intCast (n : ℤ) : roundHalfEven (n : ℚ) = n := by
  unfold roundHalfEven
  simp

theorem spread_bounds (many : 1 < wanted) (positive : 0 < found) {k : ℕ} (inside : k < wanted) :
    0 ≤ spread found wanted k ∧ spread found wanted k ≤ (found : ℤ) - 1 := by
  have base : (0 : ℚ) < (wanted - 1 : ℤ) := by exact_mod_cast (by omega : 0 < wanted - 1)
  have top : (0 : ℤ) ≤ (found : ℤ) - 1 := by omega
  unfold spread
  constructor
  · refine div_nonneg ?_ base.le
    exact_mod_cast mul_nonneg (Int.natCast_nonneg k) top
  · rw [div_le_iff₀ base]
    have : (k : ℤ) * ((found : ℤ) - 1) ≤ ((found : ℤ) - 1) * (wanted - 1) := by nlinarith
    exact_mod_cast this

theorem position_bounds (many : 1 < wanted) (positive : 0 < found) {k : ℕ} (inside : k < wanted) :
    0 ≤ roundHalfEven (spread found wanted k) ∧ roundHalfEven (spread found wanted k) < found := by
  obtain ⟨low, high⟩ := spread_bounds many positive inside
  have near := abs_le.mp (roundHalfEven_near (spread found wanted k))
  constructor
  · have : (-1 : ℚ) < roundHalfEven (spread found wanted k) := by linarith
    have : (-1 : ℤ) < roundHalfEven (spread found wanted k) := by exact_mod_cast this
    omega
  · have : (roundHalfEven (spread found wanted k) : ℚ) < (found : ℤ) := by linarith
    exact_mod_cast this

theorem position_lt (many : 1 < wanted) (enough : wanted ≤ found) {k l : ℕ} (order : k < l) :
    roundHalfEven (spread found wanted k) < roundHalfEven (spread found wanted l) := by
  have base : (0 : ℚ) < (wanted - 1 : ℤ) := by exact_mod_cast (by omega : 0 < wanted - 1)
  rcases eq_or_lt_of_le enough with same | more
  · have exact_ : ∀ k : ℕ, spread found wanted k = (k : ℤ) := by
      intro k
      unfold spread
      rw [← same, div_eq_iff base.ne']
      push_cast
      ring
    rw [exact_, exact_, roundHalfEven_intCast, roundHalfEven_intCast]
    exact_mod_cast order
  · have apart : spread found wanted k + 1 < spread found wanted l := by
      unfold spread
      rw [div_add_one base.ne', div_lt_div_iff_of_pos_right base]
      have : (k : ℤ) * ((found : ℤ) - 1) + (wanted - 1) < l * ((found : ℤ) - 1) := by
        have step : ((k : ℤ) + 1) * ((found : ℤ) - 1) ≤ l * ((found : ℤ) - 1) :=
          mul_le_mul_of_nonneg_right (by omega) (by omega)
        linarith
      exact_mod_cast this
    have near := abs_le.mp (roundHalfEven_near (spread found wanted k))
    have near' := abs_le.mp (roundHalfEven_near (spread found wanted l))
    have : (roundHalfEven (spread found wanted k) : ℚ) < roundHalfEven (spread found wanted l) := by linarith
    exact_mod_cast this

theorem positions_many (many : 1 < wanted) :
    positions found wanted = (List.range wanted.toNat).map fun k => (roundHalfEven (spread found wanted k)).toNat :=
  if_neg (by omega)

theorem positions_length (some_ : 1 ≤ wanted) : ((positions found wanted).length : ℤ) = wanted := by
  unfold positions
  split
  · next one => simp [one]
  · next many =>
    rw [List.length_map, List.length_range]
    omega

theorem positions_increasing (some_ : 1 ≤ wanted) (enough : wanted ≤ found) : (positions found wanted).Pairwise (· < ·) := by
  by_cases one : wanted = 1
  · rw [positions, if_pos one]
    exact List.pairwise_singleton _ _
  · have many : 1 < wanted := by omega
    rw [positions_many many, List.pairwise_map]
    refine List.pairwise_lt_range.imp_of_mem fun {k l} _ inside order => ?_
    have less := position_lt many enough order
    have inside := List.mem_range.mp inside
    have low := (position_bounds (k := k) many (by omega : 0 < found) (by omega)).1
    omega

theorem positions_ends (many : 1 < wanted) (enough : wanted ≤ found) :
    (positions found wanted).head? = some 0 ∧ (positions found wanted).getLast? = some (found - 1) := by
  have base : ((wanted - 1 : ℤ) : ℚ) ≠ 0 := by exact_mod_cast (by omega : wanted - 1 ≠ 0)
  obtain ⟨n, rfl⟩ : ∃ n : ℕ, wanted = (n + 1 : ℕ) := ⟨(wanted - 1).toNat, by omega⟩
  rw [positions_many many, Int.toNat_natCast]
  constructor
  · have first : spread found (n + 1 : ℕ) 0 = ((0 : ℤ) : ℚ) := by simp [spread]
    rw [List.range_succ_eq_map, List.map_cons, List.head?_cons, first, roundHalfEven_intCast]
    rfl
  · have last : spread found (n + 1 : ℕ) n = (((found : ℤ) - 1 : ℤ) : ℚ) := by
      unfold spread
      rw [div_eq_iff base]
      push_cast
      ring
    rw [List.range_succ, List.map_append, List.getLast?_append]
    simp only [List.map_cons, List.map_nil, List.getLast?_singleton, Option.some_or, last, roundHalfEven_intCast]
    congr 1
    omega

end positions

variable {list picked : List Pair}

theorem items_of_ok {ks : List ℕ} (h : ks.mapM (item list) = .ok picked) : picked.map some = ks.map (list[·]?) := by
  induction ks generalizing picked with
  | nil =>
    cases h
    rfl
  | cons k ks ih =>
    rw [List.mapM_cons] at h
    obtain ⟨p, first, h⟩ := bind_eq_ok h
    obtain ⟨rest, others, h⟩ := bind_eq_ok h
    cases h
    have known : list[k]? = some p := by
      unfold item at first
      split at first
      · next found => rw [found, Except.ok.inj first]
      · cases first
    rw [List.map_cons, List.map_cons, ih others, known]

theorem mem_of_items {ks : List ℕ} (h : picked.map some = ks.map (list[·]?)) {p : Pair} (there : p ∈ picked) :
    p ∈ list := by
  have : some p ∈ ks.map (list[·]?) := h ▸ List.mem_map_of_mem there
  obtain ⟨k, -, found⟩ := List.mem_map.mp this
  exact List.mem_of_getElem? found

theorem items_pairwise {R : Pair → Pair → Prop} {ks : List ℕ} (h : picked.map some = ks.map (list[·]?))
    (order : list.Pairwise R) (increasing : ks.Pairwise (· < ·)) : picked.Pairwise R := by
  have lifted : (picked.map some).Pairwise fun a b => ∀ p q, a = some p → b = some q → R p q := by
    rw [h, List.pairwise_map]
    refine increasing.imp fun {k l} less p q first second => ?_
    obtain ⟨hk, rfl⟩ := List.getElem?_eq_some_iff.mp first
    obtain ⟨hl, rfl⟩ := List.getElem?_eq_some_iff.mp second
    exact List.pairwise_iff_getElem.mp order k l hk hl less
  rw [List.pairwise_map] at lifted
  exact lifted.imp fun related => related _ _ rfl rfl

theorem items_ends {wanted : ℤ} (h : picked.map some = (positions list.length wanted).map (list[·]?))
    (many : 1 < wanted ∨ list.length = 1) (some_ : 1 ≤ wanted) (enough : wanted ≤ list.length) :
    picked.head? = list.head? ∧ picked.getLast? = list.getLast? := by
  have ends : (positions list.length wanted).head? = some 0 ∧ (positions list.length wanted).getLast? = some (list.length - 1) := by
    by_cases one : wanted = 1
    · have single : list.length = 1 := many.resolve_left (by omega)
      rw [positions, if_pos one, single]
      exact ⟨rfl, rfl⟩
    · exact positions_ends (by omega) enough
  have head := congrArg List.head? h
  have last := congrArg List.getLast? h
  rw [List.head?_map, List.head?_map, ends.1] at head
  rw [List.getLast?_map, List.getLast?_map, ends.2] at last
  have inside : 0 < list.length := by omega
  have inside' : list.length - 1 < list.length := by omega
  have first : list[0]? = some list[0] := List.getElem?_eq_getElem inside
  have final : list[list.length - 1]? = some list[list.length - 1] := List.getElem?_eq_getElem inside'
  rw [List.head?_eq_getElem? (l := list), List.getLast?_eq_getElem? (l := list)]
  rw [Option.map_some, first, Option.map_eq_some_iff] at head
  rw [Option.map_some, final, Option.map_eq_some_iff] at last
  obtain ⟨a, here, same⟩ := head
  obtain ⟨b, here', same'⟩ := last
  exact ⟨by rw [here, same, first], by rw [here', same', final]⟩

theorem selectPairs_spec {left right : List ℤ} {count maxDt : ℤ} {pairs : List Pair} (sortedLeft : left.Pairwise (· ≤ ·))
    (sortedRight : right.Pairwise (· ≤ ·)) (positive : 1 ≤ count) (h : selectPairs left right count maxDt = .ok pairs) :
    pairs.Pairwise (fun p q => p.left < q.left ∧ p.right < q.right) ∧
      (∀ p ∈ pairs, ∃ host, left[p.left]? = some host ∧ p.right < right.length ∧ p.delta = distance right host p.right ∧
        p.delta ≤ maxDt ∧ ∀ k < right.length, p.delta ≤ distance right host k) ∧
      (pairs.length : ℤ) = min count (candidates left right maxDt).length ∧
      (1 < count → pairs.head? = (candidates left right maxDt).head? ∧ pairs.getLast? = (candidates left right maxDt).getLast?) ∧
      ∀ i host, left[i]? = some host → (∀ p ∈ candidates left right maxDt, p.left ≠ i) →
        (∀ k < right.length, maxDt < distance right host k) ∨
          ∃ p ∈ candidates left right maxDt, p.left < i ∧ ∀ k < right.length, distance right host p.right ≤ distance right host k := by
  unfold selectPairs at h
  obtain ⟨_, there, h⟩ := bind_eq_ok h
  dsimp only at h
  obtain ⟨_, some_, h⟩ := bind_eq_ok h
  have there := require_ok there
  have some_ := require_ok some_
  have collected : Collected right maxDt left (collect right maxDt 0 left ⟨[], []⟩) := candidates_collected sortedLeft sortedRight
  have nonempty : 0 < (candidates left right maxDt).length := List.length_pos_iff.mpr some_
  have items := items_of_ok h
  have length : (pairs.length : ℤ) = min count (candidates left right maxDt).length := by
    have same := congrArg List.length items
    rw [List.length_map, List.length_map] at same
    rw [same]
    exact positions_length (by omega)
  refine ⟨items_pairwise items collected.increasing (positions_increasing (by omega) (by omega)), fun p inside => ?_, length, fun many => ?_,
    fun i host here free => ?_⟩
  · obtain ⟨close, host, here, first, delta⟩ := collected.near p (mem_of_items items inside)
    refine ⟨host, here, nearest_lt sortedRight first, delta, close, fun k there => ?_⟩
    rw [delta]
    exact nearest_closest sortedRight first there
  · exact items_ends items (by omega) (by omega) (by omega)
  · obtain ⟨j, first⟩ : ∃ j, nearest right host = some j := nearest_isSome there.2
    by_cases close : distance right host j ≤ maxDt
    · obtain ⟨p, inside, same, before⟩ := collected.taken i host j here first close
      refine .inr ⟨p, inside, lt_of_le_of_ne before (free p inside), fun k there => ?_⟩
      rw [same]
      exact nearest_closest sortedRight first there
    · exact .inl fun k there => lt_of_lt_of_le (not_le.mp close) (nearest_closest sortedRight first there)

theorem selectPairs_spaced : ∃ pairs, selectPairs [0, 10, 20, 30] [1, 9, 22, 29] 3 5 = .ok pairs ∧
    pairs.Pairwise (fun p q => p.left < q.left ∧ p.right < q.right) := by
  have run : selectPairs [0, 10, 20, 30] [1, 9, 22, 29] 3 5 = .ok [⟨0, 0, 1⟩, ⟨2, 2, 2⟩, ⟨3, 3, 1⟩] := by decide +kernel
  exact ⟨_, run, (selectPairs_spec (by decide) (by decide) (by decide) run).1⟩

/-- The first left frame has the right frame, though the second one arrived nearer to it. -/
theorem first_come : ¬∀ (left right : List ℤ) (count maxDt : ℤ) (pairs : List Pair), left.Pairwise (· ≤ ·) → right.Pairwise (· ≤ ·) →
    1 ≤ count → selectPairs left right count maxDt = .ok pairs → ∀ p ∈ candidates left right maxDt, ∀ i host, left[i]? = some host →
      (∀ q ∈ candidates left right maxDt, q.left ≠ i) → ¬distance right host p.right < p.delta := by
  intro nearer
  refine nearer [0, 9] [10] 3 100 [⟨0, 0, 10⟩] (by decide) (by decide) (by decide) (by decide +kernel) ⟨0, 0, 10⟩ ?_ 1 9 rfl ?_ ?_
  · decide +kernel
  · decide +kernel
  · decide +kernel

end Smartwheel.FramePairs
