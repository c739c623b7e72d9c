import Mathlib.Data.Int.ModEq
import Mathlib.Tactic.Ring
import Mathlib.Tactic.Positivity
import Mathlib.Tactic.Linarith
import Smartwheel.Motion.Odometry

/-! Runs of `WheelOdometry`: the counts of an accepted sample are unwrapped to the true travel of the wheels, and a
rejected sample changes nothing but the block. -/
namespace Smartwheel.Motion
open Effect

inductive Operation where
  | update (o : WheelObservation) (truth : Wheels ℤ)
  | reset

structure Accepted where
  now : Valid
  truth : Wheels ℤ
  pose : Pose

structure World where
  odometry : WheelOdometry
  accepted : List Accepted

def World.initial : World := ⟨.initial, []⟩

section runs
variable (t : Trig) (g : Geometry)

def World.operate (w : World) : Operation → World
  | .update o truth =>
    match w.odometry.update t g o with
    | (.ok _, s) => ⟨s, (s.previous.map fun now => ⟨now, truth, s.pose⟩).toList ++ w.accepted⟩
    | (.error _, s) => ⟨s, w.accepted⟩
  | .reset => .initial

def World.run (ops : List Operation) : World := ops.foldl (World.operate t g) .initial

structure Counted (o : WheelObservation) (truth : Wheels ℤ) : Prop where
  left : ∀ bits ∈ o.counterBits, ∀ l, o.leftPositionCounts = .value l → l ≡ truth.left [ZMOD 2 ^ bits]
  right : ∀ bits ∈ o.counterBits, ∀ r, o.rightPositionCounts = .value r → r ≡ truth.right [ZMOD 2 ^ bits]

def Limited : Operation → Operation → Prop
  | .update o truth, .update o' truth' =>
    o.streamEpoch = o'.streamEpoch → ∀ counts ∈ g.countsPerMotorTurn, ∀ stamp ∈ o.stampNs, ∀ stamp' ∈ o'.stampNs,
      |(truth'.left - truth.left : ℤ)| * (resolutions t g counts).left ≤
          g.maxWheelSpeedMS * (|stamp' - stamp| * (1 / 10 ^ 9)) ∧
        |(truth'.right - truth.right : ℤ)| * (resolutions t g counts).right ≤
          g.maxWheelSpeedMS * (|stamp' - stamp| * (1 / 10 ^ 9))
  | _, _ => True

def Exact (newer older : Accepted) : Prop :=
  ∀ q ∈ newer.now.position, ∃ q' ∈ older.now.position, ∃ bits ∈ newer.now.counterBits, ∃ counts ∈ g.countsPerMotorTurn,
    wrappedDelta q.left q'.left bits = .ok (newer.truth.left - older.truth.left) ∧
    wrappedDelta q.right q'.right bits = .ok (newer.truth.right - older.truth.right) ∧
    newer.pose = older.pose.integrate t
      ⟨(newer.truth.left - older.truth.left : ℤ) * (resolutions t g counts).left * g.leftSign,
        (newer.truth.right - older.truth.right : ℤ) * (resolutions t g counts).right * g.rightSign⟩ g.trackWidthM

end runs

def used (newer older : Accepted) : Option (Wheels ℤ) := do
  let here ← newer.now.position
  let there ← older.now.position
  let bits ← newer.now.counterBits
  let left ← (wrappedDelta here.left there.left bits).toOption
  let right ← (wrappedDelta here.right there.right bits).toOption
  return ⟨left, right⟩

def total : List Accepted → Wheels ℤ
  | newer :: older :: rest =>
    let step := (used newer older).getD ⟨0, 0⟩
    let before := total (older :: rest)
    ⟨step.left + before.left, step.right + before.right⟩
  | _ => ⟨0, 0⟩

def WheelOdometry.Open (s : WheelOdometry) : Prop := s.blocked.filter (· ≠ "") = none

section texts
variable {t : Trig} {g : Geometry} {s : WheelOdometry}

theorem append_ne_empty {a b : String} (h : b ≠ "") : a ++ b ≠ "" := fun empty => h (String.append_eq_empty_iff.mp empty).2

theorem integer_fails (value : Option ℤ) (name : String) (lower : ℤ) (upper : Option ℤ) :
    Fails (· ≠ "") (integer value name lower upper) := by
  cases value with
  | none => exact .error (append_ne_empty (b := "]") (by decide))
  | some v => exact Fails.bind (.refuse (append_ne_empty (b := "]") (by decide))) fun _ => .ok v

theorem epochOf_fails (epoch : Option String) : Fails (· ≠ "") (epochOf epoch) := by
  cases epoch with
  | none => exact .error (by decide)
  | some e => exact Fails.bind (.refuse (by decide)) fun _ => .ok e

theorem velocities_fails (left right : Given ℚ) : Fails (· ≠ "") (velocities left right) := by
  unfold velocities
  split
  · exact .ok none
  · exact .ok _
  · exact .error (by decide)

theorem positions_fails (left right : Given ℤ) (bits : Option ℕ) : Fails (· ≠ "") (positions left right bits) := by
  unfold positions
  split
  · exact .ok none
  · refine Fails.bind (.refuse (by decide)) fun _ => ?_
    exact Fails.bind (integer_fails _ _ _ _) fun _ => Fails.bind (integer_fails _ _ _ _) fun _ => .ok _

theorem validate_fails (o : WheelObservation) : Fails (· ≠ "") o.validate := by
  unfold WheelObservation.validate
  refine Fails.bind (integer_fails _ _ _ _) fun _ => Fails.bind (integer_fails _ _ _ _) fun _ => ?_
  refine Fails.bind (.refuse (by decide)) fun _ => Fails.bind (integer_fails _ _ _ _) fun _ => ?_
  refine Fails.bind (epochOf_fails _) fun _ => Fails.bind (.refuse (by decide)) fun _ => ?_
  refine Fails.bind (.refuse (by decide)) fun _ => Fails.bind (.refuse (by decide)) fun _ => ?_
  exact Fails.bind (velocities_fails _ _) fun _ => Fails.bind (positions_fails _ _ _) fun _ => .ok _

theorem rpmSpeeds_fails (o : Valid) : Fails (· ≠ "") (rpmSpeeds t g o) := by
  unfold rpmSpeeds
  split
  · exact .ok none
  · exact Fails.bind (.refuse (by decide)) fun _ => .ok _

theorem wrappedDelta_fails (now previous : ℤ) (bits : ℕ) : Fails (· ≠ "") (wrappedDelta now previous bits) :=
  Fails.bind (.refuse (by decide)) fun _ => .ok _

theorem countTravel_fails (counts : ℤ) (bits : ℕ) (dt : ℚ) (now previous : Wheels ℤ) :
    Fails (· ≠ "") (countTravel t g counts bits dt now previous) := by
  refine Fails.bind (.refuse (by decide)) fun _ => Fails.bind (wrappedDelta_fails _ _ _) fun _ => ?_
  exact Fails.bind (wrappedDelta_fails _ _ _) fun _ => Fails.bind (.refuse (by decide)) fun _ => .ok _

theorem speedTravel_fails (dt : ℚ) (before speeds : Option (Wheels ℚ)) :
    Fails (· ≠ "") (speedTravel dt before speeds) := by
  unfold speedTravel
  split
  · exact .ok _
  · exact .error (by decide)

theorem continues_fails (now previous : Valid) : Fails (· ≠ "") (continues g now previous) :=
  Fails.bind (.refuse (by decide)) fun _ => Fails.bind (.refuse (by decide)) fun _ => .refuse (by decide)

theorem travelled_fails (now previous : Valid) (speeds : Option (Wheels ℚ)) :
    Fails (· ≠ "") (travelled t g now previous speeds) := by
  refine Fails.bind (continues_fails _ _) fun _ => ?_
  dsimp only
  split
  · exact Fails.bind (countTravel_fails _ _ _ _ _) fun _ => .ok _
  · exact Fails.bind (rpmSpeeds_fails _) fun _ => Fails.bind (speedTravel_fails _ _ _) fun _ => .ok _

theorem accept_fails (s : WheelOdometry) (o : WheelObservation) : Fails (· ≠ "") (s.accept t g o) := by
  refine Fails.bind (validate_fails o) fun now => Fails.bind (rpmSpeeds_fails now) fun speeds => ?_
  refine Fails.bind (.refuse (by decide)) fun _ => Fails.bind ?_ fun _ => .ok _
  unfold advanced
  split
  · exact .ok _
  · exact Fails.bind (travelled_fails _ _ _) fun _ => .ok _

end texts

section steps
variable {t : Trig} {g : Geometry} {s s' : WheelOdometry} {o o' : WheelObservation} {now previous : Valid}

theorem wrappedDelta_exact {a b a' b' : ℤ} {bits : ℕ} (some_bits : 1 ≤ bits) (ha : a ≡ a' [ZMOD 2 ^ bits])
    (hb : b ≡ b' [ZMOD 2 ^ bits]) (near : |a' - b'| < 2 ^ (bits - 1)) : wrappedDelta a b bits = .ok (a' - b') := by
  have double : (2 : ℤ) ^ bits = 2 * 2 ^ (bits - 1) := by
    rw [← pow_succ', Nat.sub_add_cancel some_bits]
  generalize (2 : ℤ) ^ (bits - 1) = m at double near
  obtain ⟨k, turns⟩ := (ha.sub hb).symm.dvd
  rw [abs_lt] at near
  have half : (2 * m) / 2 = m := by omega
  have read : (a - b + m) % (2 * m) = a' - b' + m := by
    have split : a - b + m = a' - b' + m + 2 * m * k := by
      rw [double] at turns
      linarith
    rw [split, Int.add_mul_emod_self_left]
    exact Int.emod_eq_of_lt (by omega) (by omega)
  have inside : ¬|a' - b'| = m := by
    rw [abs_eq (by omega)]
    omega
  unfold wrappedDelta
  simp only [double, half, read, add_sub_cancel_right]
  rw [refuse_of_not inside]
  rfl

theorem resolutions_pos {counts : ℤ} (some_counts : counts ∈ g.countsPerMotorTurn) :
    0 < (resolutions t g counts).left ∧ 0 < (resolutions t g counts).right := by
  have pi := t.pi_pos
  have radii := g.radii_pos
  have turns := g.turns_pos
  have whole : (0 : ℚ) < counts := by exact_mod_cast g.counts_pos counts some_counts
  constructor
  · exact div_pos (div_pos (mul_pos (mul_pos two_pos pi) radii.1) turns.1) whole
  · exact div_pos (div_pos (mul_pos (mul_pos two_pos pi) radii.2) turns.2) whole

theorem near_of_limited {d : ℤ} {r bound : ℚ} {bits : ℕ} (positive : 0 < r) (limited : ((|d| : ℤ) : ℚ) * r ≤ bound)
    (checked : ¬2 ^ (bits - 1) ≤ bound / r) : |d| < 2 ^ (bits - 1) := by
  have within : ((|d| : ℤ) : ℚ) ≤ bound / r := (le_div_iff₀ positive).mpr limited
  have below : ((|d| : ℤ) : ℚ) < 2 ^ (bits - 1) := lt_of_le_of_lt within (not_le.mp checked)
  exact_mod_cast below

theorem integer_ok {value : Option ℤ} {name : String} {lower v : ℤ} {upper : Option ℤ}
    (h : integer value name lower upper = .ok v) : value = some v ∧ lower ≤ v := by
  cases value with
  | none => cases h
  | some w =>
    obtain ⟨_, inside, same⟩ := bind_eq_ok h
    cases same
    exact ⟨rfl, not_lt.mp fun below => refuse_ok inside (.inl below)⟩

theorem count_ok {value : Given ℤ} {bits : ℕ} {v : ℤ} (h : count value bits = .ok v) : value = .value v := by
  have read := (integer_ok h).1
  cases value <;> simp_all

theorem positions_ok {left right : Given ℤ} {bits : Option ℕ} {q : Wheels ℤ} (h : positions left right bits = .ok (some q)) :
    left = .value q.left ∧ right = .value q.right ∧ ∃ n ∈ bits, 1 ≤ n := by
  unfold positions at h
  split at h
  · cases h
  · simp only [bind_eq_ok_iff] at h
    obtain ⟨_, width, l, first, r, second, same⟩ := h
    cases same
    refine ⟨count_ok first, count_ok second, ?_⟩
    have known := refuse_ok width
    rw [not_and_or, not_not, not_not] at known
    rcases known with rfl | rfl
    · exact ⟨16, rfl, by decide⟩
    · exact ⟨32, rfl, by decide⟩

structure Passed (o : WheelObservation) (now : Valid) : Prop where
  stamp : o.stampNs = some now.stampNs
  epoch : o.streamEpoch = some now.streamEpoch
  bits : o.counterBits = now.counterBits
  counts : ∀ q ∈ now.position,
    o.leftPositionCounts = .value q.left ∧ o.rightPositionCounts = .value q.right ∧ ∃ n ∈ now.counterBits, 1 ≤ n

theorem epochOf_ok {epoch : Option String} {e : String} (h : epochOf epoch = .ok e) : epoch = some e := by
  cases epoch with
  | none => cases h
  | some e' =>
    obtain ⟨_, _, same⟩ := bind_eq_ok h
    cases same
    rfl

theorem validate_ok (h : o.validate = .ok now) : Passed o now := by
  unfold WheelObservation.validate at h
  simp only [bind_eq_ok_iff] at h
  obtain ⟨stamp, stamped, sequence, -, _, -, uncertainty, -, epoch, named, _, -, _, -, _, -, velocity, -,
    position, counted, same⟩ := h
  cases same
  exact {
    stamp := (integer_ok stamped).1
    epoch := epochOf_ok named
    bits := rfl
    counts := fun q here => positions_ok (counted.trans (congrArg _ here)) }

structure Accepting (t : Trig) (g : Geometry) (s : WheelOdometry) (o : WheelObservation) (s' : WheelOdometry) (now : Valid) :
    Prop where
  valid : o.validate = .ok now
  previous : s'.previous = some now
  blocked : s'.blocked = s.blocked
  first : s.previous = none → s'.pose = s.pose
  next : ∀ p ∈ s.previous, continues g now p = .ok () ∧ ∀ q ∈ now.position, ∃ q' ∈ p.position,
    ∃ counts ∈ g.countsPerMotorTurn, ∃ travel,
      countTravel t g counts (now.counterBits.getD 0) (interval now p) q q' = .ok travel ∧
        s'.pose = s.pose.integrate t travel g.trackWidthM

theorem travelled_ok {speeds : Option (Wheels ℚ)} {result : Wheels ℚ × Option (Wheels ℚ)} {q : Wheels ℤ}
    (h : travelled t g now previous speeds = .ok result) (positioned : now.position = some q)
    (given : g.countsPerMotorTurn ≠ none) :
    ∃ q' ∈ previous.position, ∃ counts ∈ g.countsPerMotorTurn,
      countTravel t g counts (now.counterBits.getD 0) (interval now previous) q q' = .ok result.1 := by
  obtain ⟨_, continued, h⟩ := bind_eq_ok h
  obtain ⟨_, _, rest⟩ := bind_eq_ok continued
  obtain ⟨_, mode, _⟩ := bind_eq_ok rest
  have alike := refuse_ok mode
  rw [positioned, not_or, not_not] at alike
  obtain ⟨q', there⟩ := Option.isSome_iff_exists.mp alike.1.symm
  obtain ⟨counts, known⟩ := Option.ne_none_iff_exists'.mp given
  simp only [positioned, there, known] at h
  obtain ⟨travel, counted, same⟩ := bind_eq_ok h
  cases same
  exact ⟨q', there, counts, known, counted⟩

theorem accept_ok {result : Option MotionEstimate} (h : s.accept t g o = .ok (result, s')) :
    ∃ now, Accepting t g s o s' now := by
  obtain ⟨now, valid, h⟩ := bind_eq_ok h
  obtain ⟨speeds, _, h⟩ := bind_eq_ok h
  obtain ⟨_, countable, h⟩ := bind_eq_ok h
  obtain ⟨⟨pose, told⟩, moved, same⟩ := bind_eq_ok h
  cases same
  unfold advanced at moved
  refine ⟨now, valid, rfl, rfl, fun none_ => ?_, fun p here => ?_⟩
  · simp only [none_] at moved
    cases moved
    rfl
  · simp only [Option.mem_def.mp here] at moved
    obtain ⟨⟨travel, told'⟩, went, same⟩ := bind_eq_ok moved
    cases same
    refine ⟨(bind_eq_ok went).elim fun _ both => both.1, fun q positioned => ?_⟩
    have given : g.countsPerMotorTurn ≠ none := fun missing =>
      refuse_ok countable ⟨by rw [Option.mem_def.mp positioned]; rfl, missing⟩
    obtain ⟨q', there, counts, known, counted⟩ := travelled_ok went positioned given
    exact ⟨q', there, counts, known, travel, counted, rfl⟩

theorem countTravel_ok {counts : ℤ} {bits : ℕ} {dt : ℚ} {q q' : Wheels ℤ} {travel : Wheels ℚ}
    (h : countTravel t g counts bits dt q q' = .ok travel) :
    ¬2 ^ (bits - 1) ≤ g.maxWheelSpeedMS * dt / (resolutions t g counts).left ∧
      ¬2 ^ (bits - 1) ≤ g.maxWheelSpeedMS * dt / (resolutions t g counts).right ∧
      ∃ l r, wrappedDelta q.left q'.left bits = .ok l ∧ wrappedDelta q.right q'.right bits = .ok r ∧
        travel = ⟨l * (resolutions t g counts).left * g.leftSign, r * (resolutions t g counts).right * g.rightSign⟩ := by
  unfold countTravel at h
  simp only [bind_eq_ok_iff] at h
  obtain ⟨_, unambiguous, l, left, r, right, _, -, same⟩ := h
  cases same
  have bounds := refuse_ok unambiguous
  rw [not_or] at bounds
  exact ⟨bounds.1, bounds.2, l, r, left, right, rfl⟩

theorem exact_step {truth truth' : Wheels ℤ} {p : Valid} (accepting : Accepting t g s o' s' now) (earlier : s.previous = some p)
    (passed : Passed o p) (counted : Counted o truth) (counted' : Counted o' truth')
    (limited : Limited t g (.update o truth) (.update o' truth')) :
    Exact t g ⟨now, truth', s'.pose⟩ ⟨p, truth, s.pose⟩ := by
  intro q positioned
  have passed' := validate_ok accepting.valid
  obtain ⟨continued, step⟩ := accepting.next p earlier
  obtain ⟨q', there, counts, known, travel, travels, moved⟩ := step q positioned
  obtain ⟨left, right, n, bits, some_bits⟩ := passed'.counts q positioned
  obtain ⟨left', right', -⟩ := passed.counts q' there
  obtain ⟨_, forward, rest⟩ := bind_eq_ok continued
  obtain ⟨_, mode, _⟩ := bind_eq_ok rest
  have order := refuse_ok forward
  have alike := refuse_ok mode
  push Not at order alike
  have width : p.counterBits = some n := alike.2.symm.trans bits
  have same_epoch : o.streamEpoch = o'.streamEpoch := by rw [passed.epoch, passed'.epoch, order.1]
  obtain ⟨slowLeft, slowRight⟩ := limited same_epoch counts known _ passed.stamp _ passed'.stamp
  have duration : ((|now.stampNs - p.stampNs| : ℤ) : ℚ) * (1 / 10 ^ 9) = interval now p := by
    rw [interval, abs_of_pos (sub_pos.mpr order.2.2)]
  rw [duration] at slowLeft slowRight
  obtain ⟨clearLeft, clearRight, l, r, deltaLeft, deltaRight, travel_eq⟩ := countTravel_ok travels
  have positive := resolutions_pos (t := t) known
  rw [Option.mem_def.mp bits, Option.getD_some] at clearLeft clearRight deltaLeft deltaRight
  have nearLeft : |truth'.left - truth.left| < 2 ^ (n - 1) :=
    near_of_limited positive.1 slowLeft clearLeft
  have nearRight : |truth'.right - truth.right| < 2 ^ (n - 1) :=
    near_of_limited positive.2 slowRight clearRight
  have exactLeft := wrappedDelta_exact some_bits (counted'.left n (passed'.bits.trans bits) _ left)
    (counted.left n (passed.bits.trans width) _ left') nearLeft
  have exactRight := wrappedDelta_exact some_bits (counted'.right n (passed'.bits.trans bits) _ right)
    (counted.right n (passed.bits.trans width) _ right') nearRight
  cases deltaLeft.symm.trans exactLeft
  cases deltaRight.symm.trans exactRight
  exact ⟨q', there, n, bits, counts, known, exactLeft, exactRight, moved.trans (by rw [travel_eq])⟩

theorem update_ok {result : Option MotionEstimate} (h : s.update t g o = (.ok result, s')) :
    s.Open ∧ s.accept t g o = .ok (result, s') := by
  unfold WheelOdometry.update at h
  unfold WheelOdometry.Open
  split at h
  · cases h
  · rename_i here
    refine ⟨here, ?_⟩
    split at h <;> cases h
    assumption

theorem update_error {reason : String} (h : s.update t g o = (.error reason, s')) :
    s'.pose = s.pose ∧ s'.previous = s.previous ∧ ¬s'.Open := by
  unfold WheelOdometry.update at h
  split at h
  · rename_i told here
    cases h
    exact ⟨rfl, rfl, fun open_ => by cases here.symm.trans open_⟩
  · split at h <;> cases h
    rename_i rejected
    have spoken := accept_fails s o _ rejected
    exact ⟨rfl, rfl, fun open_ => by simp [WheelOdometry.Open, spoken] at open_⟩

theorem update_of_blocked (shut : ¬s.Open) (o : WheelObservation) : ∃ reason, s.update t g o = (.error reason, s) := by
  obtain ⟨reason, here⟩ := Option.ne_none_iff_exists'.mp shut
  exact ⟨"motion model blocked: " ++ reason, by simp only [WheelOdometry.update, here]⟩

structure Tracks (t : Trig) (g : Geometry) (w : World) (last : Option Operation) : Prop where
  previous : w.odometry.previous = w.accepted.head?.map (·.now)
  pose : ∀ a ∈ w.accepted.head?, a.pose = w.odometry.pose
  recent : w.odometry.Open → ∀ a ∈ w.accepted.head?, ∃ o, last = some (.update o a.truth) ∧ Passed o a.now
  moved : w.accepted.IsChain (Exact t g)

theorem tracks_initial (last : Option Operation) : Tracks t g .initial last where
  previous := rfl
  pose := by simp [World.initial]
  recent := by simp [World.initial]
  moved := .nil

theorem Tracks.operate {w : World} {last : Option Operation} {op : Operation} (h : Tracks t g w last)
    (counted : ∀ o truth, some (.update o truth) = last ∨ .update o truth = op → Counted o truth)
    (limited : ∀ op' ∈ last, Limited t g op' op) : Tracks t g (w.operate t g op) (some op) := by
  cases op with
  | reset => exact tracks_initial _
  | update o truth =>
    unfold World.operate
    dsimp only
    split
    · rename_i result s' updated
      obtain ⟨open_, accepted⟩ := update_ok updated
      obtain ⟨now, accepting⟩ := accept_ok accepted
      rw [accepting.previous]
      refine ⟨by rw [accepting.previous]; rfl, ?_, ?_, ?_⟩
      · intro a newest
        obtain rfl := Option.some.inj newest
        rfl
      · intro _ a newest
        obtain rfl := Option.some.inj newest
        exact ⟨o, rfl, validate_ok accepting.valid⟩
      · show List.IsChain _ (_ :: w.accepted)
        have recent := h.recent open_
        have earlier := h.previous
        have pose := h.pose
        have moved := h.moved
        cases old : w.accepted with
        | nil => exact .singleton _
        | cons a rest =>
          rw [old] at recent earlier pose moved
          obtain ⟨o', rfl, passed⟩ := recent a rfl
          have exact_ := exact_step accepting earlier passed (counted o' a.truth (.inl rfl)) (counted o truth (.inr rfl))
            (limited _ rfl)
          rw [← pose a rfl] at exact_
          exact moved.cons_cons exact_
    · rename_i reason s' rejected
      obtain ⟨pose, previous, shut⟩ := update_error rejected
      exact ⟨previous.trans h.previous, fun a here => (h.pose a here).trans pose.symm, fun open_ => absurd open_ shut, h.moved⟩

theorem Tracks.run (ops : List Operation) {w : World} {last : Option Operation} (h : Tracks t g w last)
    (counted : ∀ o truth, .update o truth ∈ last.toList ++ ops → Counted o truth)
    (limited : (last.toList ++ ops).IsChain (Limited t g)) :
    ∃ last', Tracks t g (ops.foldl (World.operate t g) w) last' := by
  induction ops generalizing w last with
  | nil => exact ⟨last, h⟩
  | cons op rest ih =>
    have step : Tracks t g (w.operate t g op) (some op) := by
      refine h.operate (fun o truth here => counted o truth ?_) fun op' there => ?_
      · rcases here with here | rfl
        · simp [← here]
        · simp
      · obtain rfl := Option.mem_def.mp there
        exact limited.rel
    refine ih step (fun o truth here => counted o truth (List.mem_append_right _ here)) ?_
    exact limited.right_of_append

theorem total_eq {accepted : List Accepted} (moved : accepted.IsChain (Exact t g)) :
    ∀ newest ∈ accepted.head?, newest.now.position.isSome → ∀ oldest ∈ accepted.getLast?,
      total accepted = ⟨newest.truth.left - oldest.truth.left, newest.truth.right - oldest.truth.right⟩ := by
  induction accepted with
  | nil => simp
  | cons a rest ih =>
    intro newest here positioned oldest there
    obtain rfl := Option.some.inj here
    cases rest with
    | nil =>
      obtain rfl := Option.some.inj there
      simp [total]
    | cons b rest =>
      obtain ⟨exact_, later⟩ := List.isChain_cons_cons.mp moved
      obtain ⟨q, known⟩ := Option.isSome_iff_exists.mp positioned
      obtain ⟨q', known', bits, width, counts, _, left, right, _⟩ := exact_ q known
      have before := ih later b rfl (by rw [Option.mem_def.mp known']; rfl) oldest (by simpa using there)
      have step : used a b = some ⟨a.truth.left - b.truth.left, a.truth.right - b.truth.right⟩ := by
        simp [used, known, Option.mem_def.mp known', Option.mem_def.mp width, left, right, Except.toOption]
      simp [total, step, before]

end steps

/-- Accepted counts are unwrapped to the true differences, which telescope over any number of rollovers; a rejected
sample leaves the pose and the previous sample, and blocks every later one. -/
theorem wheel_unwraps (t : Trig) (g : Geometry) (ops : List Operation)
    (counted : ∀ o truth, .update o truth ∈ ops → Counted o truth) (limited : ops.IsChain (Limited t g)) :
    let w := World.run t g ops
    (w.odometry.previous = w.accepted.head?.map (·.now) ∧ ∀ a ∈ w.accepted.head?, a.pose = w.odometry.pose) ∧
      w.accepted.IsChain (Exact t g) ∧
      (∀ newest ∈ w.accepted.head?, newest.now.position.isSome → ∀ oldest ∈ w.accepted.getLast?,
        total w.accepted = ⟨newest.truth.left - oldest.truth.left, newest.truth.right - oldest.truth.right⟩) ∧
      ∀ o reason s', w.odometry.update t g o = (.error reason, s') →
        s'.pose = w.odometry.pose ∧ s'.previous = w.odometry.previous ∧
          ∀ o', ∃ reason', s'.update t g o' = (.error reason', s') := by
  obtain ⟨last, tracks⟩ := Tracks.run ops (tracks_initial (t := t) (g := g) none) (by simpa using counted) limited
  refine ⟨⟨tracks.previous, tracks.pose⟩, tracks.moved, total_eq tracks.moved, fun o reason s' rejected => ?_⟩
  obtain ⟨pose, previous, shut⟩ := update_error rejected
  exact ⟨pose, previous, update_of_blocked shut⟩

namespace Bench

def trig : Trig := ⟨884279719003555 / 2 ^ 48, id, fun _ => 1, by decide +kernel⟩

def geometry : Geometry where
  leftRadiusM := 165/1000
  rightRadiusM := 165/1000
  trackWidthM := 58/100
  leftSign := -1
  rightSign := -1
  leftMotorTurnsPerWheelTurn := 1
  rightMotorTurnsPerWheelTurn := 1
  countsPerMotorTurn := some 16384
  maxWheelSpeedMS := 1
  maxGapS := 2
  linearVelocityVariance := 1
  angularVelocityVariance := 1
  radii_pos := by decide +kernel
  track_pos := by decide +kernel
  turns_pos := by decide +kernel
  limits_pos := by decide +kernel
  variances_pos := by decide +kernel
  signs := by decide
  counts_pos := by decide

def sample (second : ℕ) : WheelObservation where
  stampNs := some (second * 1000000000 + 1)
  timeValid := true
  timeSource := "common_measurement"
  uncertaintyNs := some 0
  streamEpoch := some "epoch"
  sequence := some second
  leftVelocityRpm := .absent
  rightVelocityRpm := .absent
  leftPositionCounts := .value (15000 * second % 2 ^ 16)
  rightPositionCounts := .value (15000 * second % 2 ^ 16)
  counterBits := some 16

def driven : List Operation := (List.range 10).map fun second => .update (sample second) ⟨15000 * second, 15000 * second⟩

theorem driven_counted (o : WheelObservation) (truth : Wheels ℤ) (there : .update o truth ∈ driven) : Counted o truth := by
  obtain ⟨second, -, same⟩ := List.mem_map.mp there
  cases same
  constructor
  · intro bits here l read
    cases here
    cases read
    exact Int.mod_modEq _ _
  · intro bits here r read
    cases here
    cases read
    exact Int.mod_modEq _ _

theorem driven_limited : driven.IsChain (Limited trig geometry) := by
  refine (List.isChain_map _).mpr ((List.isChain_range_succ _ 9).mpr fun second _ => ?_)
  intro _ counts known stamp here stamp' there
  cases known
  cases here
  cases there
  have turned : (15000 * (second.succ : ℤ) - 15000 * (second : ℤ)) = 15000 := by push_cast; ring
  have elapsed : ((second.succ : ℤ) * 1000000000 + 1 - ((second : ℤ) * 1000000000 + 1)) = 1000000000 := by push_cast; ring
  rw [turned, elapsed]
  decide +kernel

end Bench

/-- The counts of the bench telescope past the rollovers. -/
theorem bench_unwrapped : total (World.run Bench.trig Bench.geometry Bench.driven).accepted = ⟨135000, 135000⟩ := by
  have newest : (World.run Bench.trig Bench.geometry Bench.driven).accepted.head?.map
      (fun a => (a.truth, a.now.position.isSome)) = some (⟨135000, 135000⟩, true) := by decide +kernel
  have oldest : (World.run Bench.trig Bench.geometry Bench.driven).accepted.getLast?.map (·.truth) = some ⟨0, 0⟩ := by
    decide +kernel
  obtain ⟨a, here, isNewest⟩ := Option.map_eq_some_iff.mp newest
  obtain ⟨b, there, isOldest⟩ := Option.map_eq_some_iff.mp oldest
  obtain ⟨truth, positioned⟩ := Prod.mk.inj isNewest
  have unwraps := wheel_unwraps Bench.trig Bench.geometry Bench.driven Bench.driven_counted Bench.driven_limited
  rw [unwraps.2.2.1 a here positioned b there, truth, isOldest]
  rfl

end Smartwheel.Motion
