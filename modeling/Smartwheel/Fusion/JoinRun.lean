import Smartwheel.Fusion.SourceJoin

/-! What every run of the join keeps, and what it returns. -/
namespace Smartwheel.Fusion.Join
open Effect

variable {c : Config} {s s' : State} {w : World} {pair : Pair} {result : Except Failure (Option Pair)}

/-- Values of which none comes back among the next `n`: no `n + 1` that follow each other have one twice. -/
theorem nodup_window {α : Type*} {n : Nat} {values : List α} (spaced : Always (fun a older => a ∉ older.take n) values)
    (later window earlier : List α) (split : values = later ++ window ++ earlier)
    (short : window.length ≤ n + 1) : window.Nodup := by
  induction window generalizing later with
  | nil => exact List.nodup_nil
  | cons a window ih =>
    rw [List.length_cons] at short
    refine List.nodup_cons.mpr ⟨fun mem => ?_, ?_⟩
    · have apart : a ∉ (window ++ earlier).take n := by
        refine spaced.split (?_ : values = later ++ a :: (window ++ earlier))
        rw [split, List.append_assoc, List.cons_append]
      apply apart
      rw [List.take_append, List.mem_append, List.take_of_length_le (by omega)]
      exact .inl mem
    · refine ih (later ++ [a]) ?_ (by omega)
      rw [split, List.append_assoc later [a], List.singleton_append]

/-- A memory of the last `n` values, oldest first, after one more. -/
theorem latest_kept {α : Type*} (n : Nat) (a : α) (values : List α) :
    ((values.take n).reverse ++ [a]).drop ((values.take n).length + 1 - n) = ((a :: values).take n).reverse := by
  have first : (a :: values.take n).take n = (a :: values).take n := by
    cases n with
    | zero => rfl
    | succ n => rw [List.take_succ_cons, List.take_succ_cons, List.take_take, Nat.min_eq_left (Nat.le_succ n)]
  rw [← List.reverse_cons, List.drop_reverse, List.length_cons, ← first]
  congr 1
  by_cases short : (values.take n).length + 1 ≤ n
  · rw [Nat.sub_eq_zero_of_le short, Nat.sub_zero]
    have whole : (a :: values.take n).length ≤ n := short
    exact (List.take_of_length_le (Nat.le_refl _)).trans (List.take_of_length_le whole).symm
  · congr 1
    omega

structure Sound (c : Config) (pair : Pair) : Prop where
  identity : pair.filtered.identity = pair.raw.identity
  acquisition : pair.raw.acquisition = pair.filtered.acquisition
  references : References c pair.raw pair.filtered

def Keyed (row : Row) : Prop := ∀ kind message, row.get kind = some message → message.identity = row.key

structure Bounded (c : Config) (s : State) : Prop where
  keyed : ∀ row ∈ s.pending, Keyed row
  length : s.pending.length ≤ c.capacity

def Nothing (result : Except Failure (Option Pair)) : Prop := ∀ pair, result ≠ .ok (some pair)

theorem error_nothing (e : Failure) : Nothing (.error e) := by
  intro pair h
  cases h

theorem none_nothing : Nothing (.ok none) := by
  intro pair h
  cases h

theorem reject_nothing (code : String) : Nothing (reject code) := error_nothing _

def Returns (c : Config) (s s' : State) (result : Except Failure (Option Pair)) : Prop :=
  Bounded c s' ∧
    (Nothing result ∧ s'.completed = s.completed ∨
      ∃ pair, result = .ok (some pair) ∧ Sound c pair ∧ (∀ entry ∈ s.completed, entry.key ≠ pair.raw.identity) ∧
        s'.completed = (s.completed ++ [remembered c pair]).drop (s.completed.length + 1 - c.capacity * 4))

theorem Bounded.sublist (h : Bounded c s) {pending : List Row} (sub : pending.Sublist s.pending) :
    Bounded c { s with pending } :=
  ⟨fun row mem => h.keyed row (sub.subset mem), sub.length_le.trans h.length⟩

theorem returns_nothing (h : Bounded c s') (same : s'.completed = s.completed)
    (nothing : Nothing result) : Returns c s s' result :=
  ⟨h, .inl ⟨nothing, same⟩⟩

theorem join_returns (h : Bounded c s) {key : Identity} {raw filtered : Message} (rawKey : raw.identity = key)
    (filteredKey : filtered.identity = key) (new : ∀ entry ∈ s.completed, entry.key ≠ key) :
    Returns c s (s.join c key raw filtered).2 (s.join c key raw filtered).1 := by
  have left : Bounded c { s with pending := s.pending.filter (·.key ≠ key) } := h.sublist List.filter_sublist
  unfold State.join
  dsimp only
  split
  · exact returns_nothing left rfl (reject_nothing _)
  · rename_i acquisition
    split
    · exact returns_nothing left rfl (reject_nothing _)
    · rename_i references
      refine ⟨⟨left.keyed, left.length⟩, .inr ⟨⟨raw, filtered⟩, rfl, ⟨?_, ?_, ?_⟩, ?_, ?_⟩⟩
      · exact filteredKey.trans rawKey.symm
      · exact not_not.mp acquisition
      · exact not_not.mp references
      · rw [rawKey]
        exact new
      · show List.drop _ (s.completed ++ [_]) = _
        rw [List.length_append, List.length_singleton, remembered, rawKey]

theorem keyed_set {row : Row} (h : Keyed row) (kind : Kind) {message : Message} (key : message.identity = row.key) :
    Keyed (row.set kind message) ∧ (row.set kind message).key = row.key := by
  have raw := h .raw
  have filtered := h .filtered
  cases kind with
  | raw =>
    refine ⟨fun kind' message' some_ => ?_, rfl⟩
    cases kind' with
    | raw =>
      cases some_
      exact key
    | filtered => exact filtered message' some_
  | filtered =>
    refine ⟨fun kind' message' some_ => ?_, rfl⟩
    cases kind' with
    | raw => exact raw message' some_
    | filtered =>
      cases some_
      exact key

theorem meet_returns (h : Bounded c s) {kind : Kind} {message : Message} {row : Row} (keyed : Keyed row)
    (key : message.identity = row.key) (new : ∀ entry ∈ s.completed, entry.key ≠ row.key) :
    Returns c s (s.meet c kind message row).2 (s.meet c kind message row).1 := by
  obtain ⟨keyed', same⟩ := keyed_set keyed kind key
  unfold State.meet
  split
  · exact returns_nothing h rfl (reject_nothing _)
  · dsimp only
    split
    · rename_i raw filtered raw' filtered'
      rw [same]
      exact join_returns h ((keyed' .raw raw raw').trans same) ((keyed' .filtered filtered filtered').trans same) new
    · refine returns_nothing ⟨fun r mem => ?_, ?_⟩ rfl none_nothing
      · obtain ⟨r', before, eq⟩ := List.mem_map.mp mem
        rw [← eq]
        split
        · exact keyed'
        · exact h.keyed r' before
      · show (s.pending.map _).length ≤ _
        rw [List.length_map]
        exact h.length

theorem expire_bounded (h : Bounded c s) (now : Int) :
    Bounded c (s.expire c now).2 ∧ (s.expire c now).2.completed = s.completed := by
  unfold State.expire
  split
  · exact ⟨h.sublist (List.nil_sublist _), rfl⟩
  · exact ⟨h, rfl⟩

theorem push_returns (h : Bounded c s) (kind : Option Kind) (message : Message) (now : Field Int) :
    Returns c s (s.push c kind message now).2 (s.push c kind message now).1 := by
  unfold State.push
  cases kind with
  | none => exact returns_nothing h rfl (reject_nothing _)
  | some kind =>
    dsimp only
    cases integerNs now with
    | error e => exact returns_nothing h rfl (error_nothing e)
    | ok now =>
      obtain ⟨left, same⟩ := expire_bounded h now
      dsimp only
      generalize s.expire c now = expired at left same
      obtain ⟨outcome, s'⟩ := expired
      have keep {s'' : State} {result : Except Failure (Option Pair)} (r : Returns c s' s'' result) :
          Returns c s s'' result := by
        have completed : s'.completed = s.completed := same
        unfold Returns at r
        rw [completed] at r
        exact r
      cases outcome with
      | error e => exact keep (returns_nothing left rfl (error_nothing e))
      | ok u =>
        dsimp only
        split
        · split
          · exact keep (returns_nothing left rfl (reject_nothing _))
          · exact keep (returns_nothing left rfl none_nothing)
        · rename_i absent
          have new : ∀ entry ∈ s'.completed, entry.key ≠ message.identity := by
            intro entry mem eq
            have found := List.find?_eq_none.mp absent entry mem
            rw [eq] at found
            exact found (decide_eq_true rfl)
          split
          · rename_i row found
            have key : row.key = message.identity := by
              have holds := List.find?_some found
              exact of_decide_eq_true holds
            refine keep (meet_returns left (left.keyed row (List.mem_of_find?_eq_some found)) key.symm ?_)
            rw [key]
            exact new
          · split
            · exact keep (returns_nothing left rfl (reject_nothing _))
            · rename_i room
              have keyed : Keyed ⟨message.identity, now, none, none⟩ := by
                intro kind' message' some_
                cases kind' <;> cases some_
              have grown : Bounded c { s' with pending := s'.pending ++ [⟨message.identity, now, none, none⟩] } := by
                refine ⟨fun row mem => ?_, ?_⟩
                · rcases List.mem_append.mp mem with before | last
                  · exact left.keyed row before
                  · rw [List.mem_singleton.mp last]
                    exact keyed
                · show (s'.pending ++ [_]).length ≤ _
                  rw [List.length_append, List.length_singleton]
                  omega
              exact keep (meet_returns grown keyed rfl new)

structure Kept (c : Config) (w : World) : Prop where
  bounded : Bounded c w.state
  sound : ∀ pair ∈ w.emitted, Sound c pair
  memory : w.state.completed = ((w.emitted.take (c.capacity * 4)).map (remembered c)).reverse
  spaced : Always (fun key older => key ∉ older.take (c.capacity * 4)) (w.emitted.map (·.raw.identity))

theorem Kept.returns (h : Kept c w) (r : Returns c w.state s' result) (nothing : Nothing result) :
    Kept c { w with state := s' } := by
  obtain ⟨bounded, ⟨-, same⟩ | ⟨pair, some_, -⟩⟩ := r
  · exact ⟨bounded, h.sound, same.trans h.memory, h.spaced⟩
  · exact absurd some_ (nothing pair)

theorem Kept.emits (h : Kept c w) (r : Returns c w.state s' (.ok (some pair))) : Kept c ⟨s', pair :: w.emitted⟩ := by
  obtain ⟨bounded, ⟨nothing, -⟩ | ⟨pair', same, sound, new, memory⟩⟩ := r
  · exact absurd rfl (nothing pair)
  · cases same
    refine ⟨bounded, fun p mem => ?_, ?_, ?_, h.spaced⟩
    · rcases List.mem_cons.mp mem with same | before
      · rw [same]
        exact sound
      · exact h.sound p before
    · rw [memory, h.memory, List.length_reverse, List.map_take, List.map_take, List.map_cons]
      exact latest_kept (c.capacity * 4) (remembered c pair) (w.emitted.map (remembered c))
    · intro mem
      rw [← List.map_take] at mem
      obtain ⟨p, before, eq⟩ := List.mem_map.mp mem
      refine new (remembered c p) ?_ eq
      rw [h.memory, List.mem_reverse]
      exact List.mem_map_of_mem before

theorem kept_call (h : Kept c w) (call : Call) : Kept c (w.call c call) := by
  cases call with
  | push kind message now =>
    have r := push_returns h.bounded kind message now
    unfold World.call
    dsimp only
    generalize w.state.push c kind message now = pushed at r
    obtain ⟨result, s'⟩ := pushed
    dsimp only at r ⊢
    split
    · rename_i pair s'' same
      cases same
      exact h.emits r
    · rename_i pushed' result' s'' nothing same
      cases same
      exact h.returns r nothing
  | clear =>
    exact ⟨h.bounded.sublist (List.nil_sublist _), h.sound, h.memory, h.spaced⟩
  | expire now =>
    obtain ⟨left, same⟩ := expire_bounded h.bounded now
    exact ⟨left, h.sound, same.trans h.memory, h.spaced⟩

theorem kept_initial (c : Config) : Kept c initial :=
  ⟨⟨fun _ mem => absurd mem List.not_mem_nil, Nat.zero_le _⟩, fun _ mem => absurd mem List.not_mem_nil, by
    rw [initial, List.take_nil, List.map_nil, List.reverse_nil], trivial⟩

theorem kept_run (c : Config) (calls : List Call) : Kept c (run c calls) := by
  have all (w : World) (h : Kept c w) : Kept c (calls.foldl (World.call c) w) := by
    induction calls generalizing w with
    | nil => exact h
    | cons call calls ih => exact ih _ (kept_call h call)
  exact all initial (kept_initial c)

theorem Kept.remembers (h : Kept c w) (mem : pair ∈ w.emitted.take (c.capacity * 4)) :
    w.state.completed.find? (·.key = pair.raw.identity) = some (remembered c pair) := by
  have there : remembered c pair ∈ w.state.completed := by
    rw [h.memory, List.mem_reverse]
    exact List.mem_map_of_mem mem
  have distinct : (w.state.completed.map (·.key)).Nodup := by
    rw [h.memory, List.map_reverse, List.nodup_reverse, List.map_map]
    have window : ((w.emitted.map (·.raw.identity)).take (c.capacity * 4)).Nodup := by
      refine nodup_window h.spaced [] _ _ (List.take_append_drop _ _).symm ?_
      have short := List.length_take_le (c.capacity * 4) (w.emitted.map (·.raw.identity))
      omega
    rw [← List.map_take] at window
    exact window
  cases found : w.state.completed.find? (·.key = pair.raw.identity) with
  | none =>
    have absent := List.find?_eq_none.mp found _ there
    exact absurd (decide_eq_true rfl) absent
  | some entry =>
    have key : entry.key = pair.raw.identity := by
      have holds := List.find?_some found
      exact of_decide_eq_true holds
    exact congrArg some (List.inj_on_of_nodup_map distinct (List.mem_of_find?_eq_some found) there key)

def NoCollision (c : Config) (a b : List UInt8) : Prop := c.sha256 b = c.sha256 a → b = a

theorem Kept.refuses (h : Kept c w) (kind : Kind) (message : Message) (now : Field Int)
    (mem : pair ∈ w.emitted.take (c.capacity * 4))
    (same : message.identity = pair.raw.identity) (collides : NoCollision c message.cloudData (pair.get kind).cloudData)
    (other : (message.acquisition, message.sourceConfigHash, message.cloudData) ≠
      ((pair.get kind).acquisition, (pair.get kind).sourceConfigHash, (pair.get kind).cloudData)) :
    ∃ e, (w.state.push c (some kind) message now).1 = .error e := by
  have changed : (remembered c pair).get kind ≠ contentSignature c message := by
    intro eq
    apply other
    have content : contentSignature c (pair.get kind) = contentSignature c message := by
      cases kind with
      | raw | filtered => exact eq
    obtain ⟨acquisition, config, digest⟩ := Content.mk.inj content
    rw [acquisition, config, collides digest]
  unfold State.push
  dsimp only
  cases integerNs now with
  | error e => exact ⟨e, rfl⟩
  | ok now =>
    obtain ⟨-, completed⟩ := expire_bounded h.bounded now
    dsimp only
    generalize w.state.expire c now = expired at completed
    obtain ⟨outcome, s'⟩ := expired
    cases outcome with
    | error e => exact ⟨e, rfl⟩
    | ok u =>
      have found : s'.completed.find? (·.key = message.identity) = some (remembered c pair) := by
        rw [same, show s'.completed = w.state.completed from completed]
        exact h.remembers mem
      dsimp only
      rw [found]
      dsimp only
      rw [if_pos changed]
      exact ⟨_, rfl⟩

/-- Pairs are frames with their own filtered message, no frame is paired twice within the memory, the frames waiting
fit the capacity, and a remembered frame with another content is refused. -/
theorem join_sound (c : Config) (calls : List Call) :
    let w := run c calls
    (∀ pair ∈ w.emitted, pair.filtered.identity = pair.raw.identity ∧
      pair.filtered.acquisition = pair.raw.acquisition ∧ References c pair.raw pair.filtered) ∧
    w.state.pending.length ≤ c.capacity ∧
    (∀ later window earlier, w.emitted = later ++ window ++ earlier → window.length ≤ 4 * c.capacity + 1 →
      (window.map (·.raw.identity)).Nodup) ∧
    ∀ pair ∈ w.emitted.take (4 * c.capacity), ∀ kind message now, message.identity = pair.raw.identity →
      NoCollision c message.cloudData (pair.get kind).cloudData →
      (message.acquisition, message.sourceConfigHash, message.cloudData) ≠
        ((pair.get kind).acquisition, (pair.get kind).sourceConfigHash, (pair.get kind).cloudData) →
      ∃ e, (w.state.push c (some kind) message now).1 = .error e := by
  intro w
  have kept : Kept c w := kept_run c calls
  refine ⟨fun pair mem => ?_, kept.bounded.length, fun later window earlier split short => ?_, ?_⟩
  · have sound := kept.sound pair mem
    exact ⟨sound.identity, sound.acquisition.symm, sound.references⟩
  · refine nodup_window kept.spaced (later.map (·.raw.identity)) _ (earlier.map (·.raw.identity)) ?_ ?_
    · rw [split, List.map_append, List.map_append]
    · rw [List.length_map, Nat.mul_comm]
      exact short
  · intro pair mem kind message now same collides other
    rw [Nat.mul_comm] at mem
    exact kept.refuses kind message now mem same collides other

def bench : Config where
  capacity := 1
  timeoutNs := 300000000
  sha256 bytes :=
    if bytes = [1] then "4bf5122f344554c53bde2ebb8cd2b7e3d1600ad631c385a5d7cce23c7785459a"
    else if bytes = [2] then "dbc1b4c900ffe48d575b5da5c638040125f65db0fe3e24494b76ea986457d986"
    else "e3b0c44298fc1c149afbf4c8996fb92427ae41e4649b934ca495991b7852b855"
  bounds := by decide

def Bench.acquisition : Acquisition where
  header := ⟨"lidar_left", 5, 0⟩
  cloudHeader := ⟨"lidar_left", 5, 0⟩
  deviceTimestampValid := true
  deviceTimestampRaw := 5000000000
  deviceTimestampUnit := "ns"
  deviceTimeComponentsValid := false
  deviceTimestampSeconds := 0
  deviceTimestampNanoseconds := 0
  deviceTimeType := "free_running"
  deviceSyncState := "unknown"
  hostReceiveTime := ⟨5, 1000000⟩
  hostMonotonicNs := 5001000000
  commonTimeValid := true
  commonTimeNs := 5000000000
  clockModelId := "left-1"
  timeSource := "device"
  uncertaintyValid := true
  uncertaintyNs := 1000000
  coordinateConvention := "REP-103"
  units := "m"

def Bench.raw (byte : UInt8) : Message :=
  ⟨⟨"session", "left", "L1", "boot-1", 7⟩, Bench.acquisition, "cfg", [byte], []⟩

def Bench.filtered : Message :=
  { Bench.raw 1 with
    sourceConfigHash := "cfg-filtered"
    cloudData := []
    diagnosticFlags := ["raw_source_config_hash=cfg",
      "before_host_filter_cloud_sha256=4bf5122f344554c53bde2ebb8cd2b7e3d1600ad631c385a5d7cce23c7785459a"] }

def Bench.calls : List Call :=
  [.push (some .filtered) Bench.filtered (.ok 0), .push (some .raw) (Bench.raw 1) (.ok 5)]

/-- The filtered message comes first; a late copy of the raw one with another byte is refused. -/
theorem bench_joined :
    (run bench Bench.calls).emitted = [⟨Bench.raw 1, Bench.filtered⟩] ∧
      ∃ e, ((run bench Bench.calls).state.push bench (some .raw) (Bench.raw 2) (.ok 9)).1 = .error e := by
  have emitted : (run bench Bench.calls).emitted = [⟨Bench.raw 1, Bench.filtered⟩] := by decide +kernel
  refine ⟨emitted, ?_⟩
  obtain ⟨-, -, -, refused⟩ := join_sound bench Bench.calls
  refine refused ⟨Bench.raw 1, Bench.filtered⟩ ?_ .raw (Bench.raw 2) (.ok 9) rfl ?_ ?_
  · rw [emitted]
    exact List.mem_cons_self
  · intro digest
    exact absurd digest (by decide +kernel)
  · decide

end Smartwheel.Fusion.Join
