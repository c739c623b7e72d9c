import Mathlib.Data.List.Perm.Subperm
import Smartwheel.Graph.Node

/-! What one call of the graph node can do, and what the node keeps on its own: its records, the nodes of the
graph and the observations it processed go together, and what it publishes is durable. -/
namespace Smartwheel.Graph
open Effect

variable {c : Config} {n n' : Node} {m : AcceptedBundle}

structure RecordOf (c : Config) (m : AcceptedBundle) (e : Int × RawRecord) : Prop where
  id : e.1 = m.bundle.bundleId
  digest : e.2.acceptedDigest = c.fingerprint m
  epoch : e.2.odomEpoch = m.tracking.odomEpoch
  left : e.2.leftKey = m.bundle.leftRawKey
  right : e.2.rightKey = m.bundle.rightRawKey

structure New (c : Config) (n : Node) (m : AcceptedBundle) (e : Int × RawRecord) : Prop where
  record : RecordOf c m e
  positive : 0 < e.1
  last : n.records.getLast?.all (·.1 < e.1)

variable {e : Int × RawRecord}

theorem admitted_ok {file : Check String} (h : n.admitted c m file = .ok e) : New c n m e := by
  unfold Node.admitted at h
  simp only [bind_eq_ok_iff] at h
  obtain ⟨_, -, _, -, _, -, _, -, _, identified, _, later, _, -, _, -, _, -, _, -, _, -, _, -, _, -, _, -,
    _, -, _, -, _, -, _, -, _, -, _, -, _, -, _, -, h⟩ := h
  obtain rfl := Except.ok.inj h
  have positive := (require_ok identified).1
  exact ⟨⟨rfl, rfl, rfl, rfl, rfl⟩, by simpa using positive, require_ok later⟩

def Node.taken (n : Node) (m : AcceptedBundle) (e : Int × RawRecord) (engine : Engine) (poses : List Int) : Node :=
  { n with engine := engine, processed := e.1 :: n.processed }.insert m.bundle e.1 e.2 poses

/-- What a call of `accepted` can do. -/
inductive Move (c : Config) (m : AcceptedBundle) (n : Node) : Node → Prop
  | ignore : Move c m n n
  | latch (reason : String) : Move c m n (n.latch reason)
  | retry (stamp : Stamp) (graph : GraphSnapshot) (live : n.failed = false)
      (made : n.graphMessage c stamp = .ok graph) : Move c m n (n.publish graph)
  | refuse (e : Int × RawRecord) (engine : Engine) (reason : String) (live : n.failed = false) (new : New c n m e) :
      Move c m n ({ n with engine := engine, processed := e.1 :: n.processed }.latch reason)
  | lose (e : Int × RawRecord) (engine : Engine) (poses : List Int) (reason : String) (live : n.failed = false)
      (new : New c n m e) : Move c m n ((n.taken m e engine poses).latch reason)
  | commit (e : Int × RawRecord) (answer : Answer) (engine : Engine) (poses : List Int) (graph : GraphSnapshot)
      (live : n.failed = false) (new : New c n m e)
      (added : n.engine.process c.maxNodes e.1 e.2.odometry answer = (.ok poses, engine))
      (made : (n.taken m e engine poses).graphMessage c m.bundle.header.stamp = .ok graph) :
      Move c m n
        { (n.taken m e engine poses).publish graph with
          revisions := graph :: n.revisions
          diagnostic := ("MAPPING_DUAL",
            "RTAB-Map graph revision committed with complete raw-frame associations") }

theorem acknowledge_moves (live : n.failed = false) (record : RawRecord) :
    Move c m n (n.acknowledge c m record) := by
  unfold Node.acknowledge
  split
  · exact .latch _
  · split
    · exact .latch _
    · rename_i graph made
      exact .retry _ graph live made

theorem extend_moves (live : n.failed = false) (s : Surroundings) : Move c m n (n.extend c m s) := by
  unfold Node.extend
  split
  · exact .latch _
  · rename_i id record admitted
    have new := admitted_ok admitted
    split
    · rename_i reason engine _
      exact .refuse (id, record) engine reason live new
    · rename_i poses engine added
      unfold Node.commit
      split
      · rename_i reason _
        exact .lose (id, record) engine poses reason live new
      · rename_i graph made
        split
        · rename_i reason _
          exact .lose (id, record) engine poses reason live new
        · exact .commit (id, record) s.answer engine poses graph live new added made

theorem accepted_moves (s : Surroundings) : Move c m n (n.accepted c m s) := by
  unfold Node.accepted
  split
  · exact .ignore
  · rename_i failed
    have live : n.failed = false := by simpa using failed
    dsimp only
    split
    · exact acknowledge_moves live _
    · split
      · exact .ignore
      · exact extend_moves live s

def nodeOf (e : Int × RawRecord) : GraphNode := ⟨e.1, e.2.odomEpoch, e.1.toNat, [e.2.leftKey, e.2.rightKey]⟩

def nodesOf (records : List (Int × RawRecord)) : List GraphNode := records.map nodeOf

theorem lookup_of_mem {α : Type} {l : List (Int × α)} (h : l.Pairwise fun e e' => e.1 < e'.1) {e : Int × α}
    (he : e ∈ l) : l.lookup e.1 = some e.2 := by
  induction l with
  | nil => cases he
  | cons first rest ih =>
    obtain ⟨before, order⟩ := List.pairwise_cons.mp h
    rcases List.mem_cons.mp he with rfl | he
    · exact List.lookup_cons_self
    · have less := before e he
      have different : (e.1 == first.1) = false := by simpa using (by omega : e.1 ≠ first.1)
      rw [List.lookup_cons, different]
      exact ih order he

theorem graphMessage_nodes {stamp : Stamp} {graph : GraphSnapshot}
    (ascending : n.records.Pairwise fun e e' => e.1 < e'.1) (poses : n.poses = n.records.map (·.1))
    (h : n.graphMessage c stamp = .ok graph) : graph.nodes = nodesOf n.records ∧ graph.graphEpoch = c.graphEpoch := by
  obtain ⟨-, -, h⟩ := bind_eq_ok h
  obtain ⟨nodes, made, h⟩ := bind_eq_ok h
  have each : ∀ l : List (Int × RawRecord), (∀ e ∈ l, e ∈ n.records) →
      (l.map (·.1)).mapM n.graphNode = .ok (nodesOf l) := by
    intro l
    induction l with
    | nil => exact fun _ => rfl
    | cons e rest ih =>
      intro known
      have found := lookup_of_mem ascending (known e List.mem_cons_self)
      have node : n.graphNode e.1 = .ok (nodeOf e) := by
        rw [Node.graphNode, found]
        rfl
      have others := ih fun x hx => known x (List.mem_cons_of_mem e hx)
      rw [List.map_cons, List.mapM_cons, node, others]
      rfl
  rw [poses, each _ fun _ h => h] at made
  obtain rfl := Except.ok.inj made
  obtain rfl := Except.ok.inj h
  exact ⟨rfl, rfl⟩

theorem eq_of_ascending {l l' : List Int} (h : l.Pairwise (· < ·)) (h' : l'.Pairwise (· < ·))
    (length : l.length = l'.length) (inside : ∀ x ∈ l, x ∈ l') : l = l' := by
  have perm : l.Perm l' := by
    have distinct : l.Nodup := h.imp fun less => ne_of_lt less
    exact (distinct.subperm inside).perm_of_length_le length.ge
  exact perm.eq_of_pairwise (fun a b _ _ less more => by omega) h h'

variable {answer : Answer}

theorem attempt_poses {e : Engine} {id : Int} {pose : Pose ℚ} {poses : List Int}
    (known : (e.odometry.map (·.1)).Pairwise (· < ·)) (later : ∀ p ∈ e.odometry, p.1 < id)
    (h : e.attempt id pose answer = .ok poses) : poses = e.odometry.map (·.1) ++ [id] := by
  cases answer with
  | refused reason | thrown reason => cases h
  | graph processed last keys =>
    obtain ⟨-, -, h⟩ := bind_eq_ok h
    obtain ⟨-, -, h⟩ := bind_eq_ok h
    obtain ⟨_, size, h⟩ := bind_eq_ok h
    obtain ⟨_, associated, h⟩ := bind_eq_ok h
    obtain rfl := Except.ok.inj h
    have size := require_ok size
    have associated := require_ok associated
    rw [emplace_last later] at size associated
    apply eq_of_ascending keys.ascending
    · refine List.pairwise_append.mpr ⟨known, List.pairwise_singleton _ _, fun a ha b hb => ?_⟩
      obtain ⟨p, hp, rfl⟩ := List.mem_map.mp ha
      exact List.mem_singleton.mp hb ▸ later p hp
    · simpa using size
    · intro x hx
      have found := List.all_eq_true.mp associated x hx
      obtain ⟨p, hp, same⟩ := List.any_eq_true.mp found
      obtain rfl : p.1 = x := by simpa using same
      have member := List.mem_map_of_mem (f := Prod.fst) hp
      rwa [List.map_append] at member

variable {engine : Engine}

theorem process_poses {e : Engine} {maxNodes : Nat} {id : Int} {pose : Pose ℚ}
    {poses : List Int} (known : (e.odometry.map (·.1)).Pairwise (· < ·))
    (later : ∀ p ∈ e.odometry, p.1 < id) (h : e.process maxNodes id pose answer = (.ok poses, engine)) :
    poses = e.odometry.map (·.1) ++ [id] ∧ engine.odometry.map (·.1) = e.odometry.map (·.1) ++ [id] := by
  unfold Engine.process at h
  split at h
  · cases h
  split at h
  · cases h
  split at h
  · cases h
  split at h
  · cases h
  split at h
  · rename_i attempted
    cases h
    refine ⟨attempt_poses known later attempted, ?_⟩
    rw [emplace_last later, List.map_append]
    rfl
  · cases h

/-- What the node keeps. While it has not failed its records, its nodes, what it processed and its newest
durable revision are the same observations. -/
structure Kept (c : Config) (n : Node) : Prop where
  ascending : n.records.Pairwise fun e e' => e.1 < e'.1
  processed : n.processed.Pairwise (· > ·)
  live : n.failed = false → n.processed = (n.records.map (·.1)).reverse ∧
    n.engine.odometry.map (·.1) = n.records.map (·.1) ∧ n.poses = n.records.map (·.1)

def Node.durable (n : Node) : List GraphNode := (n.revisions.head?.map (·.nodes)).getD []

structure Durable (c : Config) (n : Node) : Prop where
  durable : ∃ k ≤ n.records.length, n.durable = nodesOf (n.records.take k)
  complete : n.failed = false → n.durable = nodesOf n.records
  published : ∀ s ∈ n.published, s.graphEpoch = c.graphEpoch ∧
    ∃ k ≤ n.durable.length, s.nodes = nodesOf (n.records.take k)

theorem New.later (h : New c n m e)
    (ascending : n.records.Pairwise fun e e' => e.1 < e'.1) : ∀ p ∈ n.records, p.1 < e.1 := by
  intro p hp
  have last := h.last
  cases hl : n.records.getLast? with
  | none =>
    rw [List.getLast?_eq_none_iff.mp hl] at hp
    cases hp
  | some final =>
    rw [hl] at last
    have less : final.1 < e.1 := by simpa using last
    obtain ⟨start, split⟩ := List.getLast?_eq_some_iff.mp hl
    rw [split] at hp ascending
    rcases List.mem_append.mp hp with hp | hp
    · have before := (List.pairwise_append.mp ascending).2.2 p hp final (List.mem_singleton.mpr rfl)
      omega
    · rwa [List.mem_singleton.mp hp]

theorem taken_records {poses : List Int} (h : New c n m e)
    (hk : Kept c n) : (n.taken m e engine poses).records = n.records ++ [e] :=
  emplace_last (h.later hk.ascending)

theorem ascending_taken {poses : List Int} (h : New c n m e)
    (hk : Kept c n) : (n.taken m e engine poses).records.Pairwise fun e e' => e.1 < e'.1 := by
  rw [taken_records h hk]
  refine List.pairwise_append.mpr ⟨hk.ascending, List.pairwise_singleton _ _, fun p hp q hq => ?_⟩
  exact List.mem_singleton.mp hq ▸ h.later hk.ascending p hp

theorem processed_new (live : n.failed = false) (h : New c n m e) (hk : Kept c n) :
    (e.1 :: n.processed).Pairwise (· > ·) := by
  refine List.pairwise_cons.mpr ⟨fun id hid => ?_, hk.processed⟩
  rw [(hk.live live).1] at hid
  obtain ⟨p, hp, rfl⟩ := List.mem_map.mp (List.mem_reverse.mp hid)
  exact h.later hk.ascending p hp

theorem taken_live {poses : List Int} (live : n.failed = false) (h : New c n m e) (hk : Kept c n)
    (added : n.engine.process c.maxNodes e.1 e.2.odometry answer = (.ok poses, engine)) :
    poses = (n.records ++ [e]).map (·.1) ∧ engine.odometry.map (·.1) = (n.records ++ [e]).map (·.1) := by
  have known := (hk.live live).2.1
  have order : (n.engine.odometry.map (·.1)).Pairwise (· < ·) := by
    rw [known]
    exact List.pairwise_map.mpr hk.ascending
  have later : ∀ p ∈ n.engine.odometry, p.1 < e.1 := by
    intro p hp
    have member := List.mem_map_of_mem (f := Prod.fst) hp
    rw [known] at member
    obtain ⟨q, hq, same⟩ := List.mem_map.mp member
    have less := h.later hk.ascending q hq
    rwa [same] at less
  obtain ⟨ids, odometry⟩ := process_poses order later added
  rw [ids, odometry, known, List.map_append]
  exact ⟨rfl, rfl⟩

theorem kept_move (h : Move c m n n') (hk : Kept c n) : Kept c n' := by
  cases h with
  | ignore => exact hk
  | latch reason => exact ⟨hk.ascending, hk.processed, fun live => (by cases live)⟩
  | retry stamp graph live made => exact ⟨hk.ascending, hk.processed, hk.live⟩
  | refuse e engine reason live new =>
    exact ⟨hk.ascending, processed_new live new hk, fun live => (by cases live)⟩
  | lose e engine poses reason live new =>
    exact ⟨@ascending_taken c n m e engine poses new hk, processed_new live new hk, fun live => (by cases live)⟩
  | commit e answer engine poses graph live new added made =>
    refine ⟨@ascending_taken c n m e engine poses new hk, processed_new live new hk, fun _ => ?_⟩
    show e.1 :: n.processed = ((n.taken m e engine poses).records.map (·.1)).reverse ∧
      engine.odometry.map (·.1) = (n.taken m e engine poses).records.map (·.1) ∧
      poses = (n.taken m e engine poses).records.map (·.1)
    obtain ⟨ids, odometry⟩ := taken_live live new hk added
    rw [taken_records new hk, (hk.live live).1]
    exact ⟨by simp, odometry, ids⟩

theorem nodesOf_take {records more : List (Int × RawRecord)} {k : Nat} (hk : k ≤ records.length) :
    nodesOf ((records ++ more).take k) = nodesOf (records.take k) := by
  rw [List.take_append_of_le_length hk]

theorem durable_length (hd : Durable c n) : n.durable.length ≤ n.records.length := by
  obtain ⟨k, hk, same⟩ := hd.durable
  rw [same, nodesOf, List.length_map, List.length_take]
  omega

theorem durable_more {more : List (Int × RawRecord)} (hd : Durable c n) (records : n'.records = n.records ++ more)
    (revisions : n'.revisions = n.revisions) (published : n'.published = n.published)
    (complete : n'.failed = false → n'.durable = nodesOf n'.records) : Durable c n' := by
  have same : n'.durable = n.durable := by rw [Node.durable, Node.durable, revisions]
  obtain ⟨k, hk, nodes⟩ := hd.durable
  refine ⟨⟨k, ?_, ?_⟩, complete, fun s hs => ?_⟩
  · rw [records, List.length_append]
    omega
  · rw [same, records, nodesOf_take hk, nodes]
  · obtain ⟨epoch, j, hj, snapshot⟩ := hd.published s (published ▸ hs)
    have room := durable_length hd
    exact ⟨epoch, j, same ▸ hj, by rw [records, nodesOf_take (by omega), snapshot]⟩

theorem durable_move (h : Move c m n n') (hk : Kept c n) (hd : Durable c n) : Durable c n' := by
  cases h with
  | ignore => exact hd
  | latch reason =>
    exact durable_more hd (List.append_nil _).symm rfl rfl fun live => (by cases live)
  | retry stamp graph live made =>
    have nodes := graphMessage_nodes hk.ascending (hk.live live).2.2 made
    refine ⟨hd.durable, hd.complete, fun s hs => ?_⟩
    rcases List.mem_cons.mp hs with rfl | hs
    · refine ⟨nodes.2, n.records.length, ?_, by rw [nodes.1]; exact congrArg nodesOf List.take_length.symm⟩
      show n.records.length ≤ n.durable.length
      rw [hd.complete live, nodesOf, List.length_map]
    · exact hd.published s hs
  | refuse e engine reason live new =>
    exact durable_more hd (List.append_nil _).symm rfl rfl fun live => (by cases live)
  | lose e engine poses reason live new =>
    exact durable_more hd (@taken_records c n m e engine poses new hk) rfl rfl fun live => (by cases live)
  | commit e answer engine poses graph live new added made =>
    have records := @taken_records c n m e engine poses new hk
    have nodes := graphMessage_nodes (ascending_taken new hk)
      (by rw [records]; exact (taken_live live new hk added).1) made
    have all : graph.nodes = nodesOf (n.taken m e engine poses).records := nodes.1
    refine ⟨⟨(n.taken m e engine poses).records.length, le_rfl, ?_⟩, fun _ => all, fun s hs => ?_⟩
    · show graph.nodes = nodesOf ((n.taken m e engine poses).records.take _)
      rw [List.take_length, all]
    · show _ ∧ ∃ k ≤ graph.nodes.length, s.nodes = nodesOf ((n.taken m e engine poses).records.take k)
      have size : graph.nodes.length = n.records.length + 1 := by
        rw [all, nodesOf, List.length_map, records, List.length_append]
        rfl
      rcases List.mem_cons.mp hs with rfl | hs
      · refine ⟨nodes.2, _, le_rfl, ?_⟩
        rw [all, nodesOf, List.length_map, List.take_length]
        rfl
      · obtain ⟨epoch, k, hk', snapshot⟩ := hd.published s hs
        have room := durable_length hd
        exact ⟨epoch, k, by omega, by rw [records, nodesOf_take (by omega), snapshot]⟩

end Smartwheel.Graph
