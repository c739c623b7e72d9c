import Smartwheel.Graph.Protocol
import Smartwheel.Graph.NodeSpec

/-! Over any channels, the graph has recorded a first part of what was submitted, in order and each once; the
sender takes nothing for acknowledged that is not durable there, and finds no contradiction. -/
namespace Smartwheel.Graph
open Effect

def Delivery.Sent (d : Delivery) : Prop := ∃ item rest, d.queue = item :: rest ∧ item.firstSentNs.isSome

def Contradiction (reason : String) : Prop :=
  reason = "GRAPH_ACK_SKIPPED_PENDING_BUNDLE" ∨ reason = "GRAPH_ACK_OBSERVATION_MISMATCH" ∨
    reason = "GRAPH_ACK_EPOCH_CHANGED"

section
variable (d : Deployment)

def Records (o : Observation) (e : Int × RawRecord) : Prop :=
  ∃ m, d.decode o.payload = some m ∧ RecordOf d.node m e

def Observation.Describes (o : Observation) : Prop :=
  ∃ m, d.decode o.payload = some m ∧ o.bundleId = m.bundle.bundleId ∧
    o.rawKeys = [m.bundle.leftRawKey, m.bundle.rightRawKey] ∧ o.odomEpoch = m.tracking.odomEpoch

structure Queued (w : World) : Prop where
  increasing : w.submitted.Pairwise fun o o' => o.bundleId < o'.bundleId
  bounded : ∀ o ∈ w.submitted, 0 < o.bundleId ∧ o.bundleId ≤ w.delivery.lastEnqueuedId
  enqueued : 0 ≤ w.delivery.lastEnqueuedId
  queue : w.delivery.queue.map (·.observation) = w.submitted.drop w.delivery.acknowledged
  acknowledged : w.delivery.acknowledged ≤ w.submitted.length
  last : (w.delivery.acknowledged = 0 ∧ w.delivery.lastAckedId = 0) ∨
    ∃ o, w.submitted[w.delivery.acknowledged - 1]? = some o ∧ 0 < w.delivery.acknowledged ∧
      w.delivery.lastAckedId = o.bundleId

structure Agreed (w : World) : Prop where
  kept : Kept d.node w.node
  durable : Durable d.node w.node
  queued : Queued w
  sent : ∀ m ∈ w.sent, ∃ i, ∃ o, w.submitted[i]? = some o ∧ d.decode o.payload = some m ∧
    (i < w.delivery.acknowledged ∨ i = w.delivery.acknowledged ∧ w.delivery.Sent)
  recorded : List.Forall₂ (Records d) (w.submitted.take w.node.records.length) w.node.records
  ahead : w.node.records.length ≤ w.delivery.acknowledged ∨
    w.node.records.length = w.delivery.acknowledged + 1 ∧ w.delivery.Sent
  acked : ∀ i < w.delivery.acknowledged, ∀ o, w.submitted[i]? = some o →
    ∃ e, w.node.records[i]? = some e ∧ e.1 = o.bundleId
  reached : w.delivery.acknowledged ≤ w.node.durable.length
  epoch : ∀ epoch, w.delivery.graphEpoch = some epoch → epoch = d.node.graphEpoch
  sound : (∀ o ∈ w.submitted, o.Describes d) → ∀ reason, w.delivery.failure = some reason → ¬Contradiction reason

end

section
variable {d : Deployment} {w w' : World}

theorem initial_agreed (d : Deployment) : Agreed d d.initial where
  kept := ⟨.nil, .nil, fun _ => ⟨rfl, rfl, rfl⟩⟩
  durable := ⟨⟨0, le_rfl, rfl⟩, fun _ => rfl, fun _ hs => (by cases hs)⟩
  queued := ⟨.nil, fun _ ho => (by cases ho), le_rfl, rfl, le_rfl, .inl ⟨rfl, rfl⟩⟩
  sent := fun _ hm => (by cases hm)
  recorded := .nil
  ahead := .inl le_rfl
  acked := fun i hi => absurd hi (Nat.not_lt_zero i)
  reached := le_rfl
  epoch := d.same_epoch
  sound := fun _ _ h => (by cases h)

variable {e : Int × RawRecord} {i : Nat}

theorem Agreed.record_at (h : Agreed d w) (he : w.node.records[i]? = some e) :
    ∃ o, w.submitted[i]? = some o ∧ Records d o e := by
  obtain ⟨hi, rfl⟩ := List.getElem?_eq_some_iff.mp he
  have size := h.recorded.length_eq
  have hi' : i < (w.submitted.take w.node.records.length).length := by omega
  have records := h.recorded.get hi' hi
  refine ⟨(w.submitted.take w.node.records.length)[i], ?_, records⟩
  rw [List.getElem_take]
  exact List.getElem?_eq_getElem _

theorem Agreed.new_at (h : Agreed d w) {m : AcceptedBundle} (hm : m ∈ w.sent) (new : New d.node w.node m e) :
    ∃ o, w.submitted[w.node.records.length]? = some o ∧ d.decode o.payload = some m ∧
      w.node.records.length = w.delivery.acknowledged ∧ w.delivery.Sent := by
  obtain ⟨i, o, ho, decoded, place⟩ := h.sent m hm
  have far : w.node.records.length ≤ i := by
    by_contra near
    have there := List.getElem?_eq_getElem (not_le.mp near)
    obtain ⟨o', ho', m', decoded', record⟩ := h.record_at there
    obtain rfl : o = o' := Option.some.inj (ho.symm.trans ho')
    obtain rfl : m = m' := Option.some.inj (decoded.symm.trans decoded')
    have less := new.later h.kept.ascending _ (List.getElem_mem (not_le.mp near))
    rw [record.id, new.record.id] at less
    omega
  have durable := durable_length h.durable
  have reached := h.reached
  rcases place with before | ⟨rfl, sent⟩
  · omega
  · have same : w.node.records.length = w.delivery.acknowledged := by omega
    exact ⟨o, same ▸ ho, decoded, same, sent⟩

theorem agreed_accepted {m : AcceptedBundle} {n : Node} (h : Agreed d w) (hm : m ∈ w.sent)
    (move : Move d.node m w.node n) : Agreed d { w with node := n } := by
  have kept := kept_move move h.kept
  have durable := durable_move move h.kept h.durable
  -- The records stay, or the one that is new is added.
  have grown : n.records = w.node.records ∨ ∃ e, n.records = w.node.records ++ [e] ∧ New d.node w.node m e := by
    cases move with
    | lose e engine poses reason live new => exact .inr ⟨e, @taken_records d.node w.node m e engine poses new h.kept, new⟩
    | commit e answer engine poses graph live new added made =>
      exact .inr ⟨e, @taken_records d.node w.node m e engine poses new h.kept, new⟩
    | _ => exact .inl rfl
  have size : w.node.durable.length ≤ n.durable.length := by
    cases move with
    | commit e answer engine poses graph live new added made =>
      have all := durable.complete live
      rw [all, nodesOf, List.length_map]
      have before := durable_length h.durable
      have records : _ = w.node.records ++ [e] := @taken_records d.node w.node m e engine poses new h.kept
      show _ ≤ (w.node.taken m e engine poses).records.length
      rw [records, List.length_append]
      omega
    | _ => exact le_rfl
  refine ⟨kept, durable, ⟨h.queued.increasing, h.queued.bounded, h.queued.enqueued, h.queued.queue,
    h.queued.acknowledged, h.queued.last⟩, h.sent, ?_, ?_, ?_, h.reached.trans size, h.epoch, h.sound⟩
  · show List.Forall₂ (Records d) (w.submitted.take n.records.length) n.records
    rcases grown with same | ⟨e, more, new⟩
    · rw [same]
      exact h.recorded
    · obtain ⟨o, ho, decoded, -, -⟩ := h.new_at hm new
      rw [more, List.length_append, List.length_singleton, List.take_add_one, ho]
      exact List.rel_append h.recorded (.cons ⟨m, decoded, new.record⟩ .nil)
  · show n.records.length ≤ _ ∨ _
    rcases grown with same | ⟨e, more, new⟩
    · rw [same]
      exact h.ahead
    · obtain ⟨o, -, -, here, sent⟩ := h.new_at hm new
      rw [more, List.length_append, here]
      exact .inr ⟨rfl, sent⟩
  · intro i hi o ho
    obtain ⟨e, he, same⟩ := h.acked i hi o ho
    refine ⟨e, ?_, same⟩
    show n.records[i]? = some e
    rcases grown with equal | ⟨e', more, -⟩
    · rw [equal]
      exact he
    · rw [more, List.getElem?_append_left (List.getElem?_eq_some_iff.mp he).1]
      exact he

theorem agreed_service {n : Node} (h : Agreed d w) (failed : n.failed = w.node.failed)
    (records : n.records = w.node.records) (processed : n.processed = w.node.processed)
    (odometry : n.engine.odometry = w.node.engine.odometry) (poses : n.poses = w.node.poses)
    (revisions : n.revisions = w.node.revisions) (published : n.published = w.node.published) :
    Agreed d { w with node := n } := by
  have same : n.durable = w.node.durable := by rw [Node.durable, Node.durable, revisions]
  have kept : Kept d.node n := by
    refine ⟨records ▸ h.kept.ascending, processed ▸ h.kept.processed, fun live => ?_⟩
    rw [processed, records, odometry, poses]
    exact h.kept.live (failed ▸ live)
  have durable : Durable d.node n := by
    refine durable_more h.durable (records.trans (List.append_nil _).symm) revisions published fun live => ?_
    rw [same, records]
    exact h.durable.complete (failed ▸ live)
  refine ⟨kept, durable, ⟨h.queued.increasing, h.queued.bounded, h.queued.enqueued, h.queued.queue,
    h.queued.acknowledged, h.queued.last⟩, h.sent, ?_, ?_, ?_, ?_, h.epoch, h.sound⟩
  · exact records ▸ h.recorded
  · exact records ▸ h.ahead
  · exact records ▸ h.acked
  · exact same ▸ h.reached

theorem agreed_close {closing : Closing} (h : Agreed d w) :
    Agreed d { w with node := w.node.closeSnapshot closing } := by
  apply agreed_service h
  all_goals
    unfold Node.closeSnapshot
    dsimp only
    split
    · rfl
    · split
      · rfl
      · cases closing <;> rfl

def Complains (s s' : Delivery) : Prop :=
  s' = s ∨ ∃ reason, ¬Contradiction reason ∧ s' = { s with failure := some reason }

theorem complains_fail {α : Type} {s : Delivery} {reason : String} (live : s.failure = none)
    (h : ¬Contradiction reason) : Complains s (s.fail (α := α) reason).2 := by
  refine .inr ⟨reason, h, ?_⟩
  rw [Delivery.fail, live]
  rfl

theorem agreed_fails {reason : String} (h : Agreed d w)
    (sound : (∀ o ∈ w.submitted, o.Describes d) → ¬Contradiction reason) :
    Agreed d { w with delivery := { w.delivery with failure := some reason } } := by
  refine ⟨h.kept, h.durable, ⟨h.queued.increasing, h.queued.bounded, h.queued.enqueued, h.queued.queue,
    h.queued.acknowledged, h.queued.last⟩, h.sent, h.recorded, h.ahead, h.acked, h.reached, h.epoch, ?_⟩
  intro describes reason' found
  obtain rfl : reason = reason' := Option.some.inj found
  exact sound describes

theorem agreed_complains {s : Delivery} (h : Agreed d w) (complains : Complains w.delivery s) :
    Agreed d { w with delivery := s } := by
  rcases complains with rfl | ⟨reason, harmless, rfl⟩
  · exact h
  · exact agreed_fails h fun _ => harmless

theorem ensureCapacity_does (c : Sender) (s : Delivery) :
    s.ensureCapacity c = (.ok (), s) ∨
      (∃ reason, (s.ensureCapacity c).1 = .error reason) ∧ Complains s (s.ensureCapacity c).2 := by
  unfold Delivery.ensureCapacity Delivery.alive
  split
  · exact .inr ⟨⟨_, rfl⟩, .inl rfl⟩
  · rename_i live
    split
    · exact .inr ⟨⟨_, rfl⟩, complains_fail live (by unfold Contradiction; decide)⟩
    · exact .inl rfl

theorem agreed_ensureCapacity (h : Agreed d w) :
    Agreed d { w with delivery := (w.delivery.ensureCapacity d.sender).2 } := by
  apply agreed_complains h
  rcases ensureCapacity_does d.sender w.delivery with ok | ⟨-, complains⟩
  · rw [ok]
    exact .inl rfl
  · exact complains

theorem agreed_enqueue {o : Observation} (h : Agreed d w) (valid : o.Valid w.delivery.lastEnqueuedId) :
    Agreed d { w with delivery := w.delivery.enqueue o, submitted := w.submitted ++ [o] } := by
  have later := valid.1
  have start := h.queued.enqueued
  have inside := h.queued.acknowledged
  have earlier {i : Nat} {p : Observation} (hp : w.submitted[i]? = some p) : (w.submitted ++ [o])[i]? = some p := by
    rw [List.getElem?_append_left (List.getElem?_eq_some_iff.mp hp).1]
    exact hp
  have size : w.node.records.length ≤ w.submitted.length := by
    have equal := h.recorded.length_eq
    rw [List.length_take] at equal
    omega
  have head (sent : w.delivery.Sent) : (w.delivery.enqueue o).Sent := by
    obtain ⟨item, rest, queue, first⟩ := sent
    exact ⟨item, rest ++ [{ observation := o }], by rw [Delivery.enqueue, queue, List.cons_append], first⟩
  refine ⟨h.kept, h.durable, ⟨?_, ?_, by show 0 ≤ o.bundleId; omega, ?_, ?_, ?_⟩, fun m hm => ?_, ?_, ?_,
    fun i hi p hp => ?_, h.reached, h.epoch, fun describes => h.sound fun p hp => ?_⟩
  · refine List.pairwise_append.mpr ⟨h.queued.increasing, List.pairwise_singleton _ _, fun p hp q hq => ?_⟩
    have bound := (h.queued.bounded p hp).2
    rw [List.mem_singleton.mp hq]
    omega
  · intro p hp
    show 0 < p.bundleId ∧ p.bundleId ≤ o.bundleId
    rcases List.mem_append.mp hp with hp | hp
    · have bound := h.queued.bounded p hp
      omega
    · rw [List.mem_singleton.mp hp]
      omega
  · show (w.delivery.queue ++ [({ observation := o } : Pending)]).map _ = (w.submitted ++ [o]).drop w.delivery.acknowledged
    rw [List.map_append, h.queued.queue, List.drop_append_of_le_length inside]
    rfl
  · show w.delivery.acknowledged ≤ (w.submitted ++ [o]).length
    rw [List.length_append]
    omega
  · rcases h.queued.last with none | ⟨p, hp, some⟩
    · exact .inl none
    · exact .inr ⟨p, earlier hp, some⟩
  · obtain ⟨i, p, hp, decoded, place⟩ := h.sent m hm
    refine ⟨i, p, earlier hp, decoded, ?_⟩
    rcases place with before | ⟨here, sent⟩
    · exact .inl before
    · exact .inr ⟨here, head sent⟩
  · show List.Forall₂ (Records d) ((w.submitted ++ [o]).take _) _
    rw [List.take_append_of_le_length size]
    exact h.recorded
  · rcases h.ahead with behind | ⟨ahead, sent⟩
    · exact .inl behind
    · exact .inr ⟨ahead, head sent⟩
  · have hi : i < w.delivery.acknowledged := hi
    have hp : (w.submitted ++ [o])[i]? = some p := hp
    rw [List.getElem?_append_left (by omega)] at hp
    exact h.acked i hi p hp
  · exact describes p (List.mem_append_left _ hp)

theorem agreed_submit (h : Agreed d w) (o : Observation) : Agreed d (w.submit d o) := by
  have capacity := ensureCapacity_does d.sender w.delivery
  unfold World.submit Delivery.submit
  rcases capacity with ok | ⟨⟨reason, raised⟩, complains⟩
  · rw [ok]
    dsimp only
    by_cases valid : o.Valid w.delivery.lastEnqueuedId
    · rw [if_pos valid]
      exact agreed_enqueue h valid
    · rw [if_neg valid]
      have live : w.delivery.failure = none := by
        cases hf : w.delivery.failure with
        | none => rfl
        | some reason => simp [Delivery.ensureCapacity, Delivery.alive, hf] at ok
      exact agreed_complains h (complains_fail (α := Unit) live (by unfold Contradiction; decide))
  · have form : w.delivery.ensureCapacity d.sender = (.error reason, (w.delivery.ensureCapacity d.sender).2) :=
      Prod.ext raised rfl
    rw [form]
    exact agreed_complains h complains

variable {item : Pending} {rest : List Pending}

theorem Agreed.head (h : Agreed d w) (queue : w.delivery.queue = item :: rest) :
    w.submitted[w.delivery.acknowledged]? = some item.observation ∧
      rest.map (·.observation) = w.submitted.drop (w.delivery.acknowledged + 1) := by
  have same := h.queued.queue
  rw [queue, List.map_cons] at same
  refine ⟨by rw [← List.head?_drop, ← same, List.head?_cons], ?_⟩
  rw [← List.tail_drop, ← same, List.tail_cons]

theorem agreed_send {now : Int} (h : Agreed d w) (queue : w.delivery.queue = item :: rest) : Agreed d
      { w with
        delivery := w.delivery.send item rest now
        sent := (d.decode item.observation.payload).toList ++ w.sent } := by
  have sent : (w.delivery.send item rest now).Sent := ⟨_, rest, rfl, rfl⟩
  have head := (h.head queue).1
  refine ⟨h.kept, h.durable, ⟨h.queued.increasing, h.queued.bounded, h.queued.enqueued, ?_,
    h.queued.acknowledged, h.queued.last⟩, fun m hm => ?_, h.recorded, ?_, h.acked, h.reached, h.epoch, h.sound⟩
  · have same := h.queued.queue
    rwa [queue] at same
  · rcases List.mem_append.mp hm with hm | hm
    · exact ⟨_, item.observation, head, Option.mem_toList.mp hm, .inr ⟨rfl, sent⟩⟩
    · obtain ⟨i, o, ho, decoded, place⟩ := h.sent m hm
      refine ⟨i, o, ho, decoded, ?_⟩
      rcases place with before | ⟨here, -⟩
      · exact .inl before
      · exact .inr ⟨here, sent⟩
  · rcases h.ahead with behind | ⟨ahead, -⟩
    · exact .inl behind
    · exact .inr ⟨ahead, sent⟩

theorem nextPayload_does (c : Sender) (s : Delivery) (now : Int) :
    (∃ item rest, s.queue = item :: rest ∧
      s.nextPayload c now = (.ok (some item.observation.payload), s.send item rest now)) ∨
    ∃ result s', s.nextPayload c now = (result, s') ∧ (∀ payload, result ≠ .ok (some payload)) ∧ Complains s s' := by
  unfold Delivery.nextPayload Delivery.alive
  cases live : s.failure with
  | some reason => exact .inr ⟨_, _, rfl, fun _ h => (by cases h), .inl rfl⟩
  | none =>
    dsimp only
    cases queue : s.queue with
    | nil => exact .inr ⟨_, _, rfl, fun _ h => (by cases h), .inl rfl⟩
    | cons item rest =>
      dsimp only
      split
      · have harmless : ¬Contradiction "GRAPH_ACK_TIMEOUT" := by unfold Contradiction; decide
        exact .inr ⟨_, _, rfl, fun _ h => (by cases h), complains_fail (α := Unit) live harmless⟩
      · split
        · exact .inr ⟨_, _, rfl, fun _ h => (by cases h), .inl rfl⟩
        · exact .inl ⟨item, rest, rfl, rfl⟩

theorem agreed_deliverGraph (h : Agreed d w) (now : Int) : Agreed d (w.deliverGraph d now) := by
  unfold World.deliverGraph
  rcases nextPayload_does d.sender w.delivery now with ⟨item, rest, queue, sends⟩ | ⟨result, s, sends, silent, complains⟩
  · rw [sends]
    exact agreed_send h queue
  · rw [sends]
    split
    · rename_i payload delivery same
      exact absurd (congrArg Prod.fst same) (silent payload)
    · rename_i result' delivery _ same
      have equal : s = delivery := congrArg Prod.snd same
      exact equal ▸ agreed_complains h complains

theorem Agreed.place (h : Agreed d w) {j : Nat} {o p : Observation} (ho : w.submitted[i]? = some o)
    (hp : w.submitted[j]? = some p) (le : o.bundleId ≤ p.bundleId) : i ≤ j := by
  by_contra after
  obtain ⟨hi, rfl⟩ := List.getElem?_eq_some_iff.mp ho
  obtain ⟨hj, rfl⟩ := List.getElem?_eq_some_iff.mp hp
  have less := List.pairwise_iff_getElem.mp h.queued.increasing j i hj hi (by omega)
  omega

variable {s : GraphSnapshot}

theorem Agreed.node_at (h : Agreed d w) (hs : s ∈ w.node.published) {n : GraphNode}
    (hn : n ∈ s.nodes) : ∃ i e, w.node.records[i]? = some e ∧ n = nodeOf e ∧ i < w.node.durable.length := by
  obtain ⟨-, k, room, nodes⟩ := h.durable.published s hs
  rw [nodes] at hn
  obtain ⟨e, he, rfl⟩ := List.mem_map.mp hn
  obtain ⟨i, hi, rfl⟩ := List.mem_take_iff_getElem.mp he
  exact ⟨i, _, List.getElem?_eq_getElem (by omega), rfl, by omega⟩

theorem Agreed.nodes_ascending (h : Agreed d w) (hs : s ∈ w.node.published) :
    s.nodes.Pairwise fun n n' => n.nodeId < n'.nodeId := by
  obtain ⟨-, k, -, nodes⟩ := h.durable.published s hs
  rw [nodes]
  exact List.pairwise_map.mpr (h.kept.ascending.sublist (List.take_sublist k _))

theorem Agreed.near (h : Agreed d w) (hi : i < w.node.durable.length) : i ≤ w.delivery.acknowledged := by
  have durable := durable_length h.durable
  rcases h.ahead with behind | ⟨ahead, -⟩
  · omega
  · omega

theorem Agreed.described (h : Agreed d w) (describes : ∀ o ∈ w.submitted, o.Describes d) (he : w.node.records[i]? = some e) :
    ∃ o, w.submitted[i]? = some o ∧ e.1 = o.bundleId ∧ e.2.odomEpoch = o.odomEpoch ∧
      o.rawKeys = [e.2.leftKey, e.2.rightKey] := by
  obtain ⟨o, ho, m, decoded, record⟩ := h.record_at he
  obtain ⟨m', decoded', id, keys, epoch⟩ := describes o (List.mem_of_getElem? ho)
  obtain rfl : m = m' := Option.some.inj (decoded.symm.trans decoded')
  exact ⟨o, ho, by rw [record.id, id], by rw [record.epoch, epoch], by rw [record.left, record.right, keys]⟩

theorem agreed_popleft (h : Agreed d w) (queue : w.delivery.queue = item :: rest) (he : w.node.records[i]? = some e)
    (room : i < w.node.durable.length) (same : e.1 = item.observation.bundleId) :
    Agreed d { w with delivery := w.delivery.popleft item.observation rest } := by
  obtain ⟨head, others⟩ := h.head queue
  have here : i = w.delivery.acknowledged := by
    have near := h.near room
    by_contra different
    obtain ⟨o, ho, -⟩ := h.record_at he
    obtain ⟨e', he', known⟩ := h.acked i (by omega) o ho
    obtain rfl : e = e' := Option.some.inj (he.symm.trans he')
    have far := h.place head ho (by omega)
    omega
  have inside := (List.getElem?_eq_some_iff.mp head).1
  have durable := durable_length h.durable
  refine ⟨h.kept, h.durable, ⟨h.queued.increasing, h.queued.bounded, h.queued.enqueued, others, inside,
    .inr ⟨_, head, Nat.succ_pos _, rfl⟩⟩, fun m hm => ?_, h.recorded, ?_, fun j hj o ho => ?_, ?_, h.epoch, h.sound⟩
  · obtain ⟨j, o, ho, decoded, place⟩ := h.sent m hm
    refine ⟨j, o, ho, decoded, .inl ?_⟩
    show j < w.delivery.acknowledged + 1
    rcases place with before | ⟨at_, -⟩
    · omega
    · omega
  · refine .inl ?_
    show _ ≤ w.delivery.acknowledged + 1
    rcases h.ahead with behind | ⟨ahead, -⟩
    · omega
    · exact ahead.le
  · have hj : j < w.delivery.acknowledged + 1 := hj
    by_cases before : j < w.delivery.acknowledged
    · exact h.acked j before o ho
    · have last : j = w.delivery.acknowledged := by omega
      have own : item.observation = o := Option.some.inj (head.symm.trans (last ▸ ho))
      exact ⟨e, by rw [last, ← here, he], by rw [same, own]⟩
  · show w.delivery.acknowledged + 1 ≤ w.node.durable.length
    omega

theorem Agreed.own_node (h : Agreed d w) (describes : ∀ o ∈ w.submitted, o.Describes d) (queue : w.delivery.queue = item :: rest)
    (hs : s ∈ w.node.published) {n : GraphNode} (hn : n ∈ s.nodes)
    (id : (n.bundleId : Int) = item.observation.bundleId) :
    w.delivery.Sent ∧ n.nodeId = item.observation.bundleId ∧ n.odomEpoch = item.observation.odomEpoch ∧
      n.rawKeys = item.observation.rawKeys := by
  obtain ⟨i, e, he, rfl, room⟩ := h.node_at hs hn
  obtain ⟨o, ho, key, epoch, keys⟩ := h.described describes he
  have positive := (h.queued.bounded o (List.mem_of_getElem? ho)).1
  have head := (h.head queue).1
  have key' : ((nodeOf e).bundleId : Int) = o.bundleId := by
    show ((e.1.toNat : Nat) : Int) = o.bundleId
    omega
  have after := h.place head ho (by omega)
  have near := h.near room
  obtain rfl : i = w.delivery.acknowledged := by omega
  obtain rfl : item.observation = o := Option.some.inj (head.symm.trans ho)
  have durable := durable_length h.durable
  refine ⟨?_, key, epoch, keys.symm⟩
  rcases h.ahead with behind | ⟨-, sent⟩
  · omega
  · exact sent

theorem agreed_compare (h : Agreed d w) (live : w.delivery.failure = none)
    (hs : s ∈ w.node.published) : Agreed d { w with delivery := (w.delivery.compare s).2 } := by
  unfold Delivery.compare
  split
  · exact h
  · rename_i item rest queue
    have head := (h.head queue).1
    dsimp only
    split
    · split
      · rename_i none_ more
        rw [Delivery.fail, live]
        refine agreed_fails h fun describes => ?_
        obtain ⟨n, hn, beyond⟩ := List.any_eq_true.mp more
        have beyond : item.observation.bundleId < n.bundleId := by simpa using beyond
        obtain ⟨i, e, he, rfl, room⟩ := h.node_at hs hn
        obtain ⟨o, ho, key, -⟩ := h.described describes he
        have beyond : item.observation.bundleId < ((e.1.toNat : Nat) : Int) := beyond
        have positive := (h.queued.bounded _ (List.mem_of_getElem? head)).1
        have after := h.place head ho (by omega)
        have near := h.near room
        obtain rfl : i = w.delivery.acknowledged := by omega
        obtain rfl : item.observation = o := Option.some.inj (head.symm.trans ho)
        omega
      · exact h
    · rename_i found more filtered
      have member : found ∈ s.nodes.filter fun n => (n.bundleId : Int) = item.observation.bundleId := by
        rw [filtered]
        exact List.mem_cons_self
      obtain ⟨hn, id⟩ := List.mem_filter.mp member
      have id : (found.bundleId : Int) = item.observation.bundleId := by simpa using id
      split
      · rename_i wrong
        rw [Delivery.fail, live]
        refine agreed_fails h fun describes _ => ?_
        obtain ⟨⟨item', rest', queue', sent⟩, key, epoch, keys⟩ := h.own_node describes queue hs hn id
        obtain ⟨rfl, rfl⟩ := List.cons.inj (queue.symm.trans queue')
        rcases wrong with unsent | several | other | other | other
        · rw [Option.isNone_iff_eq_none.mp unsent] at sent
          cases sent
        · obtain ⟨twin, hx⟩ := List.exists_mem_of_ne_nil more several
          have order := (h.nodes_ascending hs).filter fun n => (n.bundleId : Int) = item.observation.bundleId
          rw [filtered] at order
          have less := (List.pairwise_cons.mp order).1 twin hx
          have member : twin ∈ s.nodes.filter fun n => (n.bundleId : Int) = item.observation.bundleId := by
            rw [filtered]
            exact List.mem_cons_of_mem _ hx
          obtain ⟨hn', id'⟩ := List.mem_filter.mp member
          have key' := (h.own_node describes queue hs hn' (by simpa using id')).2.1
          omega
        · exact other key
        · exact other epoch
        · exact other (by rw [keys])
      · rename_i right
        obtain ⟨i, e, he, rfl, room⟩ := h.node_at hs hn
        refine agreed_popleft h queue he room ?_
        by_contra different
        exact right (.inr (.inr (.inl different)))

theorem agreed_graphAck (h : Agreed d w) (hs : s ∈ w.node.published) : Agreed d (w.graphAck d s) := by
  unfold World.graphAck Delivery.acknowledge Delivery.alive
  cases live : w.delivery.failure with
  | some reason => exact h
  | none =>
    dsimp only
    split
    · exact agreed_complains h (complains_fail (α := Bool) live (by unfold Contradiction; decide))
    · have own := (h.durable.published s hs).1
      have epoch : w.delivery.graphEpoch.getD s.graphEpoch = d.node.graphEpoch := by
        cases known : w.delivery.graphEpoch with
        | none => exact own
        | some epoch => exact h.epoch epoch known
      rw [epoch, if_neg (by rw [own]; exact fun h => h rfl)]
      have set : Agreed d { w with delivery := { w.delivery with graphEpoch := some d.node.graphEpoch } } :=
        ⟨h.kept, h.durable, ⟨h.queued.increasing, h.queued.bounded, h.queued.enqueued, h.queued.queue,
          h.queued.acknowledged, h.queued.last⟩, h.sent, h.recorded, h.ahead, h.acked, h.reached,
          fun _ same => (Option.some.inj same).symm, h.sound⟩
      have compared := agreed_compare set live hs
      simpa only [live] using compared

theorem agreed_step (step : Step d w w') (h : Agreed d w) : Agreed d w' := by
  cases step with
  | submit o => exact agreed_submit h o
  | ensureCapacity => exact agreed_ensureCapacity h
  | deliverGraph now => exact agreed_deliverGraph h now
  | accepted message s arrives => exact agreed_accepted h arrives (accepted_moves s)
  | graphAck s arrives => exact agreed_graphAck h arrives
  | pause => exact agreed_service h rfl rfl rfl rfl rfl rfl rfl
  | closeSnapshot closing => exact agreed_close h

/-- However messages are lost, delayed, duplicated and reordered: the graph has a first part of what was submitted, in
order, and processed no observation twice; what is acknowledged is durable in it; the queue holds the rest; and where
every observation describes its payload, the sender never finds the graph in contradiction to it. -/
theorem graph_follows (d : Deployment) (run : Path (Step d) d.initial w) :
    List.Forall₂ (Records d) (w.submitted.take w.node.records.length) w.node.records ∧
      w.node.processed.Nodup ∧
      w.delivery.acknowledged ≤ w.node.durable.length ∧
      (w.delivery.lastAckedId = 0 ∨ ∃ n ∈ w.node.durable, n.nodeId = w.delivery.lastAckedId) ∧
      w.delivery.acknowledged + w.delivery.queue.length = w.submitted.length ∧
      ((∀ o ∈ w.submitted, o.Describes d) → ∀ reason, w.delivery.failure = some reason → ¬Contradiction reason) := by
  have h : Agreed d w := run.keeps (fun _ _ => agreed_step) (initial_agreed d)
  refine ⟨h.recorded, h.kept.processed.imp fun more => ne_of_gt more, h.reached, ?_, ?_, h.sound⟩
  · rcases h.queued.last with ⟨-, none⟩ | ⟨o, ho, some, last⟩
    · exact .inl none
    · right
      obtain ⟨e, he, same⟩ := h.acked _ (by omega) o ho
      obtain ⟨k, hk, nodes⟩ := h.durable.durable
      have reached := h.reached
      have size : w.node.durable.length = k := by
        rw [nodes, nodesOf, List.length_map, List.length_take]
        omega
      refine ⟨nodeOf e, ?_, same.trans last.symm⟩
      rw [nodes]
      refine List.mem_map_of_mem (List.mem_of_getElem? (i := w.delivery.acknowledged - 1) ?_)
      rw [List.getElem?_take_of_lt (by omega)]
      exact he
  · have size := congrArg List.length h.queued.queue
    have inside := h.queued.acknowledged
    rw [List.length_map, List.length_drop] at size
    omega

end

theorem bench_run : Path (Step Bench.deployment) Bench.deployment.initial Bench.acknowledged := by
  have submitted : Step Bench.deployment Bench.deployment.initial Bench.submitted := .submit _
  have sent : Step Bench.deployment Bench.submitted Bench.sent := .deliverGraph _
  have recorded : Step Bench.deployment Bench.sent Bench.recorded := .accepted _ _ (by decide +kernel)
  have repeated : Step Bench.deployment Bench.recorded Bench.repeated := .accepted _ _ (by decide +kernel)
  have acknowledged : Step Bench.deployment Bench.repeated Bench.acknowledged := .graphAck _ (List.getLast_mem _)
  exact .tail (.tail (.tail (.tail (.single submitted) sent) recorded) repeated) acknowledged

theorem bench_graph_follows :
    Bench.acknowledged.delivery.acknowledged = 1 ∧ Bench.acknowledged.node.processed.Nodup ∧
      Bench.acknowledged.delivery.acknowledged ≤ Bench.acknowledged.node.durable.length := by
  have follows := graph_follows Bench.deployment bench_run
  exact ⟨by decide +kernel, follows.2.1, follows.2.2.1⟩

/-- However messages are lost and reordered: of two snapshots, one begins with the nodes of the other. -/
theorem snapshots_nested {w : World} (d : Deployment) (run : Path (Step d) d.initial w) :
    w.node.published.Pairwise fun s s' => s.nodes <+: s'.nodes ∨ s'.nodes <+: s.nodes := by
  have h : Agreed d w := run.keeps (fun _ _ => agreed_step) (initial_agreed d)
  refine List.pairwise_of_forall_mem_list fun s hs s' hs' => ?_
  obtain ⟨-, k, -, nodes⟩ := h.durable.published s hs
  obtain ⟨-, k', -, nodes'⟩ := h.durable.published s' hs'
  rw [nodes, nodes']
  exact (le_total k k').imp (fun le => (List.take_prefix_take_left le).map _) fun le => (List.take_prefix_take_left le).map _

theorem bench_snapshots_nested :
    Bench.acknowledged.node.published.Pairwise fun s s' => s.nodes <+: s'.nodes ∨ s'.nodes <+: s.nodes :=
  snapshots_nested Bench.deployment bench_run

end Smartwheel.Graph
