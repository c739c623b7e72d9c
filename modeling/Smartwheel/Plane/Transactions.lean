import Smartwheel.Plane.Session

/-! A request that is refused leaves the session as it was, and one that is accepted leaves a session that is saved; what
is computed belongs to the poses that are there. The file follows the session back only where nothing goes wrong after
it was replaced. -/
namespace Smartwheel.Plane
open Effect
open Effect.Program hiding pure bind

variable {δ : Type} {tools : Tools δ} {r : Request δ} {s s' : Session δ}

structure Outside (s s' : Session δ) : Prop where
  workspace : s'.workspace = s.workspace
  revision : s'.revision = s.revision
  sessionId : s'.sessionId = s.sessionId

theorem Outside.refl (s : Session δ) : Outside s s := ⟨rfl, rfl, rfl⟩

structure Derived (tools : Tools δ) (s : Session δ) : Prop where
  result : ∀ result, s.result = some result →
    ∃ observed, s.poses.mapM Pose.observation = some observed ∧ tools.solvePlanes observed = .ok result
  icp : ∀ refined, s.icp = some refined → ∃ result observed clouds, s.result = some result ∧
    s.poses.mapM Pose.observation = some observed ∧ s.poses.mapM (Pose.selected tools) = .ok clouds ∧
    tools.refinePlanesIcp observed clouds result.initial = .ok refined

def Request.Settles (r : Request δ) : Prop := r.directorySync = none ∧ r.storageAfter = none

/-! The pieces. -/

section
variable {α : Type} {J : Session δ → Prop}

theorem passes_keeps (what : String) : (passes what : Part δ Unit).Keeps J := Keeps.atomic fun _ h => h

theorem require_keeps (condition : Prop) [Decidable condition] (message : String) :
    (require condition message : Part δ Unit).Keeps J := Keeps.raiseIf

theorem returned_keeps (x : Except String α) : (returned x : Part δ α).Keeps J := by
  cases x with
  | ok a => exact Keeps.pure a
  | error reason => exact Keeps.raise reason

theorem sourceCheck_keeps (p : Pose δ) : (sourceCheck p).Keeps J :=
  Keeps.look.bind fun _ => Keeps.need.bind fun _ => (passes_keeps _).bind fun _ => Keeps.pure _

theorem observations_keeps : (observations : Part δ (List (Observation δ))).Keeps J := by
  refine Keeps.look.bind fun poses => (require_keeps _ _).bind fun _ => Keeps.collect fun p => ?_
  exact Keeps.need.bind fun _ => (sourceCheck_keeps p).bind fun _ => Keeps.pure _

theorem findPose_keeps (identity : Calibration.Value) : (findPose identity : Part δ (Pose δ)).Keeps J := by
  refine Keeps.look.bind fun found => ?_
  split
  · exact Keeps.pure _
  · exact Keeps.raise _

theorem fitPose_keeps (p : Pose δ) : (fitPose tools p).Keeps J := by
  have side : ∀ capture side, (fitSide tools capture p side).Keeps J := fun capture side =>
    Keeps.need.bind fun roi => (require_keeps _ _).bind fun _ => returned_keeps _
  refine (sourceCheck_keeps p).bind fun capture => ?_
  exact (side capture .left).bind fun left => (side capture .right).bind fun right =>
    (passes_keeps _).bind fun _ => Keeps.pure _

end

/-! An edit leaves the file and the revision alone. -/

section
variable (s)

theorem change_outside (f : Session δ → Session δ) (h : ∀ t, Outside t (f t)) :
    (change f : Part δ Unit).Keeps (Outside s) :=
  Keeps.change fun t ht => ⟨(h t).workspace.trans ht.workspace, (h t).revision.trans ht.revision,
    (h t).sessionId.trans ht.sessionId⟩

theorem changePose_outside (p : Pose δ) (f : Pose δ → Pose δ) : (changePose p f).Keeps (Outside s) :=
  change_outside s _ fun _ => ⟨rfl, rfl, rfl⟩

theorem importPose_outside [DecidableEq δ] : (importPose tools r).Keeps (Outside s) := by
  refine Keeps.look.bind fun poses => (require_keeps _ _).bind fun _ => Keeps.need.bind fun label =>
    Keeps.need.bind fun role => (require_keeps _ _).bind fun _ => Keeps.need.bind fun _ =>
    (returned_keeps _).bind fun capture => Keeps.look.bind fun captures => (require_keeps _ _).bind fun _ =>
    (require_keeps _ _).bind fun _ => (require_keeps _ _).bind fun _ => ?_
  refine (change_outside s _ ?_).bind fun _ => change_outside s _ ?_
  · exact fun _ => ⟨rfl, rfl, rfl⟩
  · exact fun _ => ⟨rfl, rfl, rfl⟩

theorem setRoi_outside (p : Pose δ) : (setRoi r p).Keeps (Outside s) := by
  refine Keeps.need.bind fun side => Keeps.bind ?_ fun roi => (changePose_outside s p _).bind fun _ =>
    changePose_outside s p _
  unfold givenRoi
  split
  · exact Keeps.pure _
  · exact Keeps.need.bind fun roi => (require_keeps _ _).bind fun _ => Keeps.pure _

theorem setRole_outside (p : Pose δ) : (setRole r p).Keeps (Outside s) :=
  Keeps.need.bind fun _ => changePose_outside s p _

theorem removePose_outside (p : Pose δ) : (removePose p).Keeps (Outside s) := by
  refine (change_outside s _ ?_).bind fun _ => Keeps.look.bind fun _ => (require_keeps _ _).bind fun _ =>
    change_outside s _ ?_
  · exact fun _ => ⟨rfl, rfl, rfl⟩
  · exact fun _ => ⟨rfl, rfl, rfl⟩

theorem setFit_outside (p : Pose δ) : (setFit tools r p).Keeps (Outside s) :=
  Keeps.need.bind fun _ => (fitPose_keeps p).bind fun _ => (changePose_outside s p _).bind fun _ =>
    changePose_outside s p _

end

/-! What is computed. -/

/-- From a session that stays as it is: what is returned, and that an error changes nothing. -/
abbrev Reads {α : Type} (x : Part δ α) (F : α → Prop) (s : Session δ) : Prop :=
  x.Runs False (fun _ => True) (fun a s' => s' = s ∧ F a) (fun _ s' => s' = s) s

section
variable {α β : Type} {F : α → Prop} {G : β → Prop}

theorem Reads.pure {a : α} (h : F a) : Reads (Pure.pure a : Part δ α) F s := Runs.pure ⟨rfl, h⟩

theorem Reads.bind {x : Part δ α} {k : α → Part δ β} (h : Reads x F s) (next : ∀ a, F a → Reads (k a) G s) :
    Reads (x >>= k) G s := by
  refine Runs.bind h ?_
  rintro a _ ⟨rfl, ha⟩
  exact next a ha

theorem Reads.passes (what : String) : Reads (passes what : Part δ Unit) (fun _ => True) s :=
  Runs.atomic ⟨rfl, trivial⟩ (fun _ => rfl) trivial

theorem Reads.look {f : Session δ → α} : Reads (Program.look f : Part δ α) (fun a => a = f s) s :=
  Runs.look ⟨rfl, rfl⟩

theorem Reads.require (condition : Prop) [Decidable condition] (message : String) :
    Reads (require condition message : Part δ Unit) (fun _ => condition) s :=
  Runs.raiseIf (fun _ => rfl) fun passed => ⟨rfl, not_not.mp passed⟩

theorem Reads.need {o : Option α} {message : String} :
    Reads (Program.need o message : Part δ α) (fun a => o = some a) s :=
  Runs.need (fun _ found => ⟨rfl, found⟩) fun _ => rfl

theorem Reads.returned {x : Except String α} : Reads (returned x : Part δ α) (fun a => x = .ok a) s := by
  cases x with
  | ok a => exact Runs.pure ⟨rfl, rfl⟩
  | error reason => exact Runs.raise rfl

/-- What `body` says of each is what the list says. -/
theorem Reads.collect {body : β → Part δ α} {f : β → Option α} (h : ∀ b, Reads (body b) (fun a => f b = some a) s)
    (list : List β) : Reads (Program.collect body list) (fun found => list.mapM f = some found) s := by
  induction list with
  | nil => exact Reads.pure rfl
  | cons b rest ih =>
    refine Reads.bind (h b) fun a here => ih.bind fun others there => Reads.pure ?_
    simp [here, there]

end

theorem sourceCheck_reads (p : Pose δ) : Reads (sourceCheck p) (fun _ => True) s :=
  Reads.look.bind fun _ _ => Reads.need.bind fun _ _ => (Reads.passes _).bind fun _ _ => Reads.pure trivial

theorem observations_reads :
    Reads (observations : Part δ (List (Observation δ))) (fun observed => s.poses.mapM Pose.observation = some observed) s := by
  refine Reads.look.bind ?_
  rintro _ rfl
  refine (Reads.require _ _).bind fun _ _ => Reads.collect (fun p => ?_) s.poses
  exact Reads.need.bind fun observation here => (sourceCheck_reads p).bind fun _ _ => Reads.pure here

/-- What an action ends with: an accepted one that is no edit has derived values, and both leave the file alone. -/
abbrev Acts {α : Type} (tools : Tools δ) (x : Part δ α) (s : Session δ) : Prop :=
  x.Runs False (fun _ => True) (fun _ s' => Outside s s' ∧ Derived tools s') (fun _ s' => Outside s s') s

theorem Reads.then {α β : Type} {x : Part δ α} {F : α → Prop} {k : α → Part δ β} (h : Reads x F s)
    (next : ∀ a, F a → Acts tools (k a) s) : Acts tools (x >>= k) s := by
  refine Runs.bind (h.weaken (fun _ h => h) (fun _ _ h => h) fun _ _ same => same ▸ .refl _) ?_
  rintro a _ ⟨rfl, ha⟩
  exact next a ha

theorem solve_acts (tools : Tools δ) (s : Session δ) : Acts tools (solve tools) s := by
  refine observations_reads.then fun observed seen => Reads.returned.then fun result solved => ?_
  refine Runs.change_bind (Runs.change ⟨⟨rfl, rfl, rfl⟩, ?_, ?_⟩)
  · rintro _ ⟨⟩
    exact ⟨observed, seen, solved⟩
  · rintro _ ⟨⟩

theorem icp_acts (d : Derived tools s) : Acts tools (icp tools) s := by
  refine Reads.look.then ?_
  rintro _ rfl
  refine Reads.need.then fun result current => observations_reads.then fun observed seen => Reads.look.then ?_
  rintro _ rfl
  refine Reads.returned.then fun clouds selected => Reads.returned.then fun refined computed => ?_
  have there : s.result = some result := (Option.filter_eq_some_iff.mp current).1
  refine Runs.change ⟨⟨rfl, rfl, rfl⟩, d.result, ?_⟩
  rintro _ ⟨⟩
  exact ⟨result, observed, clouds, there, seen, selected, computed⟩

/-- What `save` changes is its exports. -/
structure Exporting (s s' : Session δ) : Prop extends Outside s s' where
  poses : s'.poses = s.poses
  result : s'.result = s.result
  icp : s'.icp = s.icp

theorem Exporting.derived (e : Exporting s s') (d : Derived tools s) : Derived tools s' := by
  refine ⟨fun result there => ?_, fun refined there => ?_⟩
  · rw [e.poses]
    exact d.result result (e.result ▸ there)
  · rw [e.poses, e.result]
    exact d.icp refined (e.icp ▸ there)

theorem Exporting.exports {e : Exporting s s'} (exports : List (Export δ)) : Exporting s { s' with exports } :=
  ⟨⟨e.workspace, e.revision, e.sessionId⟩, e.poses, e.result, e.icp⟩

theorem writeExport_keeps (name : String) (f : Session δ → Export δ → Export δ) :
    (writeExport name f).Keeps (Exporting s) := by
  refine Keeps.attempt (fun t e => e.exports _) fun way t e => ?_
  split
  · exact e
  · exact e.exports _

theorem save_acts (d : Derived tools s) : Acts tools (save r) s := by
  have keeps : (save r).Keeps (Exporting s) := by
    refine Keeps.look.bind fun _ => (require_keeps _ _).bind fun _ => observations_keeps.bind fun _ =>
      (passes_keeps _).bind fun _ => (Keeps.atomic fun t e => e.exports _).bind fun _ => observations_keeps.bind fun _ => ?_
    exact (writeExport_keeps _ _).bind fun _ => (passes_keeps _).bind fun _ => observations_keeps.bind fun _ =>
      writeExport_keeps _ _
  exact (keeps s ⟨.refl s, rfl, rfl, rfl⟩).weaken (fun _ _ => trivial) (fun _ _ e => ⟨e.toOutside, e.derived d⟩)
    fun _ _ e => e.toOutside

/-! The action, the file and the handler. -/

def Acted (tools : Tools δ) (r : Request δ) (s s' : Session δ) : Prop := Outside s s' ∧ (edits r.action ∨ Derived tools s')

theorem act_spec [DecidableEq δ] (d : Derived tools s) :
    (act tools r).Runs False (fun _ => True) (fun _ => Acted tools r s) (fun _ => Outside s) s := by
  have edit {x : Part δ Unit} (keeps : x.Keeps (Outside s)) (is : edits r.action) :
      (x >>= fun _ => (pure none : Part δ (Option String))).Runs False (fun _ => True) (fun _ => Acted tools r s)
        (fun _ => Outside s) s :=
    ((keeps.bind fun _ => Keeps.pure none) s (.refl s)).weaken (fun _ _ => trivial) (fun _ _ e => ⟨e, .inl is⟩) fun _ _ e => e
  have derive {x : Part δ Unit} {saved : Option String} (acts : Acts tools x s) :
      (x >>= fun _ => (pure saved : Part δ (Option String))).Runs False (fun _ => True) (fun _ => Acted tools r s)
        (fun _ => Outside s) s :=
    Runs.bind acts fun _ _ h => Runs.pure ⟨h.1, .inr h.2⟩
  have onPose {x : Pose δ → Part δ Unit} (keeps : ∀ p, (x p).Keeps (Outside s)) (is : edits r.action) :
      (findPose (r.body.get "pose_id") >>= fun p => x p >>= fun _ => (pure none : Part δ (Option String))).Runs False
        (fun _ => True) (fun _ => Acted tools r s) (fun _ => Outside s) s :=
    (((findPose_keeps _).bind fun p => (keeps p).bind fun _ => Keeps.pure none) s (.refl s)).weaken (fun _ _ => trivial)
      (fun _ _ e => ⟨e, .inl is⟩) fun _ _ e => e
  unfold act
  split
  · rename_i is
    exact edit (importPose_outside s) (by simp [edits, is])
  · rename_i is
    exact onPose (setRoi_outside s) (by simp [edits, is])
  · rename_i is
    exact onPose (setRole_outside s) (by simp [edits, is])
  · rename_i is
    exact onPose (removePose_outside s) (by simp [edits, is])
  · rename_i is
    exact onPose (setFit_outside s) (by simp [edits, is])
  · exact derive (solve_acts tools s)
  · exact derive (icp_acts d)
  · exact derive (save_acts d)
  · exact Runs.raise (.refl s)

theorem persist_spec (s : Session δ) :
    (persist r).Runs False (fun _ => True) (fun _ s' => s' = { s with workspace := some s.manifest })
      (fun _ s' => s' = s ∨ ¬r.Settles ∧ s' = { s with workspace := some s.manifest }) s := by
  have check {k : Unit → Part δ Unit} (what : String)
      (next : (k ()).Runs False (fun _ => True) (fun _ s' => s' = { s with workspace := some s.manifest })
        (fun _ s' => s' = s ∨ ¬r.Settles ∧ s' = { s with workspace := some s.manifest }) s) :
      (passes what >>= k).Runs False (fun _ => True) (fun _ s' => s' = { s with workspace := some s.manifest })
        (fun _ s' => s' = s ∨ ¬r.Settles ∧ s' = { s with workspace := some s.manifest }) s :=
    Runs.atomic_bind next (fun _ => .inl rfl) trivial
  refine check _ (check _ (check _ (Runs.atomic_bind ?_ (fun _ => .inl rfl) trivial)))
  cases sync : r.directorySync with
  | some reason => exact Runs.raise (.inr ⟨fun settles => by simp [settles.1] at sync, rfl⟩)
  | none =>
    cases storage : r.storageAfter with
    | some reason => exact Runs.raise (.inr ⟨fun settles => by simp [settles.2] at storage, rfl⟩)
    | none => exact Runs.pure rfl

structure Saved (tools : Tools δ) (s s' : Session δ) : Prop where
  revision : s'.revision = s.revision + 1
  workspace : s'.workspace = some s'.manifest
  derived : Derived tools s'

structure Undone (r : Request δ) (s s' : Session δ) : Prop where
  sessionId : s'.sessionId = s.sessionId
  workspace : r.Settles → s'.workspace = s.workspace

theorem Outside.undone (e : Outside s s') : Undone r s s' := ⟨e.sessionId, fun _ => e.workspace⟩

theorem transact_spec [DecidableEq δ] (d : Derived tools s) :
    (transact tools r).Runs False (fun _ => True) (fun _ => Saved tools s) (fun _ => Undone r s) s := by
  refine Runs.bind ((act_spec d).weaken (fun _ h => h) (fun _ _ h => h) fun _ _ e => e.undone) ?_
  rintro saved t ⟨outside, either⟩
  have reset : (forget r).Runs False (fun _ => True) (fun _ u => Outside s u ∧ Derived tools u) (fun _ => Undone r s) t := by
    refine Runs.when (fun _ => Runs.change ⟨⟨outside.workspace, outside.revision, outside.sessionId⟩, ?_⟩) fun other =>
      ⟨outside, either.resolve_left other⟩
    exact ⟨fun _ h => (nomatch h), fun _ h => (nomatch h)⟩
  refine Runs.bind reset ?_
  rintro - u ⟨outside, derived⟩
  refine Runs.change_bind (Runs.bind ((persist_spec _).weaken (fun _ h => h) (fun _ _ h => h) ?_) ?_)
  · rintro - v (rfl | ⟨late, rfl⟩)
    · exact ⟨outside.sessionId, fun _ => outside.workspace⟩
    · exact ⟨outside.sessionId, fun settles => absurd settles late⟩
  · rintro - v rfl
    exact Runs.pure ⟨congrArg (· + 1) outside.revision, rfl, derived.result, derived.icp⟩

def Refused (r : Request δ) (s s' : Session δ) : Prop :=
  (∃ workspace exports, s' = { s with workspace, exports }) ∧ (r.Settles → s'.workspace = s.workspace)

theorem mutate_spec [DecidableEq δ] (d : Derived tools s) :
    (mutate tools r).Runs False (fun _ => True) (fun _ s' => r.revision = some s.revision ∧ Saved tools s s')
      (fun _ => Refused r s) s := by
  have still : Refused r s s := ⟨⟨s.workspace, s.exports, rfl⟩, fun _ => rfl⟩
  refine Runs.look_bind (Runs.raiseIf_bind (fun _ => still) fun named => ?_)
  refine Runs.atomic_bind (Runs.look_bind ?_) (fun _ => still) trivial
  refine Runs.handle ((transact_spec d).weaken (fun _ h => h) (fun _ _ h => ⟨not_not.mp named, h⟩) fun _ _ h => h) ?_
  intro reason t undone
  refine Runs.change_bind (Runs.raise ⟨⟨t.workspace, t.exports, ?_⟩, undone.workspace⟩)
  simp [Session.restore, undone.sessionId]

/-! Runs. -/

/-- Requests that follow each other, each of a kind, from a session that was opened: the revisions at which they were
accepted, and what there is now. A process that is killed takes no more. -/
inductive Run [DecidableEq δ] (tools : Tools δ) (kind : Request δ → Prop) (s₀ : Session δ) : List ℤ → Session δ → Prop
  | start : Run tools kind s₀ [] s₀
  | refused {accepted : List ℤ} {s : Session δ} {r : Request δ} {fates : List Fate} {reason : String}
      {h : Host (Session δ)} : Run tools kind s₀ accepted s → kind r → mutate tools r ⟨s, fates⟩ = (.raised reason, h) →
      Run tools kind s₀ accepted h.state
  | accepted {accepted : List ℤ} {s : Session δ} {r : Request δ} {fates : List Fate} {saved : Option String}
      {h : Host (Session δ)} : Run tools kind s₀ accepted s → kind r → mutate tools r ⟨s, fates⟩ = (.value saved, h) →
      Run tools kind s₀ (accepted ++ [s.revision]) h.state

theorem mutate_raised [DecidableEq δ] (d : Derived tools s) {fates : List Fate} {reason : String}
    {h : Host (Session δ)} (ends : mutate tools r ⟨s, fates⟩ = (.raised reason, h)) : Refused r s h.state := by
  have last := (mutate_spec (r := r) d fates fun no => no.elim).2
  rw [ends] at last
  exact last

theorem mutate_value [DecidableEq δ] (d : Derived tools s) {fates : List Fate} {saved : Option String}
    {h : Host (Session δ)} (ends : mutate tools r ⟨s, fates⟩ = (.value saved, h)) :
    r.revision = some s.revision ∧ Saved tools s h.state := by
  have last := (mutate_spec (r := r) d fates fun no => no.elim).2
  rw [ends] at last
  exact last

structure Settled (tools : Tools δ) (accepted : List ℤ) (s : Session δ) : Prop where
  workspace : s.workspace = some s.manifest
  derived : Derived tools s
  ordered : accepted.Pairwise (· < ·)
  below : ∀ n ∈ accepted, n < s.revision

theorem Refused.same (h : Refused r s s') (settles : r.Settles) : ∃ exports, s' = { s with exports } := by
  obtain ⟨⟨workspace, exports, rfl⟩, kept⟩ := h
  exact ⟨exports, by rw [← kept settles]⟩

theorem run_settled [DecidableEq δ] {s₀ : Session δ} (start : Settled tools [] s₀) {accepted : List ℤ}
    (run : Run tools Request.Settles s₀ accepted s) : Settled tools accepted s := by
  induction run with
  | start => exact start
  | refused _ settles ends ih =>
    obtain ⟨exports, same⟩ := (mutate_raised ih.derived ends).same settles
    rw [same]
    exact ⟨ih.workspace, ⟨ih.derived.result, ih.derived.icp⟩, ih.ordered, ih.below⟩
  | accepted _ _ ends ih =>
    obtain ⟨-, saved⟩ := mutate_value ih.derived ends
    refine ⟨saved.workspace, saved.derived, ?_, fun n hn => ?_⟩
    · refine List.pairwise_append.mpr ⟨ih.ordered, List.pairwise_singleton .., fun n hn m hm => ?_⟩
      rw [List.mem_singleton.mp hm]
      exact ih.below n hn
    · rw [saved.revision]
      rcases List.mem_append.mp hn with hn | hn
      · have := ih.below n hn
        omega
      · rw [List.mem_singleton.mp hn]
        omega

def benchTools : Tools ℕ where
  hash _ _ := "hash"
  fitSide _ _ _ _ := .ok 1
  solvePlanes _ := .ok ⟨"CANDIDATE", 2, 3⟩
  inliers _ _ := .ok 4
  refinePlanesIcp _ _ _ := .ok 5

end Smartwheel.Plane
