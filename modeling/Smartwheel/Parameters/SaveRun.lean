import Smartwheel.Parameters.Writing

/-! A save, whichever of its operations on files fails. -/
namespace Smartwheel.Parameters
open Effect
open Effect.Trial (operate examine alter peek lift forEach gather Decides Ends Stays Clear)
open Smartwheel.Calibration (Value Fields)
open Smartwheel.Profiles (Name files mem_files)

/-! ### What an edit keeps -/

variable {fields : Fields}

theorem lookup_setItem_ne {key other : String} (value : Value) (different : other ≠ key) :
    (setItem fields key value).lookup other = fields.lookup other := by
  unfold setItem
  split
  · induction fields with
    | nil => rfl
    | cons f rest ih =>
      obtain ⟨name, v⟩ := f
      have tail : (List.map (fun f : String × Value => if f.1 == key then (key, value) else f) rest).lookup other = rest.lookup other := by
        by_cases there : (rest.any fun f => f.1 == key) = true
        · exact ih there
        · have same : List.map (fun f : String × Value => if f.1 == key then (key, value) else f) rest = rest := by
            refine (List.map_congr_left fun f inside => ?_).trans (List.map_id' rest)
            have no : ¬(f.1 == key) = true := fun yes => there (List.any_eq_true.mpr ⟨f, inside, yes⟩)
            rw [if_neg no]
          rw [same]
      rw [List.map_cons]
      by_cases here : (name == key) = true
      · have same : name = key := beq_iff_eq.mp here
        rw [if_pos here, List.lookup_cons, List.lookup_cons, same, beq_eq_false_iff_ne.mpr different]
        exact tail
      · rw [if_neg here, List.lookup_cons, List.lookup_cons, tail]
  · rw [List.lookup_append]
    simp [List.lookup_cons, beq_eq_false_iff_ne.mpr different]

def Sourced (setup : Value) : Prop := ∃ names, snapshotPaths setup = .ok names

theorem snapshotPaths_object (fields : Fields) : snapshotPaths (.object fields) =
    iterate ((fields.lookup "source_documents").getD (.list [])) >>= fun items => items.mapM documentPath := rfl

theorem sourced_congr {fields' : Fields} (same : fields'.lookup "source_documents" = fields.lookup "source_documents")
    (h : Sourced (.object fields)) : Sourced (.object fields') := by
  obtain ⟨names, made⟩ := h
  refine ⟨names, ?_⟩
  rw [snapshotPaths_object, same, ← snapshotPaths_object]
  exact made

structure Sound (configs : Name → Value) : Prop where
  sources : Sourced (configs .setup)
  mapping : ∃ fields, configs .mapping = .object fields

structure Edited (configs : Name → Value) (e : Edit) : Prop where
  sound : Sound e.configs
  same : ∀ name, name ∉ e.changed → e.configs name = configs name

theorem fieldsOf_ok {v : Value} (h : fieldsOf v = .ok fields) : v = .object fields := by
  cases v with
  | object f => exact congrArg _ (Except.ok.inj h)
  | _ => cases h

section groups
variable {configs : Name → Value} {value : Value} {e : Edit}

theorem setConfig_same (fields : Fields) (name other : Name) (different : other ≠ name) :
    setConfig configs name fields other = configs other := Function.update_of_ne different ..

theorem setConfig_self (fields : Fields) (name : Name) : setConfig configs name fields name = .object fields := Function.update_self ..

theorem lookup_setItem {key : String} (value : Value) : (setItem fields key value).lookup key = some value := by
  unfold setItem
  split
  · next there =>
    induction fields with
    | nil => cases there
    | cons f rest ih =>
      obtain ⟨name, v⟩ := f
      rw [List.map_cons]
      by_cases here : (name == key) = true
      · rw [if_pos here, List.lookup_cons_self]
      · rw [if_neg here, List.lookup_cons, beq_eq_false_iff_ne.mpr fun same => here (beq_iff_eq.mpr same.symm)]
        rw [List.any_cons, Bool.eq_false_iff.mpr here, Bool.false_or] at there
        exact ih there
  · next absent =>
    have none_ : fields.lookup key = none := by
      refine List.lookup_eq_none_iff.mpr fun f inside => ?_
      rw [bne_iff_ne]
      exact fun same => absent (List.any_eq_true.mpr ⟨f, inside, beq_iff_eq.mpr same.symm⟩)
    rw [List.lookup_append, none_, List.lookup_cons_self]
    rfl

theorem setup_edited (sound : Sound configs) (sourced : Sourced (.object fields)) :
    Edited configs ⟨setConfig configs .setup fields, [.setup]⟩ := by
  refine ⟨⟨?_, ?_⟩, fun name other => setConfig_same _ _ _ (by simpa using other)⟩
  · change Sourced (setConfig configs .setup fields .setup)
    rw [setConfig_self]
    exact sourced
  · change ∃ f, setConfig configs .setup fields .mapping = _
    rw [setConfig_same _ _ _ (by decide)]
    exact sound.mapping

theorem mapping_edited (sound : Sound configs) (fields : Fields) :
    Edited configs ⟨setConfig configs .mapping fields, [.mapping]⟩ := by
  have self : setConfig configs .mapping fields .mapping = .object fields := setConfig_self ..
  refine ⟨⟨?_, fields, self⟩, fun name other => setConfig_same _ _ _ (by simpa using other)⟩
  change Sourced (setConfig configs .mapping fields .setup)
  rw [setConfig_same _ _ _ (by decide)]
  exact sound.sources

theorem all_edited {setup mapping cameras : Fields} (sourced : Sourced (.object setup)) :
    Edited configs ⟨setConfig (setConfig (setConfig configs .cameras cameras) .setup setup) .mapping mapping, files⟩ := by
  have self : setConfig (setConfig (setConfig configs .cameras cameras) .setup setup) .mapping mapping .mapping = .object mapping :=
    setConfig_self ..
  refine ⟨⟨?_, mapping, self⟩, fun name other => absurd (mem_files name) other⟩
  change Sourced (setConfig (setConfig (setConfig configs .cameras cameras) .setup setup) .mapping mapping .setup)
  rw [setConfig_same _ _ _ (by decide), setConfig_self]
  exact sourced

theorem wheels_edited (sound : Sound configs) (h : wheels configs value = .ok e) : Edited configs e := by
  unfold wheels at h
  obtain ⟨setup, read, h⟩ := bind_eq_ok h
  have here := fieldsOf_ok read
  cases value with
  | object fields =>
    simp only [bind_eq_ok_iff] at h
    obtain ⟨_, -, _, -, _, -, odometry, -, h⟩ := h
    cases h
    have before := sound.sources
    rw [here] at before
    exact setup_edited sound (sourced_congr (lookup_setItem_ne _ (by decide)) before)
  | _ => cases h

theorem display_edited (sound : Sound configs) (h : display configs value = .ok e) : Edited configs e := by
  unfold display at h
  obtain ⟨setup, read, h⟩ := bind_eq_ok h
  have here := fieldsOf_ok read
  obtain ⟨mapping, _, h⟩ := bind_eq_ok h
  obtain ⟨cameras, _, h⟩ := bind_eq_ok h
  cases value with
  | object fields =>
    simp only [bind_eq_ok_iff] at h
    obtain ⟨_, -, _, -, _, -, _, -, _, -, _, -, _, -, _, -, _, -, _, -, _, -, h⟩ := h
    cases h
    have before := sound.sources
    rw [here] at before
    exact all_edited (sourced_congr (lookup_setItem_ne _ (by decide)) before)
  | _ => cases h

theorem algorithms_edited {env : Validators} (sound : Sound configs) (h : algorithms env configs value = .ok e) : Edited configs e := by
  unfold algorithms at h
  simp only [bind_eq_ok_iff] at h
  obtain ⟨mapping, -, fields, -, _, -, _, -, _, -, _, -, _, -, _, -, _, -, _, -, _, -, _, -, _, -, h⟩ := h
  cases h
  exact mapping_edited sound _

theorem appendSource_sourced {setup setup' : Fields} {source : Source} (sourced : Sourced (.object setup))
    (h : appendSource setup source = .ok setup') : Sourced (.object setup') := by
  unfold appendSource at h
  obtain ⟨documents, read, h⟩ := bind_eq_ok h
  have there : setup.lookup "source_documents" = some documents := by
    unfold item at read
    split at read
    · next v found => exact found.trans (congrArg some (Except.ok.inj read))
    · cases read
  cases documents with
  | list items =>
    cases h
    obtain ⟨names, made⟩ := sourced
    rw [snapshotPaths_object, there] at made
    refine ⟨names ++ [source.snapshotPath], ?_⟩
    rw [snapshotPaths_object, lookup_setItem]
    change (items ++ [source.document]).mapM documentPath = _
    rw [List.mapM_append]
    exact bind_of_ok made rfl
  | _ => cases h

end groups

/-! ### The steps of a save -/

section steps
variable {env : Env} {failing : Option (Site × ℕ)} {w₀ w : World} {r : Request}

/-- An error of a part leaves the world. -/
abbrev Reads (failing : Option (Site × ℕ)) {α : Type} (x : Act α) (Q : α → Prop) (w : World) : Prop :=
  Ends failing x (fun a w' => w' = w ∧ Q a) (fun _ w' => w' = w) w

theorem Decides.reads {α : Type} {x : Act α} {P : Prop} {Q : α → Prop} (h : Decides failing P x Q w) : Reads failing x Q w :=
  Ends.weaken h (fun _ _ last => ⟨last.1, last.2.1⟩) fun _ _ last => last.1

theorem Stays.reads {α : Type} {x : Act α} (h : ∀ J : World → Prop, Stays J x) : Reads failing x (fun _ => True) w :=
  (h (fun w' => w' = w) failing w rfl).weaken (fun _ _ last => ⟨last, trivial⟩) fun _ _ last => last

theorem Reads.bind {α β : Type} {x : Act α} {k : α → Act β} {Q : α → Prop} {G : β → Prop} (h : Reads failing x Q w)
    (next : ∀ a, Q a → Reads failing (k a) G w) : Reads failing (x >>= k) G w :=
  Ends.bind h fun a _ last => last.1 ▸ next a last.2

theorem importEvidence_reads {revision : String} {transforms : List Value} {token : String} :
    Reads failing (importEvidence env r revision transforms token) (fun _ => True) w :=
  Stays.reads fun _ => Stays.peek.bind fun _ => Stays.need.bind fun _ => Stays.raiseIf.bind fun _ => Stays.lift.bind fun _ =>
    Stays.raiseIf.bind fun _ => ordinary_stays.bind fun _ => fetch_stays.bind fun _ => Stays.raiseIf.bind fun _ => Stays.pure _

theorem importAll_reads {revision : String} {transforms : List Value} (tokens : List String) (setup : Fields) (sourced : Sourced (.object setup)) :
    Reads failing (importAll env r revision transforms tokens setup) (fun result => Sourced (.object result.1)) w := by
  induction tokens generalizing setup with
  | nil => exact Ends.pure ⟨rfl, sourced⟩
  | cons token rest ih =>
    refine Reads.bind importEvidence_reads fun imported _ => ?_
    refine Reads.bind (Decides.reads Decides.lift) fun setup' made => ?_
    exact Reads.bind (ih setup' (appendSource_sourced sourced made)) fun others known => Ends.pure ⟨rfl, known⟩

theorem edit_reads {s : Snapshot} {tokens : List String} (sound : Sound s.configs) :
    Reads failing (edit env r s tokens) (fun made => Edited s.configs made.1 ∧ (made.2.2.isSome → made.1.changed = [.mapping])) w := by
  unfold edit
  split
  · refine Reads.bind (Decides.reads Decides.lift) fun setup read => ?_
    refine Reads.bind (Decides.reads Decides.lift) fun transforms _ => ?_
    refine Reads.bind (Stays.reads fun _ => verifySources_stays) fun _ _ => ?_
    have before := sound.sources
    rw [fieldsOf_ok read] at before
    refine Reads.bind (importAll_reads tokens _ (sourced_congr (lookup_setItem_ne _ (by decide)) before)) fun result sourced => ?_
    exact Ends.pure ⟨rfl, setup_edited sound sourced, fun live => by cases live⟩
  · split
    · exact Reads.bind (Decides.reads Decides.lift) fun e made => Ends.pure ⟨rfl, wheels_edited sound made, fun live => by cases live⟩
    · split
      · exact Reads.bind (Decides.reads Decides.lift) fun e made =>
          Ends.pure ⟨rfl, display_edited sound made, fun live => by cases live⟩
      · split
        · exact Reads.bind (Decides.reads Decides.lift) fun e made =>
            Ends.pure ⟨rfl, algorithms_edited sound made, fun live => by cases live⟩
        · split
          · refine Reads.bind (Stays.reads fun _ => touch_stays) fun _ _ => Reads.bind (Stays.reads fun _ => Stays.peek) fun d _ => ?_
            refine Reads.bind (Decides.reads Decides.lift) fun live _ => Ends.pure ⟨rfl, ⟨sound, fun _ _ => rfl⟩, fun _ => rfl⟩
          · exact Ends.raise rfl

structure Planned (env : Env) (w₀ : World) (r : Request) (plan : Plan) : Prop where
  ready : Ready env w₀ plan
  sound : ∃ configs, (∀ name, env.loads (plan.encoded name) = .ok (configs name)) ∧ Sound configs
  receipt : w₀.disk.parentLinked (.inside (.backup r.directory) "revision.json") = false

theorem Readable.sound {s : Snapshot} (readable : Readable env w.disk) (taken : Taken env w.disk s) : Sound s.configs := by
  obtain ⟨names, made⟩ := readable.documents _ _ (taken.raw .setup) (taken.configs .setup)
  obtain ⟨fields, read⟩ := readable.mapping _ _ (taken.raw .mapping) (taken.configs .mapping)
  exact ⟨⟨names, made⟩, fields, fieldsOf_ok read⟩

variable {F : Bool → Doc → Option Bytes}

theorem writeRecord_ends {paths : Name → Bool} {changed : List Name} {before : String} {after : Option String} (h : Holds w₀ F w) :
    Ends failing (writeRecord env r paths changed before after)
      (fun _ w' => Holds w₀ F w' ∧ w₀.disk.parentLinked (.inside (.backup r.directory) "revision.json") = false ∧
        ∀ put ∈ .link :: .mkdir :: swapSteps false, Clear failing (.record after.isSome put))
      (fun _ w' => Holds w₀ F w' ∧ (w₀.disk.parentLinked (.inside (.backup r.directory) "revision.json") = false →
        ¬∀ put ∈ .link :: .mkdir :: swapSteps false, Clear failing (.record after.isSome put))) w := by
  have inside : ∀ put ∈ swapSteps false, put ∈ Put.link :: .mkdir :: swapSteps false :=
    fun put there => List.mem_cons_of_mem _ (List.mem_cons_of_mem _ there)
  unfold writeRecord atomicJson
  refine Ends.bind (F := fun linked w' => w' = w ∧ linked = w₀.disk.parentLinked (.inside (.backup r.directory) "revision.json") ∧
    Clear failing (.record after.isSome .link)) ?_ ?_
  · refine Ends.examine (fun clear => ⟨rfl, ?_, clear⟩) fun way hit => ⟨h, fun _ clear => clear .link (by simp) way hit⟩
    rw [← h.parentLinked]
  rintro linked w' ⟨same, rfl, link⟩
  subst w'
  refine Ends.bind (F := fun _ w' => w' = w ∧ w₀.disk.parentLinked (.inside (.backup r.directory) "revision.json") = false) ?_ ?_
  · refine Ends.raiseIf (fun linked => ⟨h, fun not => ?_⟩) fun not => ⟨rfl, Bool.eq_false_iff.mpr not⟩
    rw [linked] at not
    cases not
  rintro - w' ⟨same, parent⟩
  subst w'
  refine Ends.bind (F := fun _ w' => w' = w ∧ Clear failing (.record after.isSome .mkdir)) ?_ ?_
  · exact Ends.operate (fun clear => ⟨rfl, clear⟩) fun way hit => ⟨h, fun _ clear => clear .mkdir (by simp) way hit⟩
  rintro - w' ⟨same, mkdir⟩
  subst w'
  refine swap_ends.weaken (fun _ w' last => ⟨?_, parent, fun put there => ?_⟩) fun _ w' last =>
    ⟨last.1.holds (other_inside _ _) h, fun _ clear => last.2 fun put there => clear put (inside put there)⟩
  · rw [last.1]
    exact (h.put (other_inside _ _) _).put (other_temporary _) _
  · rcases List.mem_cons.mp there with rfl | there
    · exact link
    · rcases List.mem_cons.mp there with rfl | there
      · exact mkdir
      · exact last.2 put there

variable {configs : Name → Value}

theorem keepLive_ends {live : Live} (h : Holds w₀ F w) :
    Ends failing (keepLive env r configs live) (fun configs' w' => Holds w₀ F w' ∧ ∃ fields, configs' = setConfig configs .mapping fields)
      (fun _ w' => Holds w₀ F w') w := by
  unfold keepLive
  have step : ∀ {α : Type} {x : Act α} {w : World}, Holds w₀ F w → Stays (Holds w₀ F) x →
      Ends failing x (fun _ w' => Holds w₀ F w') (fun _ w' => Holds w₀ F w') w := fun h stays => stays failing _ h
  refine Ends.bind (step h makeFolder_stays) fun _ w₁ h => ?_
  refine Ends.bind (step h (Stays.forEach fun _ => writeNew_stays (other_inside _ _) fun _ h => h)) fun _ w₂ h => ?_
  refine Ends.bind (step h Stays.lift) fun _ w₃ h => Ends.bind (step h (atomicJson_stays (other_inside _ _))) fun _ w₄ h => ?_
  refine Ends.bind (step h Stays.lift) fun _ w₅ h => Ends.bind (step h (atomicJson_stays (other_inside _ _))) fun _ w₆ h => ?_
  exact Ends.bind (step h Stays.lift) fun mapping w₇ h => Ends.pure ⟨h, _, rfl⟩

theorem withLive_ends {e : Edit} {live : Option Live} (h : Holds w₀ F w)
    (edited : Edited configs e) (lives : live.isSome → e.changed = [.mapping]) :
    Ends failing (withLive env r e.configs live) (fun configs' w' => Holds w₀ F w' ∧ Edited configs ⟨configs', e.changed⟩)
      (fun _ w' => Holds w₀ F w') w := by
  cases live with
  | none => exact Ends.pure ⟨h, edited⟩
  | some live =>
    refine (keepLive_ends h).weaken (fun configs' w' last => ⟨last.1, ?_⟩) fun _ _ last => last
    obtain ⟨-, fields, rfl⟩ := last
    have made := mapping_edited edited.sound fields
    rw [lives rfl]
    refine ⟨made.sound, fun name other => (made.same name other).trans (edited.same name ?_)⟩
    rw [lives rfl]
    exact other

theorem encode_decides {changed : List Name} {raw : Name → Bytes} (name : Name) :
    Decides failing (name ∈ changed → ∃ made, env.dumps (configs name) = .ok made) (encode env changed raw configs name)
      (fun made => (name ∈ changed → env.dumps (configs name) = .ok made) ∧ (name ∉ changed → made = raw name)) w := by
  unfold encode
  split
  · next there => exact Decides.lift.weaken (by simp [there]) fun made same _ => ⟨fun _ => same, fun absent => absurd there absent⟩
  · next absent =>
    have kept : Decides failing True (pure (raw name) : Act Bytes) (fun made => made = raw name) w := Decides.pure rfl
    exact kept.weaken (by simp [absent]) fun made same _ => ⟨fun there => absurd there absent, fun _ => same⟩

theorem prepare_ends : Ends failing (prepare env r) (fun plan w' => Holds w w.files w' ∧ Planned env w r plan)
    (fun _ w' => Holds w w.files w') w := by
  unfold prepare
  refine Ends.bind (F := fun _ w' => Holds w w.files w' ∧ w'.disk = w.disk) (Ends.alter ⟨⟨fun _ _ => rfl, rfl, rfl, rfl, ?_⟩, rfl⟩) ?_
  · exact fun p none => absurd none List.not_mem_nil
  rintro - w₁ ⟨h₁, disk⟩
  have keep : ∀ {α : Type} {x : Act α} {Q : α → Prop}, Reads failing x Q w₁ →
      Ends failing x (fun a w' => w' = w₁ ∧ Q a) (fun _ w' => Holds w w.files w') w₁ :=
    fun reads => Ends.weaken reads (fun _ _ last => last) fun _ _ last => last ▸ h₁
  refine Ends.bind (F := fun s w' => w' = w₁ ∧ Taken env w₁.disk s ∧ Readable env w₁.disk)
    (Ends.weaken snapshot_decides (fun _ _ last => ⟨last.1, last.2.1, last.2.2.2⟩) fun _ _ last => last.1 ▸ h₁) ?_
  rintro s w' ⟨same, taken, readable⟩
  subst w'
  refine Ends.bind (keep (Stays.reads fun _ => Stays.raiseIf)) ?_
  rintro - w' ⟨same, -⟩
  subst w'
  refine Ends.bind (keep (Stays.reads fun _ => Stays.peek)) ?_
  rintro held w' ⟨same, -⟩
  subst w'
  refine Ends.bind (keep (Stays.reads fun _ => Stays.raiseIf)) ?_
  rintro - w' ⟨same, -⟩
  subst w'
  refine Ends.bind (keep (Stays.reads fun _ => Stays.raiseIf)) ?_
  rintro - w' ⟨same, -⟩
  subst w'
  refine Ends.bind (keep (Stays.reads fun _ => Stays.lift)) ?_
  rintro tokens w' ⟨same, -⟩
  subst w'
  refine Ends.bind (keep (edit_reads (readable.sound taken))) ?_
  rintro ⟨e, pending, live⟩ w' ⟨same, edited, lives⟩
  subst w'
  have step : ∀ {α : Type} {x : Act α} {w' : World}, Holds w w.files w' → Stays (Holds w w.files) x →
      Ends failing x (fun _ w' => Holds w w.files w') (fun _ w' => Holds w w.files w') w' := fun h stays => stays failing _ h
  refine Ends.bind (step h₁ Stays.lift) fun _ w₂ h => ?_
  refine Ends.bind (step h (Stays.forEach fun _ => Stays.lift.bind fun _ => Stays.pure _)) fun _ w₃ h => ?_
  refine Ends.bind (step h snapshot_stays) fun again w₄ h => Ends.bind (step h Stays.raiseIf) fun _ w₅ h => ?_
  refine Ends.bind (step h requirePaths_stays) fun _ w₆ h => Ends.bind (step h makeFolder_stays) fun _ w₇ h => ?_
  refine Ends.bind (step h (Stays.forEach fun _ => writeNew_stays (other_inside _ _) fun _ h => h)) fun _ w₈ h => ?_
  refine Ends.bind ((writeRecord_ends h).weaken (fun _ _ last => last) fun _ _ last => last.1) ?_
  rintro - w₉ ⟨h, receipt, -⟩
  refine Ends.bind (step h keepAll_stays) fun _ w₁₀ h => ?_
  refine Ends.bind (withLive_ends h edited lives) ?_
  rintro configs w₁₁ ⟨h, edited⟩
  refine Ends.bind (F := fun encoded w' => Holds w w.files w' ∧
    ∀ name, (name ∈ e.changed → env.dumps (configs name) = .ok (encoded name)) ∧ (name ∉ e.changed → encoded name = s.raw name))
    (Ends.weaken (forFiles_decides encode_decides) (fun _ _ last => ⟨last.1 ▸ h, last.2.1⟩) fun _ _ last => last.1 ▸ h) ?_
  rintro encoded w₁₂ ⟨h, made⟩
  rw [disk] at taken readable
  have loads : ∀ name, env.loads (encoded name) = .ok (configs name) := by
    intro name
    by_cases there : name ∈ e.changed
    · exact env.loads_dumps _ _ ((made name).1 there)
    · have same : configs name = s.configs name := edited.same name there
      rw [(made name).2 there, same]
      exact taken.configs name
  have paths : ∀ name, s.paths name = w.disk.own (.config name) := fun name => congrFun taken.paths name
  refine Ends.pure ⟨h, ⟨⟨readable, paths, fun name => ?_, fun name other => (made name).2 other, fun name => ⟨_, loads name⟩⟩,
    ⟨configs, loads, edited.sound⟩, receipt⟩⟩
  change w.disk.file (.config (s.paths name) (.config name)) = some (s.raw name)
  rw [paths]
  exact taken.raw name

def Disk.identityLate (d : Disk) (doc : Doc) : IdentityStep → Prop
  | .link => doc ∈ [.bindings, .localBindings, .wheel]
  | .ownLink => doc = .wheel
  | .ownExists => doc = .wheel
  | .exists => doc = .wheel ∧ d.own .wheel = false
  | .isFile => ∃ p, (doc, p) ∈ d.identities
  | .read => ∃ p, (doc, p) ∈ d.identities ∧ (d.file p).isSome

def Disk.late (d : Disk) : Site → Prop
  | .select (.snapshot .reread) (.config _) _ => True
  | .select (.again .reread) (.config _) _ => True
  | .select (.identity .reread) .wheel _ => d.wheelThere = true
  | .selected (.snapshot .reread) _ => True
  | .selected (.again .reread) _ => True
  | .raw .reread _ _ => True
  | .identity .reread doc step => d.identityLate doc step
  | .record true put => put ∈ .link :: .mkdir :: swapSteps false
  | _ => False

theorem identity_passes (d : Disk) : (∀ doc step, d.identityLate doc step → Clear failing (.identity .reread doc step)) ∧
      (d.wheelThere = true → ∀ step, Clear failing (.select (.identity .reread) .wheel step)) ↔
    IdentityPasses failing .reread d ∧ ∀ entry ∈ d.identities, Clear failing (.identity .reread entry.1 .isFile) ∧
      ((d.file entry.2).isSome → Clear failing (.identity .reread entry.1 .read)) := by
  constructor
  · rintro ⟨clear, select⟩
    refine ⟨⟨clear .bindings .link (by simp [Disk.identityLate]), clear .localBindings .link (by simp [Disk.identityLate]),
      clear .wheel .link (by simp [Disk.identityLate]), clear .wheel .ownLink rfl, clear .wheel .ownExists rfl,
      fun own => clear .wheel .exists ⟨rfl, own⟩, select⟩, ?_⟩
    rintro ⟨doc, p⟩ there
    exact ⟨clear doc .isFile ⟨p, there⟩, fun isFile => clear doc .read ⟨p, there, isFile⟩⟩
  · rintro ⟨passes, parts⟩
    refine ⟨fun doc step late => ?_, passes.select⟩
    cases step with
    | link =>
      simp only [Disk.identityLate, List.mem_cons, List.not_mem_nil, or_false] at late
      rcases late with rfl | rfl | rfl
      · exact passes.bindings
      · exact passes.localBindings
      · exact passes.wheel
    | ownLink =>
      cases late
      exact passes.ownLink
    | ownExists =>
      cases late
      exact passes.ownExists
    | «exists» =>
      obtain ⟨rfl, own⟩ := late
      exact passes.there own
    | isFile =>
      obtain ⟨p, there⟩ := late
      exact (parts (doc, p) there).1
    | read =>
      obtain ⟨p, there, isFile⟩ := late
      exact (parts (doc, p) there).2 isFile

theorem late_iff (d : Disk) : (∀ site, d.late site → Clear failing site) ↔
    SnapshotPasses failing .reread d ∧ ∀ put ∈ .link :: .mkdir :: swapSteps false, Clear failing (.record true put) := by
  constructor
  · intro clear
    obtain ⟨identity, parts⟩ := (identity_passes d).mp ⟨fun doc step late => clear (.identity .reread doc step) late,
      fun there step => clear (.select (.identity .reread) .wheel step) there⟩
    exact ⟨⟨⟨fun name step => clear (.select (.snapshot .reread) (.config name) step) trivial,
        fun name => clear (.selected (.snapshot .reread) name) trivial⟩,
      fun name reading => clear (.raw .reread name reading) trivial, identity, parts,
      ⟨fun name step => clear (.select (.again .reread) (.config name) step) trivial,
        fun name => clear (.selected (.again .reread) name) trivial⟩⟩, fun put there => clear (.record true put) there⟩
  · rintro ⟨passes, receipt⟩ site late
    obtain ⟨clear, select⟩ := (identity_passes d).mpr ⟨passes.identity, passes.parts⟩
    unfold Disk.late at late
    split at late
    · exact passes.first.steps _ _
    · exact passes.again.steps _ _
    · exact select late _
    · exact passes.first.links _
    · exact passes.again.links _
    · exact passes.raw _ _
    · exact clear _ _ late
    · exact receipt _ late
    · exact late.elim

theorem image_late {paths : Name → Bool} {f : Name → Bytes} (h : Holds w₀ (image w₀ paths f) w) (site : Site) :
    w.disk.late site ↔ w₀.disk.late site := by
  have file : ∀ own doc, doc ∈ [Doc.wheel, .bindings, .localBindings] → w.disk.file (.config own doc) = w₀.disk.file (.config own doc) := by
    intro own doc inside
    rw [h.config]
    simp only [List.mem_cons, List.not_mem_nil, or_false] at inside
    rcases inside with rfl | rfl | rfl <;> rfl
  have own : w.disk.own .wheel = w₀.disk.own .wheel := congrArg Option.isSome (file true .wheel (by simp))
  have there : w.disk.wheelThere = w₀.disk.wheelThere := by
    unfold Disk.wheelThere
    rw [own, file false .wheel (by simp)]
  have identities : w.disk.identities = w₀.disk.identities := by
    unfold Disk.identities
    rw [own]
  have known : ∀ doc p, (doc, p) ∈ w₀.disk.identities → w.disk.file p = w₀.disk.file p := by
    intro doc p inside
    simp only [Disk.identities, List.mem_cons, Prod.mk.injEq, List.not_mem_nil, or_false] at inside
    rcases inside with ⟨-, rfl⟩ | ⟨-, rfl⟩ | ⟨-, rfl⟩
    · exact file _ _ (by simp)
    · exact file _ _ (by simp)
    · exact file _ _ (by simp)
  have identity : ∀ doc step, w.disk.identityLate doc step ↔ w₀.disk.identityLate doc step := by
    intro doc step
    cases step with
    | read =>
      refine exists_congr fun p => ?_
      rw [identities]
      exact and_congr_right fun inside => by rw [known doc p inside]
    | isFile => exact exists_congr fun p => by rw [identities]
    | «exists» => exact and_congr_right fun _ => by rw [own]
    | link => rfl
    | ownLink => rfl
    | ownExists => rfl
  unfold Disk.late
  split
  · rfl
  · rfl
  · rw [there]
  · rfl
  · rfl
  · rfl
  · exact identity _ _
  · rfl
  · rfl

variable {plan : Plan}

theorem image_readable (planned : Planned env w₀ r plan) (h : Holds w₀ (image w₀ plan.paths plan.encoded) w) :
    Readable env w.disk := by
  obtain ⟨configs, loads, sound⟩ := planned.sound
  have own := image_own planned.ready h
  have selectable := image_selectable planned.ready h planned.ready.loads
  have before := planned.ready.readable.identifiable
  have content : ∀ name raw v, w.disk.file (.config (w.disk.own (.config name)) (.config name)) = some raw → env.loads raw = .ok v →
      v = configs name := by
    intro name raw v there loaded
    rw [own, image_file h name] at there
    cases there
    exact Except.ok.inj (loaded.symm.trans (loads name))
  refine ⟨selectable, ⟨?_, ?_, ?_, ?_, fun there => ?_⟩, fun raw v there loaded => ?_, fun raw v there loaded => ?_⟩
  · rw [h.linked]
    exact before.bindings
  · rw [h.linked]
    exact before.localBindings
  · rw [h.linked]
    exact before.wheel
  · rw [h.linked]
    exact before.ownWheel
  · have file : ∀ own, w.disk.file (.config own .wheel) = w₀.disk.file (.config own .wheel) := fun own => h.config own .wheel
    have same : w.disk.own .wheel = w₀.disk.own .wheel := congrArg Option.isSome (file true)
    have wheel := before.selectable (by unfold Disk.wheelThere at there ⊢; rwa [same, file false] at there)
    refine ⟨h.rootLinked.trans wheel.root, ?_, ?_, ?_⟩
    · rw [h.linked]
      exact wheel.ownLink
    · rw [h.linked, same]
      exact wheel.link
    · rw [same, file]
      exact wheel.readable
  · rw [content .setup raw v there loaded]
    exact sound.sources
  · obtain ⟨fields, made⟩ := sound.mapping
    rw [content .mapping raw v there loaded, made]
    exact ⟨fields, rfl⟩

theorem finish_ends (planned : Planned env w₀ r plan) (h : Holds w₀ (image w₀ plan.paths plan.encoded) w) :
    Ends failing (finish env r plan)
      (fun _ w' => Holds w₀ (image w₀ plan.paths plan.encoded) w' ∧ ∀ site, w₀.disk.late site → Clear failing site)
      (fun _ w' => Holds w₀ (image w₀ plan.paths plan.encoded) w' ∧ ¬∀ site, w₀.disk.late site → Clear failing site) w := by
  unfold finish
  refine Ends.bind (F := fun _ w' => Holds w₀ (image w₀ plan.paths plan.encoded) w') (Ends.alter ?_) fun _ w₁ h => ?_
  · exact ⟨h.config, h.linked, h.parentLinked, h.rootLinked, h.evidence⟩
  have late : (∀ site, w₀.disk.late site → Clear failing site) ↔ SnapshotPasses failing .reread w₁.disk ∧
      ∀ put ∈ .link :: .mkdir :: swapSteps false, Clear failing (.record true put) := by
    rw [← late_iff]
    exact forall_congr' fun site => imp_congr_left (image_late h site).symm
  rw [late]
  have readable := image_readable planned h
  refine Ends.bind (F := fun _ w' => w' = w₁ ∧ SnapshotPasses failing .reread w₁.disk) (Ends.weaken snapshot_decides
    (fun _ _ last => ⟨last.1, last.2.2.1⟩) fun _ _ last => ⟨last.1 ▸ h, fun all => last.2 ⟨all.1, readable⟩⟩) ?_
  rintro s w₂ ⟨rfl, passes⟩
  refine Ends.bind ((writeRecord_ends h).weaken (fun _ _ last => last) fun _ w₃ last => ⟨last.1, fun all => last.2 planned.receipt all.2⟩) ?_
  rintro - w₃ ⟨h, -, clear⟩
  exact Ends.pure ⟨h, passes, clear⟩

def Untouched (w₀ w : World) : Prop := ∀ own name, w.disk.file (.config own (.config name)) = w₀.disk.file (.config own (.config name))

theorem Holds.untouched (h : Holds w₀ w₀.files w) : Untouched w₀ w := fun own name => h.config own (.config name)

theorem untouched_iff (ready : Ready env w₀ plan) (h : Holds w₀ (image w₀ plan.paths plan.encoded) w) :
    Untouched w₀ w ↔ ∀ name ∈ plan.changed, plan.encoded name = plan.raw name := by
  constructor
  · intro untouched name _
    have same := untouched (plan.paths name) name
    rw [image_file h name, ready.raw name] at same
    exact Option.some.inj same
  · intro same
    have all : plan.encoded = plan.raw := by
      funext name
      by_cases there : name ∈ plan.changed
      · exact same name there
      · exact ready.kept name there
    rw [all, image_raw ready] at h
    exact h.untouched

def FailsLate (env : Env) (w : World) (r : Request) (failing : Option (Site × ℕ)) (plan : Plan) : Prop :=
  (∃ t, prepare env r ⟨w, failing⟩ = (.value plan, t)) ∧ ∃ site way, failing = some (site, way) ∧ w.disk.late site

theorem Guarded.not_late (hit : Guarded failing) {d : Disk} (site : Site) (late : d.late site) : Clear failing site := by
  refine hit.clear ?_
  unfold Disk.late at late
  split at late <;> first | rfl | exact late.elim

theorem written_ends (planned : Planned env w₀ r plan) (h : Holds w₀ w₀.files w) :
    Ends failing (do commit env r plan; finish env r plan) (fun _ _ => ∀ site, w₀.disk.late site → Clear failing site)
      (fun _ w' => Untouched w₀ w' ∧ (∀ site, w₀.disk.late site → Clear failing site) ∨
        (Untouched w₀ w' ↔ ∀ name ∈ plan.changed, plan.encoded name = plan.raw name) ∧
          ¬∀ site, w₀.disk.late site → Clear failing site) w := by
  refine Ends.bind ((commit_ends planned.ready r h).weaken (fun _ _ last => last) fun _ w' last => .inl ?_) fun _ w' h => ?_
  · exact ⟨last.1.untouched, last.2.not_late⟩
  · exact (finish_ends planned h).weaken (fun _ _ last => last.2) fun _ w'' last => .inr ⟨untouched_iff planned.ready last.1, last.2⟩

/-- A save that raises leaves the files as they were, unless an operation after its writes fails and they were not what is written. -/
theorem save_atomic_iff (env : Env) (w : World) (r : Request) (failing : Option (Site × ℕ)) :
    (∀ e t, save env r ⟨w, failing⟩ = (.raised e, t) → Untouched w t.state) ↔
      ∀ plan, FailsLate env w r failing plan → ∀ name ∈ plan.changed, plan.encoded name = plan.raw name := by
  have first : Ends failing (prepare env r) (fun plan w' => Holds w w.files w' ∧ Planned env w r plan)
      (fun _ w' => Holds w w.files w') w := prepare_ends
  have whole : save env r ⟨w, failing⟩ = Program.bind (prepare env r) (fun plan => do commit env r plan; finish env r plan) ⟨w, failing⟩ := rfl
  rw [whole, Program.bind]
  rcases first.run with ⟨plan, w', run, holds, planned⟩ | ⟨e, w', run, holds⟩
  · have only : ∀ other, FailsLate env w r failing other → other = plan := by
      rintro other ⟨⟨t, run'⟩, -⟩
      exact (Outcome.value.inj (Prod.mk.inj (run.symm.trans run')).1).symm
    have none : (∀ site, w.disk.late site → Clear failing site) → ∀ other, ¬FailsLate env w r failing other := by
      rintro clear other ⟨-, site, way, hit, late⟩
      exact clear site late way hit
    rw [run]
    dsimp only
    rcases (written_ends planned holds).run with ⟨a, s, run', clear⟩ | ⟨e, s, run', last⟩
    · rw [run']
      exact ⟨fun _ other fails => absurd fails (none clear other), fun _ e t done => by cases done⟩
    · rw [run']
      rcases last with ⟨untouched, clear⟩ | ⟨untouched, hit⟩
      · refine ⟨fun _ other fails => absurd fails (none clear other), fun _ e t done => ?_⟩
        cases done
        exact untouched
      · obtain ⟨site, late⟩ := not_forall.mp hit
        obtain ⟨late, fails⟩ := Classical.not_imp.mp late
        obtain ⟨way, fails⟩ := not_forall_not.mp fails
        refine ⟨fun atomic other late => ?_, fun same e t done => ?_⟩
        · rw [only other late]
          exact untouched.mp (atomic e _ rfl)
        · cases done
          exact untouched.mpr (same plan ⟨⟨_, run⟩, site, way, fails, late⟩)
  · rw [run]
    refine ⟨fun _ plan late => ?_, fun _ e t done => ?_⟩
    · obtain ⟨⟨t, run'⟩, -⟩ := late
      cases run.symm.trans run'
    · cases done
      exact holds.untouched

end steps

/-! A save of the algorithms, whose receipt cannot be opened. -/
namespace Bench

def before : Value := .object [("wheel_imu_estimator", .text "five_state")]

def after : Value := .object [("wheel_imu_estimator", .text "robot_localization")]

def loads : Bytes → Except String Value
  | [0] => .ok (.object [])
  | [1] => .ok before
  | [2] => .ok after
  | _ => .error "Expecting value"

def dumps : Value → Except String Bytes
  | .object [("wheel_imu_estimator", .text "robot_localization")] => .ok [2]
  | _ => .error "Object is not JSON serializable"

theorem loads_dumps (v : Value) (raw : Bytes) (made : dumps v = .ok raw) : loads raw = .ok v := by
  unfold dumps at made
  split at made
  · cases made
    rfl
  · cases made

def env : Env where
  float _ := .ok 5
  resolveHardwareSetup _ := .ok ()
  resolveCloudFilter _ := .ok ()
  validatePlanarConfig _ := .ok ()
  validateProfile _ := .ok ()
  validateCovariance _ := .ok ()
  loads := loads
  dumps := dumps
  loads_dumps := loads_dumps
  sha256 _ := "r"
  utf8 _ := []
  pathIdentity _ := []
  encodeRecord _ := [3]
  text _ := ""
  place := .elsewhere
  configPath _ _ := .error notFound
  evidencePath := .temporary
  verifyGeometrySources _ _ := .ok ()
  verifyValue _ _ := .error notFound

def content : Place → Option Bytes
  | .config false (.config .mapping) => some [1]
  | .config false (.config _) => some [0]
  | _ => none

def world : World where
  disk := ⟨content, fun _ => false, fun _ => false, false, fun _ => false⟩
  tokens := []
  evidenceTokens := []
  writtenEvidence := []

def request : Request where
  group := "algorithms"
  value := after
  warningToken := none
  expectedRevision := some "r"
  evidenceTokens := .null
  now := 0
  directory := "20250101"

def failing : Option (Site × ℕ) := some (.record true .opens, 0)

/-- The receipt is opened after the files are written, and outside the handler. -/
theorem save_raises_written : ¬∀ (env : Env) (w : World) (r : Request) (failing : Option (Site × ℕ)) (e : String) (t : Trial Site World),
    save env r ⟨w, failing⟩ = (.raised e, t) → Untouched w t.state := by
  intro atomic
  have raised : (save env request ⟨world, failing⟩).1.error = some osError := by decide +kernel
  have written : (save env request ⟨world, failing⟩).2.state.disk.file (.config false (.config .mapping)) ≠ some [1] := by decide +kernel
  have run : save env request ⟨world, failing⟩ = (.raised osError, (save env request ⟨world, failing⟩).2) :=
    Outcome.run_of_error raised
  exact written (atomic env world request failing osError _ run false .mapping)

end Bench

end Smartwheel.Parameters
