import Smartwheel.Parameters.Store

/-! What a reading of the configuration files needs of the disk, and which of its operations end it. -/
namespace Smartwheel.Parameters
open Effect
open Effect.Trial (operate examine alter peek lift forEach gather Decides Ends Stays Clear)
open Smartwheel.Calibration (Value Fields)
open Smartwheel.Profiles (Name files mem_files)

def Disk.own (d : Disk) (doc : Doc) : Bool := (d.file (.config true doc)).isSome

/-- What `selected_config_path` needs. -/
structure Selectable (env : Env) (d : Disk) (doc : Doc) : Prop where
  root : d.rootLinked = false
  ownLink : d.linked (.config true doc) = false
  link : d.linked (.config (d.own doc) doc) = false
  readable : ∃ raw v, d.file (.config (d.own doc) doc) = some raw ∧ env.loads raw = .ok v

section reading
variable {env : Env} {failing : Option (Site × ℕ)} {w : World} {site : Site} {p : Place} {call : Call} {doc : Doc} {pass : Pass}

theorem ask_decides {f : Disk → Bool} : Decides failing (Clear failing site) (ask site f) (fun b => b = f w.disk) w := Decides.examine

theorem fetch_decides :
    Decides failing (Clear failing site ∧ ∃ c, w.disk.file p = some c) (fetch site p) (fun c => w.disk.file p = some c) w := by
  refine Decides.examine.bind fun content here _ => ?_
  subst here
  exact Decides.need

theorem refused_decides {b : Bool} {e : String} :
    Decides failing (b = false) (Program.raiseIf (b = true) e : Act Unit) (fun _ => True) w :=
  Decides.raiseIf.weaken (by rw [Bool.not_eq_true]) fun _ _ _ => trivial

theorem ordinary_decides :
    Decides failing (Clear failing site ∧ w.disk.linked p = false) (ordinary env site p) (fun _ => True) w := by
  refine Decides.bind ask_decides fun linked here _ => ?_
  subst here
  exact refused_decides.weaken Iff.rfl fun _ _ _ => trivial

theorem selectedConfigPath_decides : Decides failing ((∀ step, Clear failing (.select call doc step)) ∧ Selectable env w.disk doc)
    (selectedConfigPath env call doc) (fun own => own = w.disk.own doc) w := by
  unfold selectedConfigPath
  refine Decides.weaken (P := Clear failing (.select call doc .root) ∧ w.disk.rootLinked = false ∧ Clear failing (.select call doc .own) ∧
    w.disk.linked (.config true doc) = false ∧ Clear failing (.select call doc .present) ∧ Clear failing (.select call doc .chosen) ∧
    w.disk.linked (.config (w.disk.own doc) doc) = false ∧ Clear failing (.select call doc .stat) ∧
    ¬(w.disk.file (.config (w.disk.own doc) doc)).isSome = false ∧
    (Clear failing (.select call doc .read) ∧ ∃ raw, w.disk.file (.config (w.disk.own doc) doc) = some raw) ∧
    (∃ raw v, w.disk.file (.config (w.disk.own doc) doc) = some raw ∧ env.loads raw = .ok v) ∧ True)
    ?_ ?_ fun own here _ => here
  · refine Decides.known ask_decides fun _ => refused_decides.bind fun _ _ _ => ?_
    refine Decides.known ask_decides fun _ => refused_decides.bind fun _ _ _ => ?_
    refine Decides.known ask_decides fun _ => ?_
    refine Decides.known ask_decides fun _ => refused_decides.bind fun _ _ _ => ?_
    refine Decides.known ask_decides fun _ => Decides.raiseIf.bind fun _ _ _ => ?_
    refine fetch_decides.bind fun raw here _ => ?_
    refine (Decides.lift.weaken ?_ fun _ value _ => value).bind fun _ _ _ => Decides.pure rfl
    constructor
    · rintro ⟨v, loaded⟩
      exact ⟨raw, v, here, loaded⟩
    · rintro ⟨raw', v, there, loaded⟩
      cases here.symm.trans there
      exact ⟨v, loaded⟩
  · constructor
    · rintro ⟨root, rootLinked, own, ownLink, present, chosen, link, stat, -, ⟨read, -⟩, readable, -⟩
      refine ⟨fun step => ?_, rootLinked, ownLink, link, readable⟩
      cases step with
      | root => exact root
      | own => exact own
      | present => exact present
      | chosen => exact chosen
      | stat => exact stat
      | read => exact read
    · rintro ⟨clear, rootLinked, ownLink, link, raw, v, there, loaded⟩
      refine ⟨clear .root, rootLinked, clear .own, ownLink, clear .present, clear .chosen, link, clear .stat, ?_,
        ⟨clear .read, raw, there⟩, ⟨raw, v, there, loaded⟩, trivial⟩
      rw [there]
      exact Bool.noConfusion

theorem forFiles_decides {α : Type} {P : Name → Prop} {Q : Name → α → Prop} {body : Name → Act α}
    (h : ∀ name, Decides failing (P name) (body name) (Q name) w) :
    Decides failing (∀ name, P name) (forFiles body) (fun f => ∀ name, Q name (f name)) w := by
  refine Decides.weaken (P := P .setup ∧ P .mapping ∧ P .cameras ∧ True) ?_ ?_ fun _ all _ => all
  · refine (h .setup).bind fun setup atSetup _ => (h .mapping).bind fun mapping atMapping _ =>
      (h .cameras).bind fun cameras atCameras _ => Decides.pure fun name => ?_
    cases name with
    | setup => exact atSetup
    | mapping => exact atMapping
    | cameras => exact atCameras
  · constructor
    · rintro ⟨setup, mapping, cameras, -⟩ name
      cases name with
      | setup => exact setup
      | mapping => exact mapping
      | cameras => exact cameras
    · exact fun all => ⟨all .setup, all .mapping, all .cameras, trivial⟩

/-- No operation of a call of `selected_paths` fails. -/
structure Passes (failing : Option (Site × ℕ)) (call : Call) : Prop where
  steps : ∀ name step, Clear failing (.select call (.config name) step)
  links : ∀ name, Clear failing (.selected call name)

theorem selectedPaths_decides : Decides failing (Passes failing call ∧ ∀ name, Selectable env w.disk (.config name))
    (selectedPaths env call) (fun paths => paths = fun name => w.disk.own (.config name)) w := by
  have one : ∀ name, Decides failing (((∀ step, Clear failing (.select call (.config name) step)) ∧ Selectable env w.disk (.config name)) ∧
      (Clear failing (.selected call name) ∧ w.disk.linked (.config (w.disk.own (.config name)) (.config name)) = false) ∧ True) (do
        let own ← selectedConfigPath env call (.config name)
        ordinary env (.selected call name) (.config own (.config name))
        return own) (fun own => own = w.disk.own (.config name)) w :=
    fun name => Decides.known selectedConfigPath_decides fun _ => ordinary_decides.bind fun _ _ _ => Decides.pure rfl
  refine Decides.weaken (forFiles_decides one) ?_ fun paths own _ => funext own
  constructor
  · intro h
    exact ⟨⟨fun name => (h name).1.1, fun name => (h name).2.1.1⟩, fun name => (h name).1.2⟩
  · rintro ⟨passes, selectable⟩ name
    exact ⟨⟨passes.steps name, selectable name⟩, ⟨passes.links name, (selectable name).link⟩, trivial⟩

theorem requirePaths_decides {paths : Name → Bool} :
    Decides failing ((Passes failing call ∧ ∀ name, Selectable env w.disk (.config name)) ∧
      ∀ name, paths name = w.disk.own (.config name)) (requirePaths env call paths) (fun _ => True) w := by
  refine Decides.known selectedPaths_decides fun _ => Decides.raiseIf.weaken ?_ fun _ _ _ => trivial
  constructor
  · intro equal name
    by_contra different
    exact equal ⟨name, mem_files name, fun same => different same.symm⟩
  · rintro equal ⟨name, -, different⟩
    exact different (equal name).symm

def Disk.identities (d : Disk) : List (Doc × Place) :=
  [(.bindings, .config false .bindings), (.localBindings, .config false .localBindings), (.wheel, .config (d.own .wheel) .wheel)]

def Disk.wheelThere (d : Disk) : Bool := d.own .wheel || (d.file (.config false .wheel)).isSome

/-- What `identity_paths` needs. -/
structure Identifiable (env : Env) (d : Disk) : Prop where
  bindings : d.linked (.config false .bindings) = false
  localBindings : d.linked (.config false .localBindings) = false
  wheel : d.linked (.config false .wheel) = false
  ownWheel : d.linked (.config true .wheel) = false
  selectable : d.wheelThere = true → Selectable env d .wheel

/-- No operation of `identity_paths` fails. -/
structure IdentityPasses (failing : Option (Site × ℕ)) (pass : Pass) (d : Disk) : Prop where
  bindings : Clear failing (.identity pass .bindings .link)
  localBindings : Clear failing (.identity pass .localBindings .link)
  wheel : Clear failing (.identity pass .wheel .link)
  ownLink : Clear failing (.identity pass .wheel .ownLink)
  ownExists : Clear failing (.identity pass .wheel .ownExists)
  there : d.own .wheel = false → Clear failing (.identity pass .wheel .exists)
  select : d.wheelThere = true → ∀ step, Clear failing (.select (.identity pass) .wheel step)

theorem identityPaths_decides : Decides failing (IdentityPasses failing pass w.disk ∧ Identifiable env w.disk)
    (identityPaths env pass) (fun list => list = w.disk.identities) w := by
  unfold identityPaths
  have exists_decides : Decides failing (w.disk.own .wheel = false → Clear failing (.identity pass .wheel .exists))
      (wheelExists pass (w.disk.own .wheel)) (fun there => there = w.disk.wheelThere) w := by
    unfold wheelExists Disk.wheelThere
    cases w.disk.own .wheel with
    | true =>
      exact (Decides.pure (Q := fun there => there = (true || (w.disk.file (.config false .wheel)).isSome)) rfl).weaken (by simp)
        fun _ same _ => same
    | false =>
      have asked : Decides failing (Clear failing (.identity pass .wheel .exists))
          (ask (.identity pass .wheel .exists) fun d => (d.file (.config false .wheel)).isSome)
          (fun there => there = (w.disk.file (.config false .wheel)).isSome) w := ask_decides
      exact asked.weaken ⟨fun clear _ => clear, fun clear => clear rfl⟩ fun _ same _ => same
  have chosen_decides : Decides failing (w.disk.wheelThere = true →
        (∀ step, Clear failing (.select (.identity pass) .wheel step)) ∧ Selectable env w.disk .wheel)
      (wheelSelected env pass w.disk.wheelThere) (fun own => own = w.disk.own .wheel) w := by
    unfold wheelSelected
    split
    · next there => exact selectedConfigPath_decides.weaken (by simp [there]) fun _ same _ => same
    · next absent =>
      have none_ : w.disk.own .wheel = false := by
        unfold Disk.wheelThere at absent
        cases own : w.disk.own .wheel with
        | true => exact absurd (by rw [own]; rfl) absent
        | false => rfl
      have chosen : Decides failing True (pure false : Act Bool) (fun own => own = w.disk.own .wheel) w := Decides.pure none_.symm
      exact chosen.weaken (by simp [absent]) fun _ same _ => same
  refine Decides.weaken (P := (Clear failing (.identity pass .bindings .link) ∧ w.disk.linked (.config false .bindings) = false) ∧
    (Clear failing (.identity pass .localBindings .link) ∧ w.disk.linked (.config false .localBindings) = false) ∧
    (Clear failing (.identity pass .wheel .link) ∧ w.disk.linked (.config false .wheel) = false) ∧
    (Clear failing (.identity pass .wheel .ownLink) ∧ w.disk.linked (.config true .wheel) = false) ∧
    Clear failing (.identity pass .wheel .ownExists) ∧
    (w.disk.own .wheel = false → Clear failing (.identity pass .wheel .exists)) ∧
    (w.disk.wheelThere = true →
      (∀ step, Clear failing (.select (.identity pass) .wheel step)) ∧ Selectable env w.disk .wheel) ∧ True)
    ?_ ?_ fun _ same _ => same
  · refine ordinary_decides.bind fun _ _ _ => ordinary_decides.bind fun _ _ _ => ordinary_decides.bind fun _ _ _ => ?_
    refine ordinary_decides.bind fun _ _ _ => Decides.known ask_decides fun _ => ?_
    exact Decides.known exists_decides fun _ => Decides.known chosen_decides fun _ => Decides.pure rfl
  constructor
  · rintro ⟨⟨bindings, bindings'⟩, ⟨localBindings, localBindings'⟩, ⟨wheel, wheel'⟩, ⟨ownLink, ownLink'⟩, ownExists, there, chosen, -⟩
    exact ⟨⟨bindings, localBindings, wheel, ownLink, ownExists, there, fun here => (chosen here).1⟩,
      ⟨bindings', localBindings', wheel', ownLink', fun here => (chosen here).2⟩⟩
  · rintro ⟨passes, known⟩
    exact ⟨⟨passes.bindings, known.bindings⟩, ⟨passes.localBindings, known.localBindings⟩, ⟨passes.wheel, known.wheel⟩,
      ⟨passes.ownLink, known.ownWheel⟩, passes.ownExists, passes.there, fun here => ⟨passes.select here, known.selectable here⟩, trivial⟩

theorem identityPart_decides (entry : Doc × Place) : Decides failing (Clear failing (.identity pass entry.1 .isFile) ∧
    ((w.disk.file entry.2).isSome → Clear failing (.identity pass entry.1 .read))) (identityPart env pass entry) (fun _ => True) w := by
  have content : Decides failing ((w.disk.file entry.2).isSome → Clear failing (.identity pass entry.1 .read))
      (identityContent env pass entry (w.disk.file entry.2).isSome) (fun _ => True) w := by
    unfold identityContent
    split
    · next there =>
      refine fetch_decides.weaken ?_ fun _ _ _ => trivial
      exact ⟨fun h _ => h.1, fun h => ⟨h there, Option.isSome_iff_exists.mp there⟩⟩
    · next absent =>
      have nothing : Decides failing True (pure (env.utf8 ":ABSENT") : Act Bytes) (fun _ => True) w := Decides.done
      exact nothing.weaken ⟨fun _ there => absurd there absent, fun _ => trivial⟩ fun _ _ _ => trivial
  refine (Decides.known ask_decides fun _ => content.bind fun _ _ _ => Decides.done).weaken ?_ fun _ _ _ => trivial
  rw [and_true]

section stays
variable {J : World → Prop}

theorem ask_stays {f : Disk → Bool} : Stays J (ask site f) := Stays.examine

theorem touch_stays : Stays J (touch site) := Stays.operate (fun _ h => h) fun _ _ h => h

theorem fetch_stays : Stays J (fetch site p) := Stays.examine.bind fun _ => Stays.need

theorem ordinary_stays : Stays J (ordinary env site p) := ask_stays.bind fun _ => Stays.raiseIf

end stays

theorem attempt_decides {α : Type} {x : Act α} (h : Stays (fun w' => w' = w) x) :
    Decides failing True (attempt x) (fun _ => True) w := Decides.handle (h.bind fun _ => Stays.pure _)

theorem sourcePart_decides (entry : ℕ × String) : Decides failing True (sourcePart env pass entry) (fun _ => True) w := by
  have part : Decides failing True (attempt do
      ordinary env (.source pass entry.1 false) (env.place entry.2)
      let content ← fetch (.source pass entry.1 true) (env.place entry.2)
      Program.raiseIf (maxEvidenceBytes < content.length) "证据文件过大"
      return content) (fun _ => True) w :=
    attempt_decides (ordinary_stays.bind fun _ => fetch_stays.bind fun _ => Stays.raiseIf.bind fun _ => Stays.pure _)
  exact (part.bind fun _ _ _ => Decides.done).weaken (and_true _).to_iff fun _ _ _ => trivial

theorem calibrationFile_decides {unavailable : Bytes} {next : Act Bytes} (h : Decides failing True next (fun _ => True) w) :
    Decides failing True (calibrationFile env site p unavailable next) (fun _ => True) w := by
  refine ((attempt_decides fetch_stays).bind fun found _ _ => (?_ : Decides failing True _ (fun _ => True) w)).weaken
    (and_true _).to_iff fun _ _ _ => trivial
  cases found with
  | none => exact Decides.done
  | some content => exact (h.bind fun _ _ _ => Decides.done).weaken (and_true _).to_iff fun _ _ _ => trivial

theorem fieldPart_decides (mapping : Fields) (field : String) :
    Decides failing True (fieldPart env pass mapping field) (fun _ => True) w := by
  unfold fieldPart
  dsimp only
  split
  · refine ((attempt_decides (touch_stays.bind fun _ => Stays.peek.bind fun _ => Stays.lift)).bind fun path _ _ =>
      (?_ : Decides failing True _ (fun _ => True) w)).weaken (and_true _).to_iff fun _ _ _ => trivial
    cases path with
    | none => exact Decides.done
    | some p => exact calibrationFile_decides (calibrationFile_decides Decides.done)
  · exact Decides.done

/-- What `_snapshot` needs. -/
structure Readable (env : Env) (d : Disk) : Prop where
  selectable : ∀ name, Selectable env d (.config name)
  identifiable : Identifiable env d
  documents : ∀ raw v, d.file (.config (d.own (.config .setup)) (.config .setup)) = some raw → env.loads raw = .ok v →
    ∃ names, snapshotPaths v = .ok names
  mapping : ∀ raw v, d.file (.config (d.own (.config .mapping)) (.config .mapping)) = some raw → env.loads raw = .ok v →
    ∃ fields, fieldsOf v = .ok fields

structure SnapshotPasses (failing : Option (Site × ℕ)) (pass : Pass) (d : Disk) : Prop where
  first : Passes failing (.snapshot pass)
  raw : ∀ name reading, Clear failing (.raw pass name reading)
  identity : IdentityPasses failing pass d
  parts : ∀ entry ∈ d.identities, Clear failing (.identity pass entry.1 .isFile) ∧
    ((d.file entry.2).isSome → Clear failing (.identity pass entry.1 .read))
  again : Passes failing (.again pass)

structure Taken (env : Env) (d : Disk) (s : Snapshot) : Prop where
  raw : ∀ name, d.file (.config (d.own (.config name)) (.config name)) = some (s.raw name)
  configs : ∀ name, env.loads (s.raw name) = .ok (s.configs name)
  paths : s.paths = fun name => d.own (.config name)

theorem snapshot_decides : Decides failing (SnapshotPasses failing pass w.disk ∧ Readable env w.disk) (snapshot env pass)
    (Taken env w.disk) w := by
  let d := w.disk
  refine Decides.weaken (P := (Passes failing (.snapshot pass) ∧ ∀ name, Selectable env d (.config name)) ∧
    (∀ name, (Clear failing (.raw pass name false) ∧ d.linked (.config (d.own (.config name)) (.config name)) = false) ∧
      Clear failing (.raw pass name true) ∧ ∃ raw, d.file (.config (d.own (.config name)) (.config name)) = some raw) ∧
    (∀ name, ∃ raw v, d.file (.config (d.own (.config name)) (.config name)) = some raw ∧ env.loads raw = .ok v) ∧
    (IdentityPasses failing pass d ∧ Identifiable env d) ∧
    (∀ entry ∈ d.identities, Clear failing (.identity pass entry.1 .isFile) ∧
      ((d.file entry.2).isSome → Clear failing (.identity pass entry.1 .read))) ∧
    (∃ raw v names, d.file (.config (d.own (.config .setup)) (.config .setup)) = some raw ∧ env.loads raw = .ok v ∧
      snapshotPaths v = .ok names) ∧ True ∧
    (∃ raw v fields, d.file (.config (d.own (.config .mapping)) (.config .mapping)) = some raw ∧ env.loads raw = .ok v ∧
      fieldsOf v = .ok fields) ∧ True ∧
    ((Passes failing (.again pass) ∧ ∀ name, Selectable env d (.config name)) ∧
      ∀ name, d.own (.config name) = d.own (.config name)) ∧ True) ?_ ?_ fun s taken _ => taken
  · refine Decides.known selectedPaths_decides fun _ => ?_
    refine (forFiles_decides fun name => ordinary_decides.bind fun _ _ _ => fetch_decides).bind fun raw atRaw _ => ?_
    have loaded : ∀ name, Decides failing (∃ raw v, d.file (.config (d.own (.config name)) (.config name)) = some raw ∧
        env.loads raw = .ok v) (lift (env.loads (raw name)) : Act Value) (fun v => env.loads (raw name) = .ok v) w := by
      intro name
      refine Decides.lift.weaken ⟨fun ⟨v, made⟩ => ⟨raw name, v, atRaw name, made⟩, ?_⟩ fun _ made _ => made
      rintro ⟨raw', v, there, made⟩
      cases (atRaw name).symm.trans there
      exact ⟨v, made⟩
    refine (forFiles_decides loaded).bind fun configs atConfigs _ => ?_
    refine Decides.known identityPaths_decides fun _ => ?_
    refine (Decides.gather fun entry _ => identityPart_decides entry).bind fun identities _ _ => ?_
    refine (Decides.lift.weaken (R := ∃ raw v names, d.file (.config (d.own (.config .setup)) (.config .setup)) = some raw ∧
      env.loads raw = .ok v ∧ snapshotPaths v = .ok names) ?_ fun _ made _ => made).bind fun documents _ _ => ?_
    · constructor
      · rintro ⟨names, made⟩
        exact ⟨raw .setup, configs .setup, names, atRaw .setup, atConfigs .setup, made⟩
      · rintro ⟨raw', v, names, there, parsed, made⟩
        cases (atRaw .setup).symm.trans there
        cases (atConfigs .setup).symm.trans parsed
        exact ⟨names, made⟩
    refine ((Decides.gather fun entry _ => sourcePart_decides entry).weaken (by simp) fun _ _ _ => trivial).bind
      fun sources _ _ => ?_
    refine (Decides.lift.weaken (R := ∃ raw v fields, d.file (.config (d.own (.config .mapping)) (.config .mapping)) = some raw ∧
      env.loads raw = .ok v ∧ fieldsOf v = .ok fields) ?_ fun _ made _ => made).bind fun mapping _ _ => ?_
    · constructor
      · rintro ⟨fields, made⟩
        exact ⟨raw .mapping, configs .mapping, fields, atRaw .mapping, atConfigs .mapping, made⟩
      · rintro ⟨raw', v, fields, there, parsed, made⟩
        cases (atRaw .mapping).symm.trans there
        cases (atConfigs .mapping).symm.trans parsed
        exact ⟨fields, made⟩
    refine ((Decides.gather fun field _ => fieldPart_decides mapping field).weaken (by simp) fun _ _ _ => trivial).bind
      fun calibrations _ _ => ?_
    exact requirePaths_decides.bind fun _ _ _ => Decides.pure ⟨atRaw, atConfigs, rfl⟩
  · constructor
    · rintro ⟨⟨first, selectable⟩, raw, -, ⟨identity, identifiable⟩, parts, ⟨setup, v, names, there, parsed, made⟩, -,
        ⟨mapping, v', fields, there', parsed', made'⟩, -, ⟨⟨again, -⟩, -⟩, -⟩
      refine ⟨⟨first, fun name reading => ?_, identity, parts, again⟩, ⟨selectable, identifiable, ?_, ?_⟩⟩
      · cases reading with
        | false => exact (raw name).1.1
        | true => exact (raw name).2.1
      · intro raw u here loaded
        cases there.symm.trans here
        cases parsed.symm.trans loaded
        exact ⟨names, made⟩
      · intro raw u here loaded
        cases there'.symm.trans here
        cases parsed'.symm.trans loaded
        exact ⟨fields, made'⟩
    · rintro ⟨passes, readable⟩
      have file := fun name => (readable.selectable name).readable
      refine ⟨⟨passes.first, readable.selectable⟩, fun name => ?_, file, ⟨passes.identity, readable.identifiable⟩, passes.parts,
        ?_, trivial, ?_, trivial, ⟨⟨passes.again, readable.selectable⟩, fun _ => rfl⟩, trivial⟩
      · obtain ⟨raw, v, there, -⟩ := file name
        exact ⟨⟨passes.raw name false, (readable.selectable name).link⟩, passes.raw name true, raw, there⟩
      · obtain ⟨raw, v, there, loaded⟩ := file .setup
        obtain ⟨names, made⟩ := readable.documents raw v there loaded
        exact ⟨raw, v, names, there, loaded, made⟩
      · obtain ⟨raw, v, there, loaded⟩ := file .mapping
        obtain ⟨fields, made⟩ := readable.mapping raw v there loaded
        exact ⟨raw, v, fields, there, loaded, made⟩

theorem snapshot_stays {J : World → Prop} : Stays J (snapshot env pass) := Decides.stays fun _ _ => snapshot_decides

theorem requirePaths_stays {J : World → Prop} {paths : Name → Bool} : Stays J (requirePaths env call paths) :=
  Decides.stays fun _ _ => requirePaths_decides

end reading

end Smartwheel.Parameters
