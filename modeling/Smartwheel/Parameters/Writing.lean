import Smartwheel.Parameters.Reading

/-! What the writes of a save leave, whichever of their operations fails. -/
namespace Smartwheel.Parameters
open Effect
open Effect.Trial (operate examine alter peek lift forEach gather Decides Ends Stays Clear)
open Smartwheel.Calibration (Value Fields)
open Smartwheel.Profiles (Name files mem_files)

namespace World
variable (w : World) (p q : Place) (a b : Option Bytes)

theorem put_put : (w.put p a).put p b = w.put p b := by
  unfold put
  rw [Function.update_idem]

theorem put_same : w.put p (w.disk.file p) = w := by
  unfold put
  rw [Function.update_eq_self]

theorem put_comm (different : p ≠ q) : (w.put p a).put q b = (w.put q b).put p a := by
  unfold put
  rw [Function.update_comm different]

theorem file_put : (w.put p a).disk.file p = a := Function.update_self ..

theorem file_put_ne (different : q ≠ p) : (w.put p a).disk.file q = w.disk.file q := Function.update_of_ne different ..

end World

theorem Place.ne_temporary (p : Place) : p ≠ .temporary p := by
  intro same
  have sizes := congrArg sizeOf same
  simp at sizes

section writes
variable {failing : Option (Site × ℕ)} {w : World} {p : Place} {raw : Bytes} {site : Put → Site} {mode : Bool}

def swapSteps (mode : Bool) : List Put :=
  .opens :: (if mode then [.chmod] else []) ++ [.write, .flush, .fsync, .close, .replace, .exists]

def Torn (w : World) (p : Place) (raw : Bytes) (w' : World) : Prop :=
  ∃ c t, (c = w.disk.file p ∨ c = some raw) ∧ w' = (w.put p c).put (.temporary p) t

theorem torn_temporary (t : Option Bytes) : Torn w p raw (w.put (.temporary p) t) :=
  ⟨w.disk.file p, t, .inl rfl, by rw [World.put_same]⟩

theorem Torn.put {w' : World} (torn : Torn w p raw w') (t : Option Bytes) : Torn w p raw (w'.put (.temporary p) t) := by
  obtain ⟨c, t', known, rfl⟩ := torn
  exact ⟨c, t, known, World.put_put ..⟩

theorem once_ends {s : Site} {f : World → World} {E : String → World → Prop} (fails : ∀ way, failing = some (s, way) → E osError w ∧ E osError (f w)) :
    Ends failing (once s f) (fun _ w' => w' = f w ∧ Clear failing s) E w := by
  refine Ends.operate (fun clear => ⟨rfl, clear⟩) fun way hit => ?_
  obtain ⟨before, after⟩ := fails way hit
  split
  · exact before
  · exact after

theorem once_stays {s : Site} {f : World → World} {J : World → Prop} (h : ∀ w, J w → J (f w)) : Stays J (once s f) :=
  fun _ _ hw => (once_ends fun _ _ => ⟨hw, h _ hw⟩).weaken (fun _ _ last => last.1 ▸ h _ hw) fun _ _ last => last

def Hit (failing : Option (Site × ℕ)) (site : Put → Site) (steps : List Put) : Prop := ¬∀ put ∈ steps, Clear failing (site put)

theorem Hit.of {put : Put} {steps : List Put} (there : put ∈ steps) {way : ℕ} (hit : failing = some (site put, way)) :
    Hit failing site steps := fun clear => clear put there way hit

theorem fill_ends (t : Option Bytes) : Ends failing (Program.ensure (do
      Program.when (mode = true) (touch (site .chmod))
      operate (site .write) osError (World.put (.temporary p) (some raw)) fun way => World.put (.temporary p) (some (raw.take way))
      touch (site .flush)
      touch (site .fsync)) (touch (site .close)) : Act Unit)
    (fun _ w' => w' = w.put (.temporary p) (some raw) ∧ (mode = true → Clear failing (site .chmod)) ∧
      ∀ put ∈ [Put.write, .flush, .fsync, .close], Clear failing (site put))
    (fun _ w' => Torn w p raw w' ∧ Hit failing site (swapSteps mode)) (w.put (.temporary p) t) := by
  have step : ∀ put ∈ [Put.write, .flush, .fsync, .close], put ∈ swapSteps mode := by
    intro put there
    cases mode <;> simp [swapSteps] at there ⊢ <;> tauto
  refine Ends.ensure (G := fun _ w' => w' = w.put (.temporary p) (some raw) ∧ (mode = true → Clear failing (site .chmod)) ∧
    Clear failing (site .write) ∧ Clear failing (site .flush) ∧ Clear failing (site .fsync))
    (H := fun _ w' => Torn w p raw w' ∧ Hit failing site (swapSteps mode)) ?_ ?_ ?_
  · refine Ends.bind (F := fun _ w' => w' = w.put (.temporary p) t ∧ (mode = true → Clear failing (site .chmod))) ?_ ?_
    · refine Ends.when (fun on => ?_) fun off => ⟨rfl, fun on => absurd on off⟩
      refine Ends.operate (fun clear => ⟨rfl, fun _ => clear⟩) fun way hit => ⟨torn_temporary t, Hit.of ?_ hit⟩
      rw [on]
      decide
    rintro - w' ⟨rfl, chmod⟩
    refine Ends.bind (F := fun _ w' => w' = w.put (.temporary p) (some raw) ∧ Clear failing (site .write)) ?_ ?_
    · refine Ends.operate (fun clear => ⟨World.put_put .., clear⟩) fun way hit => ⟨?_, Hit.of (step _ (by simp)) hit⟩
      exact (torn_temporary t).put _
    rintro - w' ⟨rfl, write⟩
    refine Ends.bind (F := fun _ w' => w' = w.put (.temporary p) (some raw) ∧ Clear failing (site .flush)) ?_ ?_
    · exact Ends.operate (fun clear => ⟨rfl, clear⟩) fun way hit => ⟨torn_temporary _, Hit.of (step _ (by simp)) hit⟩
    rintro - w' ⟨rfl, flush⟩
    exact Ends.operate (fun clear => ⟨rfl, chmod, write, flush, clear⟩) fun way hit =>
      ⟨torn_temporary _, Hit.of (step _ (by simp)) hit⟩
  · rintro - w' ⟨rfl, chmod, write, flush, fsync⟩
    refine Ends.operate (fun close => ⟨rfl, chmod, ?_⟩) fun way hit => ⟨torn_temporary _, Hit.of (step _ (by simp)) hit⟩
    intro put there
    simp only [List.mem_cons, List.not_mem_nil, or_false] at there
    rcases there with rfl | rfl | rfl | rfl
    · exact write
    · exact flush
    · exact fsync
    · exact close
  · rintro e w' last
    exact Ends.operate (fun _ => last) fun _ _ => last

theorem swap_ends : Ends failing (swap site p raw mode)
    (fun _ w' => w' = (w.put p (some raw)).put (.temporary p) none ∧ ∀ put ∈ swapSteps mode, Clear failing (site put))
    (fun _ w' => Torn w p raw w' ∧ Hit failing site (swapSteps mode)) w := by
  have first : Put.opens ∈ swapSteps mode := List.mem_cons_self
  have later : ∀ put ∈ [Put.replace, .exists], put ∈ swapSteps mode := by
    intro put there
    cases mode <;> simp [swapSteps] at there ⊢ <;> tauto
  unfold swap
  refine Ends.ensure (G := fun _ w' => w' = (w.put p (some raw)).put (.temporary p) none ∧
    ∀ put ∈ swapSteps mode, put ≠ .exists → Clear failing (site put))
    (H := fun _ w' => Torn w p raw w' ∧ Hit failing site (swapSteps mode)) ?_ ?_ ?_
  · have before : Torn w p raw w := ⟨_, w.disk.file (.temporary p), .inl rfl, by rw [World.put_same, World.put_same]⟩
    refine (once_ends fun way hit => ⟨⟨before, Hit.of first hit⟩, torn_temporary _, Hit.of first hit⟩).bind ?_
    rintro - w' ⟨rfl, opens⟩
    refine (fill_ends (w := w) (some [])).bind ?_
    rintro - w' ⟨rfl, chmod, filled⟩
    have renamed : (w.put (.temporary p) (some raw)).rename (.temporary p) p = (w.put p (some raw)).put (.temporary p) none := by
      unfold World.rename
      rw [World.file_put, World.put_comm _ _ _ _ _ (Place.ne_temporary p).symm, World.put_put]
    have after : Torn w p raw ((w.put (.temporary p) (some raw)).rename (.temporary p) p) := ⟨some raw, none, .inr rfl, renamed⟩
    refine (once_ends fun way hit => ⟨⟨torn_temporary _, Hit.of (later _ (by simp)) hit⟩, after, Hit.of (later _ (by simp)) hit⟩).weaken
      ?_ fun _ _ last => last
    rintro - w' ⟨rfl, replace⟩
    refine ⟨renamed, fun put there notLast => ?_⟩
    cases mode <;> simp [swapSteps] at there filled chmod
    · rcases there with rfl | rfl | rfl | rfl | rfl | rfl | rfl
      · exact opens
      · exact filled.1
      · exact filled.2.1
      · exact filled.2.2.1
      · exact filled.2.2.2
      · exact replace
      · exact absurd rfl notLast
    · rcases there with rfl | rfl | rfl | rfl | rfl | rfl | rfl | rfl
      · exact opens
      · exact chmod
      · exact filled.1
      · exact filled.2.1
      · exact filled.2.2.1
      · exact filled.2.2.2
      · exact replace
      · exact absurd rfl notLast
  · rintro - w' ⟨rfl, clear⟩
    refine Ends.bind (F := fun there w' => there = false ∧ w' = (w.put p (some raw)).put (.temporary p) none ∧
      Clear failing (site .exists)) ?_ ?_
    · refine Ends.examine (fun last => ⟨?_, rfl, last⟩) fun way hit => ⟨⟨some raw, none, .inr rfl, rfl⟩, Hit.of (later _ (by simp)) hit⟩
      change ((World.put p.temporary none (World.put p (some raw) w)).disk.file p.temporary).isSome = false
      rw [World.file_put]
      rfl
    · rintro there w' ⟨rfl, rfl, last⟩
      refine Ends.when (fun absent => by cases absent) fun _ => ⟨rfl, fun put known => ?_⟩
      by_cases same : put = .exists
      · rw [same]
        exact last
      · exact clear put known same
  · rintro e w' ⟨torn, hit⟩
    have stays : Stays (fun w' => Torn w p raw w' ∧ Hit failing site (swapSteps mode)) (do
        let there ← ask (site .exists) fun d => (d.file (.temporary p)).isSome
        Program.when (there = true) (once (site .unlink) (World.put (.temporary p) none))) :=
      ask_stays.bind fun _ => Stays.when (once_stays fun _ last => ⟨last.1.put none, last.2⟩)
    exact stays failing w' ⟨torn, hit⟩

end writes

/-- The configuration files are `F`; links are as before, and only documents are recorded as written evidence. -/
structure Holds (w₀ : World) (F : Bool → Doc → Option Bytes) (w : World) : Prop where
  config : ∀ own doc, w.disk.file (.config own doc) = F own doc
  linked : w.disk.linked = w₀.disk.linked
  parentLinked : w.disk.parentLinked = w₀.disk.parentLinked
  rootLinked : w.disk.rootLinked = w₀.disk.rootLinked
  evidence : ∀ p ∈ w.writtenEvidence, ∃ name, p = .evidence name

def World.files (w : World) (own : Bool) (doc : Doc) : Option Bytes := w.disk.file (.config own doc)

def Place.Other (p : Place) : Prop := ∀ own doc, p ≠ .config own doc

theorem other_inside (folder : Folder) (name : String) : (Place.inside folder name).Other := fun _ _ same => by cases same

theorem other_evidence (name : String) : (Place.evidence name).Other := fun _ _ same => by cases same

theorem other_temporary (p : Place) : (Place.temporary p).Other := fun _ _ same => by cases same

section holds
variable {env : Env} {failing : Option (Site × ℕ)} {w₀ w : World} {F : Bool → Doc → Option Bytes} {p : Place}

theorem Holds.put (h : Holds w₀ F w) (other : p.Other) (c : Option Bytes) : Holds w₀ F (w.put p c) where
  config own doc := (World.file_put_ne w _ _ _ (other own doc).symm).trans (h.config own doc)
  linked := h.linked
  parentLinked := h.parentLinked
  rootLinked := h.rootLinked
  evidence := h.evidence

theorem Holds.write (h : Holds w₀ F w) (own : Bool) (name : Name) (raw : Bytes) :
    Holds w₀ (fun own' doc => if own' = own ∧ doc = .config name then some raw else F own' doc)
      (w.put (.config own (.config name)) (some raw)) where
  config own' doc := by
    split
    · next same =>
      rw [same.1, same.2]
      exact World.file_put ..
    · next different =>
      refine (World.file_put_ne w _ _ _ fun same => different ?_).trans (h.config own' doc)
      cases same
      exact ⟨rfl, rfl⟩
  linked := h.linked
  parentLinked := h.parentLinked
  rootLinked := h.rootLinked
  evidence := h.evidence

variable {raw : Bytes}

theorem Torn.holds {w' : World} (torn : Torn w p raw w') (other : p.Other) (h : Holds w₀ F w) : Holds w₀ F w' := by
  obtain ⟨c, t, -, rfl⟩ := torn
  exact (h.put other c).put (other_temporary p) t

variable {site : Put → Site}

theorem swap_stays {mode : Bool} (other : p.Other) : Stays (Holds w₀ F) (swap site p raw mode) :=
  fun _ _ h => swap_ends.weaken (fun _ _ last => last.1 ▸ (h.put other _).put (other_temporary p) _) fun _ _ last => last.1.holds other h

theorem atomicJson_stays (other : p.Other) : Stays (Holds w₀ F) (atomicJson env site p raw) :=
  ask_stays.bind fun _ => Stays.raiseIf.bind fun _ => touch_stays.bind fun _ => swap_stays other

theorem writeNew_stays {synced : Bool} {opened : World → World} (other : p.Other)
    (kept : ∀ w, Holds w₀ F w → Holds w₀ F (opened w)) : Stays (Holds w₀ F) (writeNew site p raw synced opened) := by
  refine Stays.peek.bind fun _ => Stays.raiseIf.bind fun _ => (once_stays fun _ h => h.put other _).bind fun _ => ?_
  refine Stays.ensure ((Stays.alter kept).bind fun _ => Stays.bind ?_ fun _ => Stays.when (touch_stays.bind fun _ => touch_stays))
    touch_stays
  exact Stays.operate (fun _ h => h.put other _) fun _ _ h => h.put other _

theorem makeFolder_stays {folder : Folder} : Stays (Holds w₀ F) (makeFolder folder) :=
  Stays.peek.bind fun _ => Stays.raiseIf.bind fun _ => once_stays fun _ h =>
    ⟨h.config, h.linked, h.parentLinked, h.rootLinked, h.evidence⟩

theorem verifySources_stays {second : Bool} {setup : Value} {J : World → Prop} : Stays J (verifySources env second setup) :=
  Stays.lift.bind fun _ => Stays.when (touch_stays.bind fun _ => Stays.peek.bind fun _ => Stays.lift)

theorem dropEvidence_stays {undo : Bool} : Stays (Holds w₀ F) (dropEvidence undo) := by
  intro failing w h
  refine (Ends.peek (F := fun written w' => Holds w₀ F w' ∧ ∀ p ∈ written, ∃ name, p = Place.evidence name) ⟨h, h.evidence⟩).bind ?_
  rintro written w' ⟨h, known⟩
  refine (Ends.forEach (K := fun rest w' => Holds w₀ F w' ∧ ∀ p ∈ rest, ∃ name, p = Place.evidence name) ⟨h, known⟩ ?_).weaken
    (fun _ _ last => last.1) fun _ _ last => last
  rintro p rest w'' ⟨h, known⟩
  obtain ⟨name, rfl⟩ := known p List.mem_cons_self
  have kept : Stays (Holds w₀ F) (once (.dropEvidence undo (.evidence name)) (World.put (.evidence name) none)) :=
    once_stays fun _ h => h.put (other_evidence name) none
  exact (kept failing w'' h).weaken (fun _ _ last => ⟨last, fun p there => known p (List.mem_cons_of_mem _ there)⟩) fun _ _ last => last

theorem keepEvidence_stays (entry : Source × Bytes) : Stays (Holds w₀ F) (keepEvidence env entry) := by
  refine ordinary_stays.bind fun _ => touch_stays.bind fun _ => writeNew_stays (other_evidence _) fun w h =>
    ⟨h.config, h.linked, h.parentLinked, h.rootLinked, fun p there => ?_⟩
  rcases List.mem_append.mp there with old | new
  · exact h.evidence p old
  · exact ⟨entry.1.file, List.mem_singleton.mp new⟩

theorem keepAll_stays {r : Request} {setup : Value} {pending : List (Source × Bytes)} :
    Stays (Holds w₀ F) (keepAll env r setup pending) :=
  ((Stays.forEach keepEvidence_stays).bind fun _ => Stays.when verifySources_stays).handle fun _ =>
    dropEvidence_stays.bind fun _ => Stays.raise _

/-! ### The guarded writes -/

/-- The selected files have the contents `f`, the other ones those of `w₀`. -/
def image (w₀ : World) (paths : Name → Bool) (f : Name → Bytes) (own : Bool) : Doc → Option Bytes
  | .config name => if own = paths name then some (f name) else w₀.files own (.config name)
  | doc => w₀.files own doc

def Loads (env : Env) (f : Name → Bytes) : Prop := ∀ name, ∃ v, env.loads (f name) = .ok v

structure Ready (env : Env) (w₀ : World) (plan : Plan) : Prop where
  readable : Readable env w₀.disk
  paths : ∀ name, plan.paths name = w₀.disk.own (.config name)
  raw : ∀ name, w₀.disk.file (.config (plan.paths name) (.config name)) = some (plan.raw name)
  kept : ∀ name, name ∉ plan.changed → plan.encoded name = plan.raw name
  loads : Loads env plan.encoded

variable {plan : Plan} {f : Name → Bytes}

theorem Ready.loads_raw (ready : Ready env w₀ plan) : Loads env plan.raw := by
  intro name
  obtain ⟨raw, v, there, loaded⟩ := (ready.readable.selectable name).readable
  rw [← ready.paths] at there
  cases (ready.raw name).symm.trans there
  exact ⟨v, loaded⟩

theorem image_raw (ready : Ready env w₀ plan) : image w₀ plan.paths plan.raw = w₀.files := by
  funext own doc
  cases doc with
  | config name =>
    change (if own = plan.paths name then some (plan.raw name) else w₀.files own (.config name)) = _
    split
    · next same =>
      rw [same]
      exact (ready.raw name).symm
    · rfl
  | wheel => rfl
  | bindings => rfl
  | localBindings => rfl

theorem image_own (ready : Ready env w₀ plan) (h : Holds w₀ (image w₀ plan.paths f) w) (name : Name) :
    w.disk.own (.config name) = plan.paths name := by
  unfold Disk.own
  rw [h.config true (.config name)]
  cases selected : plan.paths name with
  | true => simp [image, selected]
  | false =>
    have absent : w₀.disk.own (.config name) = false := (ready.paths name).symm.trans selected
    simp only [image, selected, Bool.true_eq_false, if_false]
    exact absent

theorem image_file (h : Holds w₀ (image w₀ plan.paths f) w) (name : Name) :
    w.disk.file (.config (plan.paths name) (.config name)) = some (f name) := by
  rw [h.config]
  simp [image]

theorem image_selectable (ready : Ready env w₀ plan) (h : Holds w₀ (image w₀ plan.paths f) w) (loads : Loads env f) (name : Name) :
    Selectable env w.disk (.config name) := by
  have before := ready.readable.selectable name
  obtain ⟨v, loaded⟩ := loads name
  refine ⟨h.rootLinked.trans before.root, ?_, ?_, f name, v, ?_, loaded⟩
  · rw [h.linked]
    exact before.ownLink
  · rw [h.linked, image_own ready h, ready.paths]
    exact before.link
  · rw [image_own ready h]
    exact image_file h name

/-- The operations in the `try` of the guarded writes. -/
def Site.guarded : Site → Bool
  | .select (.guarded _) _ _ => true
  | .selected (.guarded _) _ => true
  | .bytes _ _ _ => true
  | .config false _ _ => true
  | _ => false

def Guarded (failing : Option (Site × ℕ)) : Prop := ∃ site way, failing = some (site, way) ∧ site.guarded = true

theorem Guarded.clear (hit : Guarded failing) {site : Site} (other : site.guarded = false) : Clear failing site := by
  obtain ⟨failed, way, rfl, inside⟩ := hit
  intro way' same
  cases same
  rw [inside] at other
  cases other

theorem guarded_of_not_clear {site : Site} (inside : site.guarded = true) (hit : ¬Clear failing site) : Guarded failing := by
  obtain ⟨way, same⟩ := not_forall_not.mp hit
  exact ⟨site, way, same, inside⟩

/-- A call of `selected_paths` can only end by an operation of its own. -/
theorem passes_of_clear {call : Call} (clear : ∀ site : Site, (∃ name step, site = .select call (.config name) step) ∨
    (∃ name, site = .selected call name) → Clear failing site) : Passes failing call :=
  ⟨fun name step => clear _ (.inl ⟨name, step, rfl⟩), fun name => clear _ (.inr ⟨name, rfl⟩)⟩

theorem requireBytes_ends (ready : Ready env w₀ plan) (h : Holds w₀ (image w₀ plan.paths f) w) (loads : Loads env f) (next : Option Name) :
    Ends failing (requireBytes env next plan.paths f) (fun _ w' => w' = w) (fun _ w' => w' = w ∧ Guarded failing) w := by
  have selectable := image_selectable ready h loads
  have own := image_own ready h
  have body : Decides failing (((Passes failing (.guarded next) ∧ ∀ name, Selectable env w.disk (.config name)) ∧
      ∀ name, plan.paths name = w.disk.own (.config name)) ∧
      ∀ name ∈ files, (Clear failing (.bytes next name false) ∧ w.disk.linked (.config (plan.paths name) (.config name)) = false) ∧
        (Clear failing (.bytes next name true) ∧ ∃ c, w.disk.file (.config (plan.paths name) (.config name)) = some c) ∧
        ∀ c, w.disk.file (.config (plan.paths name) (.config name)) = some c → ¬c ≠ f name)
      (requireBytes env next plan.paths f) (fun _ => True) w := by
    refine requirePaths_decides.bind fun _ _ _ => Decides.forEach fun name _ => ?_
    refine ordinary_decides.bind fun _ _ _ => fetch_decides.bind fun content here _ => Decides.raiseIf.weaken ?_ fun _ _ _ => trivial
    constructor
    · intro same c there
      cases here.symm.trans there
      exact same
    · exact fun all => all content here
  refine Ends.weaken body (fun _ _ last => last.1) fun _ w' last => ⟨last.1, ?_⟩
  by_contra clear
  refine last.2 ⟨⟨⟨passes_of_clear ?_, selectable⟩, fun name => (own name).symm⟩, fun name _ => ⟨⟨?_, ?_⟩, ⟨?_, f name, image_file h name⟩, ?_⟩⟩
  · rintro site (⟨name, step, rfl⟩ | ⟨name, rfl⟩)
    · by_contra hit
      exact clear (guarded_of_not_clear rfl hit)
    · by_contra hit
      exact clear (guarded_of_not_clear rfl hit)
  · by_contra hit
    exact clear (guarded_of_not_clear rfl hit)
  · rw [← own name]
    exact (selectable name).link
  · by_contra hit
    exact clear (guarded_of_not_clear rfl hit)
  · intro c there different
    rw [image_file h name] at there
    exact different (Option.some.inj there).symm

theorem writeConfig_ends (ready : Ready env w₀ plan) (h : Holds w₀ (image w₀ plan.paths f) w) (undo : Bool) (name : Name) (raw : Bytes) :
    Ends failing (writeConfig env undo name (plan.paths name) raw)
      (fun _ w' => Holds w₀ (image w₀ plan.paths (Function.update f name raw)) w')
      (fun _ w' => (∃ f', (f' = f ∨ f' = Function.update f name raw) ∧ Holds w₀ (image w₀ plan.paths f') w') ∧
        ∃ put, ¬Clear failing (.config undo name put)) w := by
  let p := Place.config (plan.paths name) (.config name)
  have here : ∃ f', (f' = f ∨ f' = Function.update f name raw) ∧ Holds w₀ (image w₀ plan.paths f') w := ⟨f, .inl rfl, h⟩
  have written : ∀ t, Holds w₀ (image w₀ plan.paths (Function.update f name raw)) ((w.put p (some raw)).put (.temporary p) t) := by
    intro t
    have after := (h.write (plan.paths name) name raw).put (other_temporary p) t
    refine ⟨fun own doc => (after.config own doc).trans ?_, after.linked, after.parentLinked, after.rootLinked, after.evidence⟩
    cases doc with
    | config other =>
      by_cases same : other = name
      · subst same
        by_cases mine : own = plan.paths other
        · simp [image, mine]
        · simp [image, mine]
      · simp [image, same]
    | wheel | bindings | localBindings => simp [image]
  have link : w.disk.linked p = false := by
    rw [h.linked]
    have before := (ready.readable.selectable name).link
    rwa [← ready.paths] at before
  refine Ends.bind (F := fun _ w' => w' = w) ?_ ?_
  · refine Ends.weaken ordinary_decides (fun _ _ last => last.1) fun _ w' last => ?_
    refine ⟨last.1 ▸ here, .link, fun clear => last.2 ⟨clear, link⟩⟩
  rintro - w' same
  subst w'
  refine Ends.bind (F := fun there w' => there = true ∧ w' = w) ?_ ?_
  · refine Ends.examine (fun _ => ⟨?_, rfl⟩) fun way hit => ⟨here, .stat, fun clear => clear way hit⟩
    change (w.disk.file p).isSome = true
    rw [image_file h name]
    rfl
  rintro there w' ⟨rfl, same⟩
  subst w'
  refine Ends.bind (F := fun _ w' => w' = w) (Ends.raiseIf (fun absent => by cases absent) fun _ => rfl) ?_
  rintro - w' same
  subst w'
  refine swap_ends.weaken (fun _ w' last => last.1 ▸ written none) fun _ w' last => ⟨?_, ?_⟩
  · obtain ⟨c, t, old | new, rfl⟩ := last.1
    · refine ⟨f, .inl rfl, ?_⟩
      rw [old, World.put_same]
      exact h.put (other_temporary p) t
    · exact ⟨_, .inr rfl, new ▸ written t⟩
  · obtain ⟨put, hit⟩ := not_forall.mp last.2
    exact ⟨put, fun clear => hit fun _ => clear⟩

/-- Each file of the loop is written, or some are and an operation of the `try` has failed. -/
theorem replaceAll_ends (ready : Ready env w₀ plan) : ∀ (list : List Name) (f : Name → Bytes) (w : World),
    Holds w₀ (image w₀ plan.paths f) w → Loads env f → Ends failing (replaceAll env plan list f)
      (fun _ w' => Holds w₀ (image w₀ plan.paths fun name => if name ∈ list then plan.encoded name else f name) w')
      (fun _ w' => (∃ f', (∀ name, f' name = f name ∨ (name ∈ list ∧ f' name = plan.encoded name)) ∧
        Holds w₀ (image w₀ plan.paths f') w') ∧ Guarded failing) w := by
  intro list
  induction list with
  | nil =>
    intro f w h loads
    refine (requireBytes_ends ready h loads none).weaken (fun _ w' same => ?_) fun _ w' last => ?_
    · subst same
      simpa using h
    · exact ⟨⟨f, fun _ => .inl rfl, last.1 ▸ h⟩, last.2⟩
  | cons name rest ih =>
    intro f w h loads
    refine Ends.bind ((requireBytes_ends ready h loads (some name)).weaken (fun _ _ same => same) fun _ w' last => ?_) ?_
    · exact ⟨⟨f, fun _ => .inl rfl, last.1 ▸ h⟩, last.2⟩
    rintro - w' rfl
    have changed : ∀ other, Function.update f name (plan.encoded name) other = f other ∨
        (other ∈ name :: rest ∧ Function.update f name (plan.encoded name) other = plan.encoded other) := by
      intro other
      by_cases same : other = name
      · subst same
        exact .inr ⟨List.mem_cons_self, Function.update_self ..⟩
      · exact .inl (Function.update_of_ne same ..)
    have loads' : Loads env (Function.update f name (plan.encoded name)) := by
      intro other
      rcases changed other with old | ⟨-, new⟩
      · rw [old]
        exact loads other
      · rw [new]
        exact ready.loads other
    refine Ends.bind ((writeConfig_ends ready h false name (plan.encoded name)).weaken (fun _ _ last => last) fun _ w' last => ?_) ?_
    · obtain ⟨⟨f', known, holds⟩, put, hit⟩ := last
      refine ⟨⟨f', fun other => ?_, holds⟩, guarded_of_not_clear rfl hit⟩
      rcases known with rfl | rfl
      · exact .inl rfl
      · exact changed other
    intro _ w' h'
    refine (ih _ w' h' loads').weaken (fun _ w'' last => ?_) fun _ w'' last => ?_
    · have same : (fun other => if other ∈ rest then plan.encoded other else Function.update f name (plan.encoded name) other) =
          fun other => if other ∈ name :: rest then plan.encoded other else f other := by
        funext other
        by_cases later : other ∈ rest
        · simp [later]
        · by_cases here : other = name
          · subst here
            simp
          · simp [later, here]
      rwa [same] at last
    · obtain ⟨⟨f', known, holds⟩, hit⟩ := last
      refine ⟨⟨f', fun other => ?_, holds⟩, hit⟩
      rcases known other with old | ⟨there, new⟩
      · rw [old]
        exact changed other
      · exact .inr ⟨List.mem_cons_of_mem _ there, new⟩

/-- Where the `try` has failed, its handler writes every file back. -/
theorem undo_ends (ready : Ready env w₀ plan) (r : Request) (hit : Guarded failing) {f : Name → Bytes}
    (known : ∀ name, f name = plan.raw name ∨ (name ∈ plan.changed ∧ f name = plan.encoded name))
    (h : Holds w₀ (image w₀ plan.paths f) w) :
    Ends failing (undo env r plan) (fun _ w' => Holds w₀ w₀.files w') (fun _ _ => False) w := by
  have loads : ∀ f : Name → Bytes, (∀ name, f name = plan.raw name ∨ f name = plan.encoded name) → Loads env f := by
    intro f known name
    rcases known name with old | new
    · rw [old]
      exact ready.loads_raw name
    · rw [new]
      exact ready.loads name
  have passes : ∀ call : Call, (∀ doc step, (Site.select call doc step).guarded = false) →
      (∀ name, (Site.selected call name).guarded = false) → Passes failing call :=
    fun call steps links => ⟨fun name step => hit.clear (steps (.config name) step), fun name => hit.clear (links name)⟩
  have free : ∀ name, f name = plan.raw name ∨ f name = plan.encoded name := fun name => (known name).imp_right And.right
  have selectable := image_selectable ready h (loads f free)
  have own := image_own ready h
  refine Ends.bind (F := fun _ w' => w' = w) (Ends.weaken requirePaths_decides (fun _ _ last => last.1) fun _ _ last => last.2 ?_) ?_
  · exact ⟨⟨passes .undo (fun _ _ => rfl) fun _ => rfl, selectable⟩, fun name => (own name).symm⟩
  rintro - w' same
  subst w'
  refine Ends.bind (F := fun _ w' => w' = w) ?_ ?_
  · refine Ends.weaken (Decides.forEach (P := fun name => (Clear failing (.compare name false) ∧
      w.disk.linked (.config (plan.paths name) (.config name)) = false) ∧
      (Clear failing (.compare name true) ∧ ∃ c, w.disk.file (.config (plan.paths name) (.config name)) = some c) ∧
      ∀ c, w.disk.file (.config (plan.paths name) (.config name)) = some c → ¬(c ≠ plan.raw name ∧ c ≠ plan.encoded name))
      fun name _ => ?_) (fun _ _ last => last.1) fun _ _ last => last.2 fun name _ => ?_
    · refine ordinary_decides.bind fun _ _ _ => fetch_decides.bind fun content here _ => Decides.raiseIf.weaken ?_ fun _ _ _ => trivial
      constructor
      · intro same c there
        cases here.symm.trans there
        exact same
      · exact fun all => all content here
    · refine ⟨⟨hit.clear rfl, ?_⟩, ⟨hit.clear rfl, f name, image_file h name⟩, fun c there different => ?_⟩
      · rw [← own name]
        exact (selectable name).link
      · cases (image_file h name).symm.trans there
        rcases free name with old | new
        · exact different.1 old
        · exact different.2 new
  rintro - w' rfl
  let K (rest : List Name) (w' : World) : Prop := ∃ f, (∀ name, f name = plan.raw name ∨ (name ∈ rest ∧ f name = plan.encoded name)) ∧
    Holds w₀ (image w₀ plan.paths f) w'
  refine Ends.bind (Ends.forEach (K := K) ⟨f, known, h⟩ ?_) ?_
  · rintro name rest w' ⟨f, known, h⟩
    have loads := loads f fun name => (known name).imp_right And.right
    refine Ends.bind (F := fun _ w'' => w'' = w') (Ends.weaken requirePaths_decides (fun _ _ last => last.1) fun _ _ last => last.2 ?_) ?_
    · exact ⟨⟨passes (.undoing name) (fun _ _ => rfl) fun _ => rfl, image_selectable ready h loads⟩,
        fun other => (image_own ready h other).symm⟩
    rintro - w'' rfl
    refine (writeConfig_ends ready h true name (plan.raw name)).weaken (fun _ w'' last => ⟨_, fun other => ?_, last⟩) fun _ _ last => ?_
    · by_cases same : other = name
      · subst same
        exact .inl (Function.update_self ..)
      · rw [Function.update_of_ne same]
        exact (known other).imp_right fun later => ⟨(List.mem_cons.mp later.1).resolve_left same, later.2⟩
    · obtain ⟨-, put, failed⟩ := last
      exact failed (hit.clear rfl)
  · rintro - w' ⟨f, known, h⟩
    have same : f = plan.raw := funext fun name => (known name).resolve_right fun later => List.not_mem_nil later.1
    rw [same, image_raw ready] at h
    refine Ends.bind (F := fun written w'' => Holds w₀ w₀.files w'' ∧ ∀ p ∈ written, ∃ name, p = Place.evidence name)
      (Ends.peek ⟨h, h.evidence⟩) ?_
    rintro written w'' ⟨h, known⟩
    refine (Ends.forEach (K := fun rest w'' => Holds w₀ w₀.files w'' ∧ ∀ p ∈ rest, ∃ name, p = Place.evidence name) ⟨h, known⟩ ?_).weaken
      (fun _ _ last => last.1) fun _ _ last => last
    rintro p rest w'' ⟨h, known⟩
    obtain ⟨name, rfl⟩ := known p List.mem_cons_self
    refine (once_ends fun way failed => (hit.clear rfl way failed).elim).weaken (fun _ w''' last => ?_) fun _ _ last => last
    rw [last.1]
    exact ⟨h.put (other_evidence name) none, fun p there => known p (List.mem_cons_of_mem _ there)⟩

theorem commit_ends (ready : Ready env w₀ plan) (r : Request) (h : Holds w₀ w₀.files w) :
    Ends failing (commit env r plan) (fun _ w' => Holds w₀ (image w₀ plan.paths plan.encoded) w')
      (fun _ w' => Holds w₀ w₀.files w' ∧ Guarded failing) w := by
  rw [← image_raw ready] at h
  refine Ends.handle ((replaceAll_ends ready plan.changed plan.raw w h ready.loads_raw).weaken (fun _ w' last => ?_) fun _ _ last => last) ?_
  · have same : (fun name => if name ∈ plan.changed then plan.encoded name else plan.raw name) = plan.encoded := by
      funext name
      split
      · rfl
      · next unchanged => exact (ready.kept name unchanged).symm
    rwa [same] at last
  · rintro e w' ⟨⟨f, known, h⟩, hit⟩
    refine Ends.bind ((undo_ends ready r hit known h).weaken (fun _ _ last => last) fun _ _ last => last.elim) ?_
    exact fun _ _ last => Ends.raise ⟨last, hit⟩

end holds

end Smartwheel.Parameters
