import Mathlib.Data.List.Infix
import Smartwheel.Calibration.Value
import Smartwheel.Effect.Check

/-! The settings of the panel: one file that `update_settings` and `start_offline` read as a whole and write as a whole. Each writes its own
fields and carries the others over. -/
namespace Smartwheel.PanelSettings
open Effect
open Smartwheel.Calibration (Value Fields)

structure Settings where
  recordingRoot : Value
  resultsRoot : Value
  autoCompact : Bool

def isOne : Value → Bool
  | .int n => n == 1
  | .float q => q == 1
  | .bool b => b
  | _ => false

def boolOf : Value → Except String Bool
  | .bool b => .ok b
  | _ => .error "自动压缩设置必须为布尔值"

/-- `value[key]`. -/
def item (fields : Fields) (key : String) : Except String Value :=
  match fields.lookup key with
  | some v => .ok v
  | none => .error "KeyError"

/-- `settings`, of what the file holds. -/
def settings (defaults : Settings) : Option Value → Except String Settings
  | none => .ok defaults
  | some (.object value) => do
    refuse (!isOne (Fields.get value "schema_version")) "面板路径配置版本错误"
    let compact ← boolOf ((value.lookup "auto_compact").getD (.bool true))
    let recordingRoot ← item value "recording_root"
    let resultsRoot ← item value "results_root"
    return ⟨recordingRoot, resultsRoot, compact⟩
  | some _ => .error "AttributeError"

def document (s : Settings) (updatedAt : ℚ) : Value :=
  .object [("schema_version", .int 1), ("recording_root", s.recordingRoot), ("results_root", s.resultsRoot),
    ("auto_compact", .bool s.autoCompact), ("updated_at", .float updatedAt)]

theorem settings_document (defaults s : Settings) (updatedAt : ℚ) : settings defaults (some (document s updatedAt)) = .ok s := rfl

inductive Operation where
  | updateSettings (recordingRoot resultsRoot : String)
  | startOffline (autoCompact : Option Bool)

/-- The settings that a call writes where it has read `current`. -/
def Operation.written (current : Settings) : Operation → Settings
  | .updateSettings recordingRoot resultsRoot => ⟨.text recordingRoot, .text resultsRoot, current.autoCompact⟩
  | .startOffline autoCompact => { current with autoCompact := autoCompact.getD current.autoCompact }

def Operation.remembers : Operation → Bool
  | .updateSettings _ _ => true
  | .startOffline autoCompact => autoCompact.isSome

/-- Only `start_offline` holds the lock of the panel. -/
def Operation.locks : Operation → Bool
  | .updateSettings _ _ => false
  | .startOffline _ => true

inductive Phase where
  | waiting
  | begun
  | loaded (current : Settings)
  | written
  | returned
  | raised

inductive Part where
  | begin
  | read
  | write (time : ℚ)
  | pass
  | return
  | raise

structure Panel where
  file : Option Value
  lock : Option ℕ
  phase : ℕ → Phase
  roots : Option (Value × Value)
  compact : Option Bool

namespace Panel

def goto (s : Panel) (i : ℕ) (phase : Phase) : Panel := { s with phase := fun j => if j = i then phase else s.phase j }

def release (s : Panel) (i : ℕ) : Panel := if s.lock = some i then { s with lock := none } else s

def replace (s : Panel) (operation : Operation) (current : Settings) (time : ℚ) : Panel :=
  let written := operation.written current
  { s with
    file := some (document written time)
    roots := match operation with
      | .updateSettings _ _ => some (written.recordingRoot, written.resultsRoot)
      | .startOffline _ => s.roots
    compact := match operation with
      | .updateSettings _ _ => s.compact
      | .startOffline _ => some written.autoCompact }

def act (defaults : Settings) (operation : ℕ → Operation) (s : Panel) (i : ℕ) (part : Part) : Option Panel :=
  match s.phase i, part with
  | .waiting, .begin =>
    if (operation i).locks then (if s.lock.isNone then some { s.goto i .begun with lock := some i } else none) else some (s.goto i .begun)
  | .begun, .read =>
    if (operation i).remembers then
      match settings defaults s.file with
      | .ok current => some (s.goto i (.loaded current))
      | .error _ => none
    else none
  | .begun, .pass => if (operation i).remembers then none else some (s.goto i .written)
  | .loaded current, .write time => some ((s.replace (operation i) current time).goto i .written)
  | .written, .return => some ((s.goto i .returned).release i)
  | .begun, .raise => some ((s.goto i .raised).release i)
  | .loaded _, .raise => some ((s.goto i .raised).release i)
  | .written, .raise => some ((s.goto i .raised).release i)
  | _, _ => none

def start (file : Option Value) : Panel := ⟨file, none, fun _ => .waiting, none, none⟩

def run (defaults : Settings) (operation : ℕ → Operation) (file : Option Value) (events : List (ℕ × Part)) : Option Panel :=
  events.foldlM (fun s event => s.act defaults operation event.1 event.2) (start file)

def Idle (s : Panel) : Prop := ∀ i, s.phase i = .waiting ∨ s.phase i = .returned ∨ s.phase i = .raised

def Kept (defaults : Settings) (s : Panel) : Prop :=
  (∀ roots, s.roots = some roots → ∃ stored, settings defaults s.file = .ok stored ∧ (stored.recordingRoot, stored.resultsRoot) = roots) ∧
    ∀ compact, s.compact = some compact → ∃ stored, settings defaults s.file = .ok stored ∧ stored.autoCompact = compact

def Spares (defaults : Settings) (operation : Operation) (s s' : Panel) : Prop :=
  ∀ stored stored', settings defaults s.file = .ok stored → settings defaults s'.file = .ok stored' →
    match operation with
    | .updateSettings _ _ => stored'.autoCompact = stored.autoCompact
    | .startOffline _ => (stored'.recordingRoot, stored'.resultsRoot) = (stored.recordingRoot, stored.resultsRoot)

def UpToDate (operation : Operation) (current : Settings) (s : Panel) : Prop :=
  match operation with
  | .updateSettings _ _ => ∀ compact, s.compact = some compact → current.autoCompact = compact
  | .startOffline _ => ∀ roots, s.roots = some roots → (current.recordingRoot, current.resultsRoot) = roots

end Panel

open Panel

structure Preserved (defaults : Settings) (operation : ℕ → Operation) (file : Option Value) (events : List (ℕ × Part)) : Prop where
  kept : ∀ s, run defaults operation file events = some s → s.Idle → s.Kept defaults
  spared : ∀ before i time s s', before ++ [(i, .write time)] <+: events → run defaults operation file before = some s →
    s.act defaults operation i (.write time) = some s' → Spares defaults (operation i) s s'

def Undisturbed (defaults : Settings) (operation : ℕ → Operation) (file : Option Value) (events : List (ℕ × Part)) : Prop :=
  ∀ before i time s current, before ++ [(i, .write time)] <+: events → run defaults operation file before = some s →
    s.phase i = .loaded current → UpToDate (operation i) current s

section calls
variable {defaults : Settings} {operation : ℕ → Operation} {file : Option Value} {s s' : Panel} {i : ℕ} {part : Part}

theorem run_concat (events : List (ℕ × Part)) (event : ℕ × Part) :
    run defaults operation file (events ++ [event]) =
      (run defaults operation file events).bind fun s => s.act defaults operation event.1 event.2 := by
  unfold run
  rw [List.foldlM_append]
  exact congrArg _ (funext fun s => by simp)

/-! ### One part of a call -/

inductive Moved (defaults : Settings) (operation : ℕ → Operation) (s : Panel) (i : ℕ) : Part → Panel → Prop
  | reads {current : Settings} {s' : Panel} (read : settings defaults s.file = .ok current) (file : s'.file = s.file) (roots : s'.roots = s.roots)
    (compact : s'.compact = s.compact) (phase : ∀ j stored, s'.phase j = .loaded stored → s.phase j = .loaded stored ∨ stored = current) :
    Moved defaults operation s i .read s'
  | writes {current : Settings} {time : ℚ} (loaded : s.phase i = .loaded current) :
    Moved defaults operation s i (.write time) ((s.replace (operation i) current time).goto i .written)
  | rests {part : Part} {s' : Panel} (file : s'.file = s.file) (roots : s'.roots = s.roots) (compact : s'.compact = s.compact)
    (phase : ∀ j stored, s'.phase j = .loaded stored → s.phase j = .loaded stored) (quiet : ∀ time, part ≠ .write time) :
    Moved defaults operation s i part s'

theorem goto_loaded {phase : Phase} {j : ℕ} {stored : Settings} (h : (s.goto i phase).phase j = .loaded stored) :
    s.phase j = .loaded stored ∨ phase = .loaded stored := by
  unfold Panel.goto at h
  dsimp only at h
  split at h
  · exact .inr h
  · exact .inl h

theorem release_eq (s : Panel) (i : ℕ) : s.release i = { s with lock := (s.release i).lock } := by
  unfold Panel.release
  split <;> rfl

theorem act_moved (h : s.act defaults operation i part = some s') : Moved defaults operation s i part s' := by
  have goes {phase : Phase} (unloaded : ∀ stored, phase ≠ .loaded stored) :
      ∀ j stored, (s.goto i phase).phase j = .loaded stored → s.phase j = .loaded stored := fun j stored loaded =>
    (goto_loaded loaded).elim id fun same => absurd same (unloaded stored)
  unfold Panel.act at h
  split at h
  · split at h
    · split at h
      · cases h
        exact .rests rfl rfl rfl (goes (by simp)) (by simp)
      · cases h
    · cases h
      exact .rests rfl rfl rfl (goes (by simp)) (by simp)
  · split at h
    · split at h
      · next current read =>
        cases h
        refine .reads read rfl rfl rfl fun j stored loaded => ?_
        rcases goto_loaded loaded with before | same
        · exact .inl before
        · exact .inr (Phase.loaded.inj same).symm
      · cases h
    · cases h
  · split at h
    · cases h
    · cases h
      exact .rests rfl rfl rfl (goes (by simp)) (by simp)
  · next loaded =>
    cases h
    exact .writes loaded
  all_goals
    first
    | cases h
      rw [release_eq]
      exact .rests rfl rfl rfl (goes (by simp)) (by simp)
    | cases h

/-! ### What a field holds -/

structure Tracks {β : Type} (defaults : Settings) (file : Option Value) (field : Settings → β) (last : Panel → Option β) (s : Panel) : Prop where
  written : ∀ v, last s = some v → ∃ stored, settings defaults s.file = .ok stored ∧ field stored = v
  unwritten : last s = none → ∀ stored, (settings defaults s.file = .ok stored ∨ ∃ j, s.phase j = .loaded stored) →
    ∃ base, settings defaults file = .ok base ∧ field stored = field base

section tracks
variable {β : Type} {field : Settings → β} {last : Panel → Option β}

theorem tracks_start (none : last (start file) = none) : Tracks defaults file field last (start file) where
  written v some := by
    rw [none] at some
    cases some
  unwritten _ stored known := by
    rcases known with read | ⟨j, loaded⟩
    · exact ⟨stored, read, rfl⟩
    · cases loaded

theorem Tracks.keeps (h : Tracks defaults file field last s) (same : s'.file = s.file) (unwritten : last s' = last s)
    (phase : ∀ j stored, s'.phase j = .loaded stored → s.phase j = .loaded stored ∨ settings defaults s.file = .ok stored) :
    Tracks defaults file field last s' where
  written v some := by
    rw [same]
    exact h.written v (unwritten ▸ some)
  unwritten none stored known := by
    refine h.unwritten (unwritten ▸ none) stored ?_
    rcases known with read | ⟨j, loaded⟩
    · exact .inl (same ▸ read)
    · exact (phase j stored loaded).elim (fun before => .inr ⟨j, before⟩) .inl

theorem Tracks.write {w : Settings} (wrote : settings defaults s'.file = .ok w) (now : last s' = some (field w)) :
    Tracks defaults file field last s' where
  written v some := ⟨w, wrote, Option.some.inj (now.symm.trans some)⟩
  unwritten none := by
    rw [now] at none
    cases none

theorem Tracks.carry {w current : Settings} (h : Tracks defaults file field last s) (loaded : s.phase i = .loaded current)
    (fresh : ∀ v, last s = some v → field current = v) (wrote : settings defaults s'.file = .ok w) (carried : field w = field current)
    (same : last s' = last s) (phase : ∀ j stored, s'.phase j = .loaded stored → s.phase j = .loaded stored) :
    Tracks defaults file field last s' where
  written v some := ⟨w, wrote, carried.trans (fresh v (same ▸ some))⟩
  unwritten none stored known := by
    rw [same] at none
    rcases known with read | ⟨j, there⟩
    · rw [wrote] at read
      cases read
      rw [carried]
      exact h.unwritten none current (.inr ⟨i, loaded⟩)
    · exact h.unwritten none stored (.inr ⟨j, phase j stored there⟩)

theorem Tracks.fresh_iff {current : Settings} (h : Tracks defaults file field last s) (loaded : s.phase i = .loaded current) :
    (∀ stored, settings defaults s.file = .ok stored → field current = field stored) ↔ ∀ v, last s = some v → field current = v := by
  constructor
  · intro stays v some
    obtain ⟨stored, read, rfl⟩ := h.written v some
    exact stays stored read
  · intro fresh stored read
    cases known : last s with
    | some v =>
      obtain ⟨stored', read', rfl⟩ := h.written v known
      rw [read] at read'
      cases read'
      exact fresh _ known
    | none =>
      obtain ⟨base, first, same⟩ := h.unwritten known current (.inr ⟨i, loaded⟩)
      obtain ⟨base', first', same'⟩ := h.unwritten known stored (.inl read)
      rw [first] at first'
      cases first'
      rw [same, same']

end tracks

def rootsOf (s : Settings) : Value × Value := (s.recordingRoot, s.resultsRoot)

structure Settled (defaults : Settings) (file : Option Value) (s : Panel) : Prop where
  roots : Tracks defaults file rootsOf Panel.roots s
  compact : Tracks defaults file Settings.autoCompact Panel.compact s

theorem Settled.kept (h : Settled defaults file s) : s.Kept defaults := ⟨h.roots.written, h.compact.written⟩

theorem unloads (s : Panel) (operation : ℕ → Operation) (i : ℕ) (time : ℚ) (current : Settings) : ∀ j stored,
    ((s.replace (operation i) current time).goto i .written).phase j = .loaded stored → s.phase j = .loaded stored := fun _ stored loaded =>
  (goto_loaded loaded).elim id fun same => by cases same

theorem Settled.moved (h : Settled defaults file s) (moved : Moved defaults operation s i part s')
    (fresh : ∀ time current, part = .write time → s.phase i = .loaded current → UpToDate (operation i) current s) : Settled defaults file s' := by
  cases moved with
  | reads read same roots compact phase =>
    have known : ∀ j stored, s'.phase j = .loaded stored → s.phase j = .loaded stored ∨ settings defaults s.file = .ok stored :=
      fun j stored loaded => (phase j stored loaded).imp_right fun now => by rw [now, read]
    exact ⟨h.roots.keeps same roots known, h.compact.keeps same compact known⟩
  | rests same roots compact phase quiet =>
    exact ⟨h.roots.keeps same roots fun j stored loaded => .inl (phase j stored loaded),
      h.compact.keeps same compact fun j stored loaded => .inl (phase j stored loaded)⟩
  | @writes current time loaded =>
    have current_ := fresh time current rfl loaded
    have unloaded := unloads s operation i time current
    unfold Panel.replace at unloaded ⊢
    cases kind : operation i with
    | updateSettings recordingRoot resultsRoot =>
      rw [kind] at current_ unloaded
      exact ⟨.write (settings_document defaults _ time) rfl, h.compact.carry loaded current_ (settings_document defaults _ time) rfl rfl unloaded⟩
    | startOffline autoCompact =>
      rw [kind] at current_ unloaded
      exact ⟨h.roots.carry loaded current_ (settings_document defaults _ time) rfl rfl unloaded, .write (settings_document defaults _ time) rfl⟩

theorem Settled.spares_iff (h : Settled defaults file s) {current : Settings} {time : ℚ} (loaded : s.phase i = .loaded current) :
    Spares defaults (operation i) s ((s.replace (operation i) current time).goto i .written) ↔ UpToDate (operation i) current s := by
  unfold Panel.replace Spares UpToDate
  cases kind : operation i with
  | updateSettings recordingRoot resultsRoot =>
    refine Iff.trans ⟨fun spares stored read => ?_, fun stays stored stored' read read' => ?_⟩ (h.compact.fresh_iff loaded)
    · exact spares stored ((Operation.updateSettings recordingRoot resultsRoot).written current) read (settings_document defaults _ time)
    · cases read'
      exact stays stored read
  | startOffline autoCompact =>
    refine Iff.trans ⟨fun spares stored read => ?_, fun stays stored stored' read read' => ?_⟩ (h.roots.fresh_iff loaded)
    · exact spares stored ((Operation.startOffline autoCompact).written current) read (settings_document defaults _ time)
    · cases read'
      exact stays stored read

/-! ### Whole runs -/

theorem run_settled {events : List (ℕ × Part)} (undisturbed : Undisturbed defaults operation file events) :
    ∀ s, run defaults operation file events = some s → Settled defaults file s := by
  induction events using List.reverseRecOn with
  | nil =>
    intro s ran
    cases ran
    exact ⟨tracks_start rfl, tracks_start rfl⟩
  | append_singleton events event ih =>
    intro s' ran
    rw [run_concat] at ran
    obtain ⟨s, before, moves⟩ := Option.bind_eq_some_iff.mp ran
    have earlier : Undisturbed defaults operation file events := fun before i time s current part =>
      undisturbed before i time s current (part.trans (List.prefix_append _ _))
    refine (ih earlier s before).moved (act_moved moves) fun time current write loaded => ?_
    refine undisturbed events event.1 time s current ?_ before loaded
    rw [← write]

theorem act_write {time : ℚ} {current : Settings} (loaded : s.phase i = .loaded current) :
    s.act defaults operation i (.write time) = some ((s.replace (operation i) current time).goto i .written) := by
  unfold Panel.act
  rw [loaded]

theorem loaded_of_write {time : ℚ} (moves : s.act defaults operation i (.write time) = some s') :
    ∃ current, s.phase i = .loaded current ∧ s' = (s.replace (operation i) current time).goto i .written := by
  cases act_moved moves with
  | writes loaded => exact ⟨_, loaded, rfl⟩
  | rests same roots compact phase quiet => exact absurd rfl (quiet time)

/-- The settings are kept exactly where no call writes over what a call of the other kind has written since it read them. -/
theorem preserved_iff (defaults : Settings) (operation : ℕ → Operation) (file : Option Value) (events : List (ℕ × Part)) :
    Preserved defaults operation file events ↔ Undisturbed defaults operation file events := by
  constructor
  · rintro ⟨-, spared⟩
    induction events using List.reverseRecOn with
    | nil =>
      intro before i time s current part
      simp at part
    | append_singleton events event ih =>
      have earlier : Undisturbed defaults operation file events := ih fun before i time s s' part =>
        spared before i time s s' (part.trans (List.prefix_append _ _))
      intro before i time s current part ran loaded
      rcases List.prefix_concat_iff.mp part with whole | sooner
      · obtain ⟨rfl, -⟩ := List.append_inj' whole rfl
        exact ((run_settled earlier s ran).spares_iff loaded).mp (spared before i time s _ part ran (act_write loaded))
      · exact earlier before i time s current sooner ran loaded
  · intro undisturbed
    refine ⟨fun s ran _ => (run_settled undisturbed s ran).kept, fun before i time s s' part ran moves => ?_⟩
    obtain ⟨current, loaded, rfl⟩ := loaded_of_write moves
    have earlier : Undisturbed defaults operation file before := fun before' j time s current sooner =>
      undisturbed before' j time s current ((sooner.trans (List.prefix_append _ _)).trans part)
    exact ((run_settled earlier s ran).spares_iff loaded).mpr (undisturbed before i time s current part ran loaded)

end calls

namespace Bench

def defaults : Settings := ⟨.text "data/experiments", .text "data/analysis", true⟩

def operation : ℕ → Operation
  | 0 => .updateSettings "/mnt/recordings" "/mnt/results"
  | _ => .startOffline (some false)

def events : List (ℕ × Part) :=
  [(0, .begin), (0, .read), (1, .begin), (1, .read), (1, .write 1), (1, .return), (0, .write 2), (0, .return)]

theorem auto_compact_lost : ¬Preserved defaults operation none events := by
  intro preserved
  have ended : ∃ s, run defaults operation none events = some s ∧ s.compact = some false ∧ s.Idle ∧
      settings defaults s.file = .ok ⟨.text "/mnt/recordings", .text "/mnt/results", true⟩ := by
    refine ⟨_, rfl, rfl, fun i => ?_, rfl⟩
    rcases i with _ | _ | i
    · exact .inr (.inl rfl)
    · exact .inr (.inl rfl)
    · exact .inl rfl
  obtain ⟨s, ran, lastly, idle, read⟩ := ended
  obtain ⟨stored, read', same⟩ := (preserved.kept s ran idle).2 false lastly
  rw [read] at read'
  cases read'
  cases same

end Bench

end Smartwheel.PanelSettings
