import Mathlib.Data.List.Chain
import Smartwheel.Imu.DeviceTimeRun
import Smartwheel.Imu.OfflineTime

/-! The stamps of `build_model` follow the counter of the device, whatever the order of the events and however often it wraps. -/
namespace Smartwheel.OfflineTime
open Effect
open Smartwheel.Calibration (Value Fields)
open Smartwheel.Imu (Field TimingProfile advanceDeviceCounter advanceDeviceCounter_eq_ok)

/-! ### Counters -/

def ticks : List ℤ → ℤ
  | a :: b :: rest => (b - a) % 2^32 + ticks (b :: rest)
  | _ => 0

theorem ticks_cons_cons (a b : ℤ) (rest : List ℤ) : ticks (a :: b :: rest) = (b - a) % 2^32 + ticks (b :: rest) := rfl

theorem ticks_append (before : List ℤ) (a : ℤ) (after : List ℤ) : ticks (before ++ a :: after) = ticks (before ++ [a]) + ticks (a :: after) := by
  induction before with
  | nil => simp [ticks]
  | cons b before ih =>
    cases before with
    | nil =>
      rw [List.singleton_append, List.singleton_append, ticks_cons_cons, ticks_cons_cons]
      simp [ticks]
    | cons d before =>
      rw [List.cons_append, List.cons_append, List.cons_append, List.cons_append, ticks_cons_cons, ticks_cons_cons]
      rw [List.cons_append, List.cons_append] at ih
      rw [ih, add_assoc]

theorem ticks_concat (before : List ℤ) (a b : ℤ) : ticks (before ++ [a, b]) = ticks (before ++ [a]) + (b - a) % 2^32 := by
  rw [ticks_append, ticks_cons_cons]
  exact congrArg _ (add_zero _)

def Advancing (raws : List ℤ) : Prop := raws.IsChain fun a b => 0 < (b - a) % 2^32

theorem ticks_nonneg (raws : List ℤ) : 0 ≤ ticks raws := by
  induction raws with
  | nil => exact le_refl _
  | cons a raws ih =>
    cases raws with
    | nil => exact le_refl _
    | cons b rest =>
      rw [ticks_cons_cons]
      have := Int.emod_nonneg (b - a) (by norm_num : (2^32 : ℤ) ≠ 0)
      omega

theorem ticks_pos {a b : ℤ} {rest : List ℤ} (h : Advancing (a :: b :: rest)) : 0 < ticks (a :: b :: rest) := by
  have first := (List.isChain_cons_cons.mp h).1
  have others := ticks_nonneg (b :: rest)
  rw [ticks_cons_cons]
  omega

def offsets (tick : ℤ) (raws : List ℤ) : List ℤ := (List.range raws.length).map fun k => ticks (raws.take (k + 1)) * tick

theorem offsets_concat (tick : ℤ) (raws : List ℤ) (raw : ℤ) :
    offsets tick (raws ++ [raw]) = offsets tick raws ++ [ticks (raws ++ [raw]) * tick] := by
  unfold offsets
  rw [List.length_append, List.length_singleton, List.range_succ, List.map_append, List.map_singleton]
  congr 1
  · refine List.map_congr_left fun k inside => ?_
    rw [List.take_append_of_le_length (by have := List.mem_range.mp inside; omega)]
  · rw [List.take_of_length_le (by simp)]

theorem offsets_getElem? {tick : ℤ} {raws : List ℤ} {k : ℕ} (inside : k < raws.length) :
    (offsets tick raws)[k]? = some (ticks (raws.take (k + 1)) * tick) := by
  unfold offsets
  rw [List.getElem?_map, List.getElem?_range inside]
  rfl

theorem ticks_between {raws : List ℤ} {i j : ℕ} (order : i ≤ j) (inside : j < raws.length) :
    ticks (raws.take (j + 1)) = ticks (raws.take (i + 1)) + ticks ((raws.drop i).take (j - i + 1)) := by
  have split : raws.take (j + 1) = raws.take i ++ (raws.drop i).take (j - i + 1) := by
    rw [← List.take_add]
    congr 1
    omega
  have here : (raws.drop i).take (j - i + 1) = raws[i] :: (raws.drop (i + 1)).take (j - i) := by
    rw [List.drop_eq_getElem_cons (by omega), List.take_succ_cons]
  rw [split, here, ticks_append, List.take_succ_eq_append_getElem (by omega)]

/-! ### The checks -/

def Event.raw (row : Event) (field : Field) : ℤ := (uint32 (row.imuDeviceTime.get field.name)).getD 0

section scan
variable {config : Config} {profile : TimingProfile} {row : Event} {rows done : List Event} {scan scan' : Scan} {field : Field}

theorem uint32_bounds {value : Value} {raw : ℤ} (h : uint32 value = some raw) : 0 ≤ raw ∧ raw < 2^32 := by
  unfold uint32 at h
  split at h
  · split at h
    · next bounds => exact Option.some.inj h ▸ bounds
    · cases h
  · cases h

theorem advance_mod {before raw delta : ℤ} {elapsed : Option ℤ} {wrapped : Bool} (low : 0 ≤ before ∧ before < 2^32) (high : 0 ≤ raw ∧ raw < 2^32)
    (h : advanceDeviceCounter before raw elapsed profile = .ok (delta, wrapped)) : delta = (raw - before) % 2^32 ∧ 0 < delta := by
  rcases advanceDeviceCounter_eq_ok h with ⟨forward, rfl, -⟩ | ⟨back, rfl, -⟩
  · exact ⟨by omega, by omega⟩
  · exact ⟨by omega, by omega⟩

theorem scanField_ok (h : scanField profile row scan field = .ok scan') : scan'.previous = scan.previous ∧ scan'.relative = scan.relative ∧
    (∀ other, other ≠ field → scan'.accumulated other = scan.accumulated other) ∧
    (scan.previous = none → scan'.accumulated field = scan.accumulated field) ∧
    ∀ previous ∈ scan.previous, 0 < (row.raw field - previous.raw field) % 2^32 ∧
      scan'.accumulated field = scan.accumulated field + (row.raw field - previous.raw field) % 2^32 := by
  unfold scanField at h
  split at h
  · cases h
  · next raw counter =>
    obtain ⟨_, -, h⟩ := bind_eq_ok h
    dsimp only at h
    split at h
    · next first =>
      cases h
      refine ⟨rfl, rfl, fun _ _ => rfl, fun _ => rfl, fun previous inside => ?_⟩
      rw [first] at inside
      cases inside
    · next previous known =>
      split at h
      · cases h
      · next before counter' =>
        obtain ⟨⟨delta, wrapped⟩, advanced, h⟩ := bind_eq_ok h
        obtain ⟨_, -, h⟩ := bind_eq_ok h
        cases h
        obtain ⟨same, positive⟩ := advance_mod (uint32_bounds counter') (uint32_bounds counter) advanced
        refine ⟨rfl, rfl, fun other different => Function.update_of_ne different .., fun none => ?_, fun p inside => ?_⟩
        · rw [known] at none
          cases none
        · rw [known] at inside
          cases inside
          have here : row.raw field = raw := by rw [Event.raw, counter, Option.getD_some]
          have there : previous.raw field = before := by rw [Event.raw, counter', Option.getD_some]
          rw [here, there, ← same]
          exact ⟨positive, Function.update_self ..⟩

structure Scanned (profile : TimingProfile) (done : List Event) (scan : Scan) : Prop where
  previous : scan.previous = done.getLast?
  elapsed : scan.accumulated .sample = ticks (done.map (Event.raw · .sample))
  relative : scan.relative = offsets profile.tickNs (done.map (Event.raw · .sample))
  sequences : done.IsChain fun a b => a.sequence < b.sequence
  advancing : Advancing (done.map (Event.raw · .sample))

theorem Scanned.length (h : Scanned profile done scan) : done.length = scan.relative.length := by
  rw [h.relative, offsets, List.length_map, List.length_range, List.length_map]

theorem Scanned.start : Scanned profile [] .fresh := ⟨rfl, rfl, rfl, List.isChain_nil, List.isChain_nil⟩

theorem scanRow_scanned (h : Scanned profile done scan) (run : scanRow config profile scan row = .ok scan') :
    Scanned profile (done ++ [row]) scan' := by
  unfold scanRow at run
  simp only [bind_eq_ok_iff] at run
  obtain ⟨_, -, _, -, _, continued, middle, sample, last, dataready, run⟩ := run
  cases run
  obtain ⟨previous, relative, -, first, next⟩ := scanField_ok sample
  obtain ⟨previous', relative', other, -⟩ := scanField_ok dataready
  have kept := other .sample (by decide)
  have sequence : ∀ p ∈ done.getLast?, p.sequence < row.sequence := by
    intro p final
    rw [h.previous, final] at continued
    obtain ⟨-, later, -⟩ := require_ok continued
    exact later
  have elapsed : last.accumulated .sample = ticks ((done ++ [row]).map (Event.raw · .sample)) := by
    rw [kept, List.map_append, List.map_singleton]
    cases final : done.getLast? with
    | none =>
      rw [first (h.previous.trans final), h.elapsed, List.getLast?_eq_none_iff.mp final]
      rfl
    | some p =>
      obtain ⟨before, rfl⟩ := List.getLast?_eq_some_iff.mp final
      rw [(next p (h.previous.trans final)).2, h.elapsed, List.map_append, List.map_singleton, List.append_assoc, List.singleton_append,
        ticks_concat]
  refine ⟨by rw [List.getLast?_concat], elapsed, ?_, ?_, ?_⟩
  · change last.relative ++ [last.accumulated .sample * profile.tickNs] = _
    rw [elapsed, relative', relative, h.relative, List.map_append, List.map_singleton, offsets_concat]
  · refine List.isChain_append.mpr ⟨h.sequences, List.isChain_singleton _, fun p final b same => ?_⟩
    cases same
    exact sequence p final
  · unfold Advancing
    rw [List.map_append, List.map_singleton]
    refine List.isChain_append.mpr ⟨h.advancing, List.isChain_singleton _, fun a final b same => ?_⟩
    cases same
    rw [List.getLast?_map, Option.mem_def, Option.map_eq_some_iff] at final
    obtain ⟨p, final, rfl⟩ := final
    exact (next p (h.previous.trans final)).1

theorem scanRows_scanned (h : Scanned profile done scan) (run : scanRows config profile rows scan = .ok scan') :
    Scanned profile (done ++ rows) scan' := by
  induction rows generalizing done scan with
  | nil =>
    cases run
    rwa [List.append_nil]
  | cons row rest ih =>
    obtain ⟨middle, first, run⟩ := bind_eq_ok run
    rw [List.append_cons]
    exact ih (scanRow_scanned h first) run

end scan

/-! ### The stamps -/

def Event.stamped (anchor : ℤ) (row : Event) (delta : ℤ) : Event := { row with measurementStampNs := some (anchor + delta) }

theorem attachStamps_run (anchor : ℤ) (done rest : List Event) (deltas : List ℤ) (same : rest.length = deltas.length) :
    ∃ evidence, attachStamps anchor done.length deltas (done ++ rest) =
      (.value evidence, done ++ List.zipWith (Event.stamped anchor) rest deltas) := by
  induction deltas generalizing done rest with
  | nil =>
    rw [List.length_eq_zero_iff.mp same]
    exact ⟨[], rfl⟩
  | cons delta deltas ih =>
    cases rest with
    | nil => cases same
    | cons row rest =>
      have length : done.length + 1 = (done ++ [row.stamped anchor delta]).length := by simp
      obtain ⟨evidence, run⟩ := ih (done ++ [row.stamped anchor delta]) rest (Nat.succ.inj same)
      have changed : (done ++ row :: rest).modify done.length (fun row => { row with measurementStampNs := some (anchor + delta) }) =
          done ++ [row.stamped anchor delta] ++ rest := by
        rw [List.append_assoc]
        exact List.modifyTailIdx_add _ 0 done (row :: rest)
      have here : (done ++ [row.stamped anchor delta] ++ rest)[done.length]? = some (row.stamped anchor delta) := by simp
      refine ⟨(row.stamped anchor delta).evidence :: evidence, ?_⟩
      have next : attachStamps anchor done.length (delta :: deltas) (done ++ row :: rest) =
          Program.bind (.need (done ++ [row.stamped anchor delta] ++ rest)[done.length]? "list index out of range") (fun row =>
            Program.bind (attachStamps anchor (done.length + 1) deltas) fun others => pure (row.evidence :: others))
            (done ++ [row.stamped anchor delta] ++ rest) := by
        rw [← changed]
        rfl
      rw [next, here, length]
      change Program.bind (attachStamps anchor _ deltas) _ _ = _
      unfold Program.bind
      rw [run, List.zipWith_cons_cons, List.append_assoc]
      rfl

def Event.derived (row : Event) : ℤ := row.measurementStampNs.getD 0

structure Derived (tick : ℤ) (before after : List Event) : Prop where
  kept : after.map Event.original = before.map Event.original
  attached : ∀ row ∈ after, row.measurementStampNs.isSome = true
  early : ∀ row ∈ after, row.derived ≤ row.stampNs
  touches : ∃ row ∈ after, row.derived = row.stampNs
  increasing : after.Pairwise fun a b => a.sequence < b.sequence ∧ a.derived < b.derived
  elapsed : ∀ (i j : ℕ) (a b : Event), i ≤ j → after[i]? = some a → after[j]? = some b →
    b.derived - a.derived = ticks (((after.map (Event.raw · .sample)).drop i).take (j - i + 1)) * tick

section derived
variable {profile : TimingProfile} {rows : List Event} {scan : Scan} {anchor : ℤ} {sha : String}

def attached (anchor : ℤ) (sha : String) (rows : List Event) (relative : List ℤ) : List Event :=
  (List.zipWith (Event.stamped anchor) rows relative).map fun row => { row with modelSha256 := some sha }

theorem attached_getElem? (anchor : ℤ) (sha : String) {relative : List ℤ} (same : rows.length = relative.length) {k : ℕ} {row : Event} (here : rows[k]? = some row) :
    ∃ delta, relative[k]? = some delta ∧
      (attached anchor sha rows relative)[k]? = some { row.stamped anchor delta with modelSha256 := some sha } := by
  have inside := (List.getElem?_eq_some_iff.mp here).1
  have inside' : k < relative.length := by omega
  have there : relative[k]? = some relative[k] := List.getElem?_eq_getElem inside'
  refine ⟨_, there, ?_⟩
  unfold attached
  rw [List.getElem?_map, List.getElem?_zipWith, here, there]
  rfl

theorem attached_map {β : Type} {f : Event → β} (free : ∀ row delta, f { row.stamped anchor delta with modelSha256 := some sha } = f row)
    {relative : List ℤ} (same : rows.length = relative.length) : (attached anchor sha rows relative).map f = rows.map f := by
  induction rows generalizing relative with
  | nil => rfl
  | cons row rows ih =>
    cases relative with
    | nil => cases same
    | cons delta relative =>
      change f _ :: (attached anchor sha rows relative).map f = _
      rw [ih (Nat.succ.inj same), free, List.map_cons]

theorem ticks_lt {raws : List ℤ} (advancing : Advancing raws) {i j : ℕ} (order : i < j) (inside : j < raws.length) :
    ticks (raws.take (i + 1)) < ticks (raws.take (j + 1)) := by
  have segment : (raws.drop i).take (j - i + 1) = raws[i] :: raws[i + 1] :: (raws.drop (i + 2)).take (j - i - 1) := by
    rw [List.drop_eq_getElem_cons (by omega), List.take_succ_cons, List.drop_eq_getElem_cons (by omega)]
    obtain ⟨n, rfl⟩ : ∃ n, j = i + n + 1 := ⟨j - i - 1, by omega⟩
    rw [show i + n + 1 - i = n + 1 by omega, List.take_succ_cons]
    rfl
  have part : Advancing ((raws.drop i).take (j - i + 1)) := (advancing.drop i).take (j - i + 1)
  rw [segment] at part
  have := ticks_pos part
  rw [ticks_between (by omega : i ≤ j) inside, segment]
  omega

theorem derived_of_scanned (scanned : Scanned profile rows scan) (tick : 0 < profile.tickNs)
    (least : (List.zipWith (fun row delta => row.stampNs - delta) rows scan.relative).min? = some anchor) (sha : String) :
    Derived profile.tickNs rows (attached anchor sha rows scan.relative) := by
  have same : rows.length = scan.relative.length := scanned.length
  have length : (attached anchor sha rows scan.relative).length = rows.length := by
    rw [attached, List.length_map, List.length_zipWith, same, Nat.min_self]
  -- each row by its position
  have each : ∀ (k : ℕ) (a : Event), (attached anchor sha rows scan.relative)[k]? = some a → ∃ row, rows[k]? = some row ∧
      ∃ delta, scan.relative[k]? = some delta ∧ delta = ticks ((rows.map (Event.raw · .sample)).take (k + 1)) * profile.tickNs ∧
        a = { row.stamped anchor delta with modelSha256 := some sha } := by
    intro k a here
    have inside := (List.getElem?_eq_some_iff.mp here).1
    have inside' : k < rows.length := by omega
    have known : rows[k]? = some rows[k] := List.getElem?_eq_getElem inside'
    obtain ⟨delta, there, whole⟩ := attached_getElem? anchor sha same known
    refine ⟨_, known, delta, there, ?_, Option.some.inj (here.symm.trans whole)⟩
    rw [scanned.relative, offsets_getElem? (by rw [List.length_map]; omega)] at there
    exact (Option.some.inj there).symm
  have mem : ∀ a ∈ attached anchor sha rows scan.relative, ∃ k, (attached anchor sha rows scan.relative)[k]? = some a :=
    fun a inside => List.mem_iff_getElem?.mp inside
  have differences : ∀ (k : ℕ) (row : Event) (delta : ℤ), rows[k]? = some row → scan.relative[k]? = some delta →
      (List.zipWith (fun row delta => row.stampNs - delta) rows scan.relative)[k]? = some (row.stampNs - delta) := by
    intro k row delta here there
    rw [List.getElem?_zipWith, here, there]
  obtain ⟨taken, all⟩ := List.min?_eq_some_iff.mp least
  refine ⟨attached_map (fun _ _ => rfl) same, fun a inside => ?_, fun a inside => ?_, ?_, ?_, ?_⟩
  · obtain ⟨k, here⟩ := mem a inside
    obtain ⟨row, -, delta, -, -, rfl⟩ := each k a here
    rfl
  · obtain ⟨k, here⟩ := mem a inside
    obtain ⟨row, known, delta, there, -, rfl⟩ := each k a here
    have below := all _ (List.mem_of_getElem? (differences k row delta known there))
    change anchor + delta ≤ row.stampNs
    omega
  · obtain ⟨k, here⟩ := List.mem_iff_getElem?.mp taken
    have inside := (List.getElem?_eq_some_iff.mp here).1
    rw [List.length_zipWith] at inside
    obtain ⟨row, known⟩ : ∃ row, rows[k]? = some row := ⟨_, List.getElem?_eq_getElem (by omega)⟩
    obtain ⟨delta, there, whole⟩ := attached_getElem? anchor sha same known
    refine ⟨_, List.mem_of_getElem? whole, ?_⟩
    rw [differences k row delta known there] at here
    have least := Option.some.inj here
    change anchor + delta = row.stampNs
    omega
  · refine List.pairwise_iff_getElem.mpr fun i j hi hj order => ?_
    obtain ⟨a, knownA, delta, -, offset, here⟩ := each i _ (List.getElem?_eq_getElem hi)
    obtain ⟨b, knownB, delta', -, offset', there⟩ := each j _ (List.getElem?_eq_getElem hj)
    rw [here, there]
    constructor
    · have chain : (rows.map Event.sequence).IsChain (· < ·) := (List.isChain_map _).mpr scanned.sequences
      have pairs := List.pairwise_iff_getElem.mp (List.pairwise_map.mp (List.isChain_iff_pairwise.mp chain)) i j (by omega) (by omega) order
      obtain ⟨_, rfl⟩ := List.getElem?_eq_some_iff.mp knownA
      obtain ⟨_, rfl⟩ := List.getElem?_eq_some_iff.mp knownB
      exact pairs
    · have less := ticks_lt scanned.advancing order (by rw [List.length_map]; omega)
      have scaled := mul_lt_mul_of_pos_right less tick
      change anchor + delta < anchor + delta'
      omega
  · intro i j a b order here there
    obtain ⟨row, -, delta, -, offset, rfl⟩ := each i a here
    obtain ⟨row', -, delta', -, offset', rfl⟩ := each j b there
    have inside := (List.getElem?_eq_some_iff.mp there).1
    have raws : (attached anchor sha rows scan.relative).map (Event.raw · .sample) = rows.map (Event.raw · .sample) :=
      attached_map (fun _ _ => rfl) same
    have between := ticks_between order (show j < (rows.map (Event.raw · .sample)).length by rw [List.length_map]; omega)
    rw [raws]
    change anchor + delta' - (anchor + delta) = _
    rw [offset, offset', between]
    ring

end derived

/-! ### The order of the events -/

theorem sortedRows_perm {events events' : List Event} (same : List.Perm events' events) (distinct : ((sortedRows events).map Event.sequence).Nodup) :
    sortedRows events' = sortedRows events := by
  have total : Std.Total fun a b : Event => a.key ≤ b.key := ⟨fun a b => le_total a.key b.key⟩
  have trans : IsTrans Event fun a b => a.key ≤ b.key := ⟨fun _ _ _ => le_trans⟩
  have sorted : ∀ events, (sortedRows events).Pairwise fun a b => a.key ≤ b.key := fun events => List.pairwise_insertionSort _ _
  have perm : List.Perm (sortedRows events') (sortedRows events) :=
    ((List.perm_insertionSort _ _).trans (same.filter _)).trans (List.perm_insertionSort _ _).symm
  refine perm.eq_of_pairwise (fun a b here there le ge => ?_) (sorted events') (sorted events)
  -- rows with one key have one sequence
  have key : a.key = b.key := le_antisymm le ge
  have sequence : a.sequence = b.sequence := congrArg (fun key : ℤ ×ₗ ℤ ×ₗ String ×ₗ ℤ => (ofLex (ofLex key).2).1) key
  exact List.inj_on_of_nodup_map distinct (perm.mem_iff.mp here) there sequence

section outcome
variable {env : Env} {config : Config} {plan : Plan} {rows : List Event}

theorem tick_pos (profile : TimingProfile) : 0 < profile.tickNs := by
  have scale := profile.unit_scale
  rw [List.mem_cons, List.mem_singleton] at scale
  rcases scale with same | same
  · have unit := (Prod.mk.inj same).2
    omega
  · have unit := (Prod.mk.inj same).2
    omega

theorem check_ok (h : check env config rows = .ok plan) : Scanned plan.profile rows plan.scan ∧
    (List.zipWith (fun row delta => row.stampNs - delta) rows plan.scan.relative).min? = some plan.anchor := by
  unfold check at h
  simp only [bind_eq_ok_iff] at h
  obtain ⟨mode, -, _, -, profile, -, _, -, h⟩ := h
  split at h
  · next head second rest last known =>
    obtain ⟨scan, scanned, h⟩ := bind_eq_ok h
    obtain ⟨_, -, h⟩ := bind_eq_ok h
    split at h
    · cases h
    · next anchor least =>
      obtain ⟨_, -, h⟩ := bind_eq_ok h
      cases h
      exact ⟨scanRows_scanned .start scanned, least⟩
  · cases h

theorem attachModel_run (env : Env) (config : Config) (same : rows.length = plan.scan.relative.length) : ∃ report sha,
    attachModel env config plan rows = (.value report, attached plan.anchor sha rows plan.scan.relative) ∧
      report.tickNs = plan.profile.tickNs := by
  obtain ⟨evidence, run⟩ := attachStamps_run plan.anchor [] rows plan.scan.relative same
  rw [List.nil_append, List.nil_append] at run
  unfold attachModel
  simp only [bind, Program.bind, Program.get, Program.modify, pure, Program.pure]
  rw [show attachStamps plan.anchor 0 plan.scan.relative rows = _ from run]
  exact ⟨_, _, rfl, rfl⟩

/-- An offline time model: stamps along the device's counter for every row or, where it raises, no change; the same for every order of
the events. -/
theorem buildModel_spec (env : Env) (config : Config) (events : List Event) :
    (∀ error rows, buildModel env config events = (.raised error, rows) → rows = sortedRows events) ∧
    (∀ report rows, buildModel env config events = (.value report, rows) → Derived report.tickNs (sortedRows events) rows) ∧
    ∀ events', List.Perm events' events → ((sortedRows events).map Event.sequence).Nodup →
      buildModel env config events' = buildModel env config events := by
  refine ⟨fun error rows run => ?_, fun report rows run => ?_, fun events' same distinct => ?_⟩
  · unfold buildModel at run
    dsimp only at run
    split at run
    · cases run
      rfl
    · next plan accepted =>
      obtain ⟨scanned, -⟩ := check_ok accepted
      obtain ⟨report, sha, done, -⟩ := attachModel_run env config scanned.length
      rw [done] at run
      cases run
  · unfold buildModel at run
    dsimp only at run
    split at run
    · cases run
    · next plan accepted =>
      obtain ⟨scanned, least⟩ := check_ok accepted
      obtain ⟨report, sha, done, tick⟩ := attachModel_run env config scanned.length
      rw [done] at run
      cases run
      rw [tick]
      exact derived_of_scanned scanned (tick_pos _) least sha
  · unfold buildModel
    rw [sortedRows_perm same distinct]

end outcome

end Smartwheel.OfflineTime
