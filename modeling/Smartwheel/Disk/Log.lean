import Smartwheel.Effect.History

/-! A disk as the history of what was done to it, newest first. A finished sync names how much of its file or
directory there was when it began; a crash keeps that, and any part of the rest. -/
namespace Disk

/-- Files of `φ` with the entries `ε` that name them in directories of `δ`, and a file that is replaced, whose
contents are of `μ`. Every write appends. -/
inductive Op (φ ε δ μ : Type*) where
  | write (file : φ) (bytes : Nat)
  | create (entry : ε) (directory : δ)
  | replace (contents : μ) (directory : δ)
  | syncFile (file : φ) (bytes : Nat)
  | syncDirectory (directory : δ) (changes : Nat)
deriving DecidableEq

variable {φ ε δ μ : Type*} {log later earlier : List (Op φ ε δ μ)}

def size [DecidableEq φ] (file : φ) : List (Op φ ε δ μ) → Nat
  | [] => 0
  | .write f n :: log => (if f = file then n else 0) + size file log
  | _ :: log => size file log

def changes [DecidableEq δ] (directory : δ) : List (Op φ ε δ μ) → Nat
  | [] => 0
  | .create _ d :: log => (if d = directory then 1 else 0) + changes directory log
  | .replace _ d :: log => (if d = directory then 1 else 0) + changes directory log
  | _ :: log => changes directory log

def replaced : List (Op φ ε δ μ) → List μ
  | [] => []
  | .replace m _ :: log => m :: replaced log
  | _ :: log => replaced log

def Synced (file : φ) (bytes : Nat) (log : List (Op φ ε δ μ)) : Prop :=
  ∃ n, bytes ≤ n ∧ .syncFile file n ∈ log

def Among [DecidableEq δ] (entry : ε) (directory : δ) (n : Nat) (log : List (Op φ ε δ μ)) : Prop :=
  ∃ later earlier, log = later ++ .create entry directory :: earlier ∧ changes directory earlier < n

def EntrySynced [DecidableEq δ] (entry : ε) (directory : δ) (log : List (Op φ ε δ μ)) : Prop :=
  ∃ n, .syncDirectory directory n ∈ log ∧ Among entry directory n log

/-- `m` is what the file was replaced by before everything in `after`, and that is on the disk for good. -/
def Settled [DecidableEq δ] (m : μ) (after : List μ) (log : List (Op φ ε δ μ)) : Prop :=
  ∃ later earlier directory n, log = later ++ .replace m directory :: earlier ∧ replaced later = after ∧
    changes directory earlier < n ∧ .syncDirectory directory n ∈ log

/-- `m` is what the file was replaced by last, with one of the first entries of its directory. -/
def Newest [DecidableEq δ] (m : μ) (directory : δ) (n : Nat) (log : List (Op φ ε δ μ)) : Prop :=
  ∃ later earlier, log = later ++ .replace m directory :: earlier ∧ replaced later = [] ∧ changes directory earlier < n

/-- What a crash may leave: `keep` says of each operation, by how many were before it, whether its effect is on
the disk. -/
structure Crash [DecidableEq φ] [DecidableEq δ] (keep : Nat → Bool) (log : List (Op φ ε δ μ)) : Prop where
  file : ∀ later earlier file bytes n, log = later ++ .write file bytes :: earlier →
    .syncFile file n ∈ log → size file earlier < n → keep earlier.length = true
  entry : ∀ later earlier entry directory n, log = later ++ .create entry directory :: earlier →
    .syncDirectory directory n ∈ log → changes directory earlier < n → keep earlier.length = true
  contents : ∀ later earlier m directory n, log = later ++ .replace m directory :: earlier →
    .syncDirectory directory n ∈ log → changes directory earlier < n → keep earlier.length = true

def Intact [DecidableEq φ] (keep : Nat → Bool) (file : φ) (bytes : Nat) (log : List (Op φ ε δ μ)) : Prop :=
  bytes ≤ size file log ∧ ∀ later earlier n, log = later ++ .write file n :: earlier →
    size file earlier < bytes → keep earlier.length = true

def Present (keep : Nat → Bool) (entry : ε) (directory : δ) (log : List (Op φ ε δ μ)) : Prop :=
  ∃ later earlier, log = later ++ .create entry directory :: earlier ∧ keep earlier.length = true

def visible (keep : Nat → Bool) : List (Op φ ε δ μ) → Option μ
  | [] => none
  | .replace m _ :: log => if keep log.length then some m else visible keep log
  | _ :: log => visible keep log

def everything : Nat → Bool := fun _ => true

theorem replaced_append (later log : List (Op φ ε δ μ)) :
    replaced (later ++ log) = replaced later ++ replaced log := by
  induction later with
  | nil => rfl
  | cons op later ih =>
    cases op with
    | replace m d => exact congrArg (m :: ·) ih
    | _ => exact ih

variable {directory : δ} {m : μ}

theorem mem_replaced (h : .replace m directory ∈ log) : m ∈ replaced log := by
  obtain ⟨later, earlier, split⟩ := List.append_of_mem h
  rw [split, replaced_append]
  exact List.mem_append_right _ (List.mem_cons_self ..)

theorem replaced_eq_nil (none_ : ∀ m directory, .replace m directory ∉ log) : replaced log = [] := by
  induction log with
  | nil => rfl
  | cons op log ih =>
    have rest := ih fun m directory mem => none_ m directory (List.mem_cons_of_mem _ mem)
    cases op with
    | replace m d => exact absurd (List.mem_cons_self ..) (none_ m d)
    | _ => exact rest

theorem Synced.append {file : φ} {bytes : Nat} (h : Synced file bytes log) (later : List (Op φ ε δ μ)) :
    Synced file bytes (later ++ log) := by
  obtain ⟨n, covers, mem⟩ := h
  exact ⟨n, covers, List.mem_append_right _ mem⟩

theorem visible_append (keep : Nat → Bool) (later log : List (Op φ ε δ μ)) :
    visible keep (later ++ log) = visible keep log ∨
      ∃ m ∈ replaced later, visible keep (later ++ log) = some m := by
  induction later with
  | nil => exact .inl rfl
  | cons op later ih =>
    cases op with
    | replace m d =>
      have unfolded : visible keep (.replace m d :: later ++ log) =
          if keep (later ++ log).length then some m else visible keep (later ++ log) := rfl
      by_cases kept : keep (later ++ log).length = true
      · rw [if_pos kept] at unfolded
        exact .inr ⟨m, List.mem_cons_self .., unfolded⟩
      · rw [if_neg kept] at unfolded
        rw [unfolded]
        rcases ih with same | ⟨m', mem, found⟩
        · exact .inl same
        · exact .inr ⟨m', List.mem_cons_of_mem _ mem, found⟩
    | _ => exact ih

variable {keep : Nat → Bool}

theorem visible_mem (h : visible keep log = some m) : m ∈ replaced log := by
  rcases visible_append keep log [] with same | ⟨m', mem, found⟩
  · rw [List.append_nil, h] at same
    cases same
  · rw [List.append_nil, h] at found
    cases found
    exact mem

section
variable [DecidableEq φ]

theorem size_append (file : φ) (later log : List (Op φ ε δ μ)) :
    size file (later ++ log) = size file later + size file log := by
  induction later with
  | nil => exact (Nat.zero_add _).symm
  | cons op later ih =>
    cases op with
    | write f n =>
      show _ + size file (later ++ log) = _ + size file later + _
      rw [ih, Nat.add_assoc]
    | _ => exact ih

theorem size_eq_append {file : φ} (none_ : ∀ n, .write file n ∉ later) (log : List (Op φ ε δ μ)) :
    size file (later ++ log) = size file log := by
  induction later with
  | nil => rfl
  | cons op later ih =>
    have rest := ih fun n mem => none_ n (List.mem_cons_of_mem _ mem)
    cases op with
    | write f n =>
      have other : f ≠ file := by
        intro same
        rw [same] at none_
        exact none_ n (List.mem_cons_self ..)
      show (if f = file then n else 0) + size file (later ++ log) = _
      rw [if_neg other, rest, Nat.zero_add]
    | _ => exact rest

theorem size_le_append (file : φ) (later log : List (Op φ ε δ μ)) : size file log ≤ size file (later ++ log) := by
  rw [size_append]
  exact Nat.le_add_left _ _

end

section
variable [DecidableEq δ]

theorem changes_append (directory : δ) (later log : List (Op φ ε δ μ)) :
    changes directory (later ++ log) = changes directory later + changes directory log := by
  induction later with
  | nil => exact (Nat.zero_add _).symm
  | cons op later ih =>
    cases op with
    | create e d =>
      show _ + changes directory (later ++ log) = _ + changes directory later + _
      rw [ih, Nat.add_assoc]
    | replace m d =>
      show _ + changes directory (later ++ log) = _ + changes directory later + _
      rw [ih, Nat.add_assoc]
    | _ => exact ih

theorem Among.append {entry : ε} {n : Nat} (h : Among entry directory n log)
    (later : List (Op φ ε δ μ)) : Among entry directory n (later ++ log) := by
  obtain ⟨newer, earlier, split, before⟩ := h
  exact ⟨later ++ newer, earlier, by rw [split, List.append_assoc], before⟩

theorem among_of_mem {entry : ε} (h : .create entry directory ∈ log) :
    Among entry directory (changes directory log) log := by
  obtain ⟨later, earlier, split⟩ := List.append_of_mem h
  refine ⟨later, earlier, split, ?_⟩
  rw [split, changes_append]
  show _ < changes directory later + ((if directory = directory then 1 else 0) + changes directory earlier)
  rw [if_pos rfl]
  omega

theorem EntrySynced.append {entry : ε} (h : EntrySynced entry directory log)
    (later : List (Op φ ε δ μ)) : EntrySynced entry directory (later ++ log) := by
  obtain ⟨n, mem, among⟩ := h
  exact ⟨n, List.mem_append_right _ mem, among.append later⟩

theorem Settled.append {after : List μ} (h : Settled m after log) (later : List (Op φ ε δ μ)) :
    Settled m (replaced later ++ after) (later ++ log) := by
  obtain ⟨newer, earlier, directory, n, split, rest, before, mem⟩ := h
  refine ⟨later ++ newer, earlier, directory, n, ?_, ?_, before, List.mem_append_right _ mem⟩
  · rw [split, List.append_assoc]
  · rw [replaced_append, rest]

theorem Newest.append {n : Nat} (h : Newest m directory n log)
    (none_ : replaced later = []) : Newest m directory n (later ++ log) := by
  obtain ⟨newer, earlier, split, last, before⟩ := h
  refine ⟨later ++ newer, earlier, by rw [split, List.append_assoc], ?_, before⟩
  rw [replaced_append, none_, last, List.append_nil]

theorem Newest.mono {n n' : Nat} (h : Newest m directory n log) (le : n ≤ n') : Newest m directory n' log := by
  obtain ⟨newer, earlier, split, last, before⟩ := h
  exact ⟨newer, earlier, split, last, Nat.lt_of_lt_of_le before le⟩

theorem newest_replace (m : μ) (directory : δ) (log : List (Op φ ε δ μ)) :
    Newest m directory (changes directory (.replace m directory :: log)) (.replace m directory :: log) := by
  refine ⟨[], log, rfl, rfl, ?_⟩
  show _ < (if directory = directory then 1 else 0) + changes directory log
  rw [if_pos rfl]
  omega

theorem Newest.settled {n : Nat} (h : Newest m directory n log) : Settled m [] (.syncDirectory directory n :: log) := by
  obtain ⟨newer, earlier, split, last, before⟩ := h
  exact ⟨.syncDirectory directory n :: newer, earlier, directory, n, congrArg _ split, last, before, List.mem_cons_self ..⟩

end

/-! What a crash leaves of what was synced. -/

variable [DecidableEq φ] [DecidableEq δ]

theorem Synced.intact {file : φ} {bytes : Nat} (h : Synced file bytes log)
    (written : bytes ≤ size file log) (crash : Crash keep log) : Intact keep file bytes log := by
  obtain ⟨n, covers, mem⟩ := h
  refine ⟨written, fun later earlier k split before => ?_⟩
  exact crash.file later earlier file k n split mem (Nat.lt_of_lt_of_le before covers)

theorem EntrySynced.present {entry : ε} (h : EntrySynced entry directory log)
    (crash : Crash keep log) : Present keep entry directory log := by
  obtain ⟨n, mem, later, earlier, split, before⟩ := h
  exact ⟨later, earlier, split, crash.entry later earlier entry directory n split mem before⟩

theorem Settled.visible {after : List μ} (h : Settled m after log)
    (crash : Crash keep log) : visible keep log = some m ∨ ∃ m' ∈ after, visible keep log = some m' := by
  obtain ⟨later, earlier, directory, n, split, rest, before, mem⟩ := h
  have kept := crash.contents later earlier m directory n split mem before
  have here : Disk.visible keep (.replace m directory :: earlier) = some m := if_pos kept
  rw [split, ← rest]
  rcases visible_append keep later (.replace m directory :: earlier) with same | newer
  · exact .inl (same.trans here)
  · exact .inr newer

theorem crash_everything (log : List (Op φ ε δ μ)) : Crash everything log :=
  ⟨fun _ _ _ _ _ _ _ _ => rfl, fun _ _ _ _ _ _ _ _ => rfl, fun _ _ _ _ _ _ _ _ => rfl⟩

end Disk
