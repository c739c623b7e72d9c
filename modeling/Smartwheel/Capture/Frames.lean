import Smartwheel.Capture.Finalize

/-! What the parts of a finalization leave of the names that they are not about. -/
namespace Smartwheel.Capture
open Effect Disk
open Effect.Program hiding pure bind

variable {β η : Type} {docs : List Path} {s₀ : Site β} {s s' : Site β} {p : Path} {c : Content β}

/-- The names of `docs` have what they had, now and after a loss of power. -/
structure Framed (docs : List Path) (s₀ s : Site β) : Prop where
  valid : s.final.Valid
  staged : s.staged = s₀.staged
  frame : ∀ p ∈ docs, Volume.Frame s₀.final s.final p

/-- A name that is none of `docs`, or that is there already. -/
def Clear (docs : List Path) (s₀ : Site β) (p : Path) : Prop := p ∈ docs → s₀.final.present p = true

theorem Clear.of_not_mem (out : p ∉ docs) : Clear docs s₀ p := fun there => absurd there out

theorem Framed.start (valid : s.final.Valid) : Framed docs s s := ⟨valid, rfl, fun _ _ => .refl _ _⟩

theorem Framed.less {docs' : List Path} (h : Framed docs s₀ s) (sub : ∀ p ∈ docs', p ∈ docs) : Framed docs' s₀ s :=
  ⟨h.valid, h.staged, fun p there => h.frame p (sub p there)⟩

theorem Framed.trans {s₁ s₂ : Site β} (h : Framed docs s s₁) (h' : Framed docs s₁ s₂) : Framed docs s s₂ :=
  ⟨h'.valid, h'.staged.trans h.staged, fun p there => (h.frame p there).trans (h'.frame p there)⟩

theorem Framed.apart {names : List Path} (h : Framed docs s₀ s) (apart : Volume.Apart names s.final s'.final)
    (out : ∀ n ∈ names, n ∉ docs) (staged : s'.staged = s.staged) : Framed docs s₀ s' :=
  ⟨apart.valid, staged.trans h.staged, fun p there => (h.frame p there).trans (apart.frame p fun here => out p here there)⟩

theorem Framed.holds (h : Framed docs s₀ s) (there : p ∈ docs) : s.final.holds p = s₀.final.holds p := (h.frame p there).holds h.valid

theorem Framed.write (h : Framed docs s₀ s) (out : p ∉ docs) : Framed docs s₀ (onFinal (Volume.write p c ()) s) :=
  h.apart (.write h.valid) (by simpa using out) rfl

theorem Framed.torn (h : Framed docs s₀ s) (out : p ∉ docs) (way : ℕ) : Framed docs s₀ (torn p c way s) := by
  cases way with
  | zero => exact h
  | succ way => exact h.write out

theorem Framed.syncFile (h : Framed docs s₀ s) : Framed docs s₀ (onFinal (Volume.syncFile p) s) :=
  h.apart (.syncFile h.valid) (by simp) rfl

theorem Framed.syncDir (h : Framed docs s₀ s) {d : Path} : Framed docs s₀ (onFinal (Volume.syncDir List.dropLast d) s) :=
  h.apart (.syncDir h.valid) (by simp) rfl

theorem Framed.rename {a b : Path} (h : Framed docs s₀ s) (first : a ∉ docs) (second : b ∉ docs) :
    Framed docs s₀ (onFinal (Volume.rename a b) s) := h.apart (.rename h.valid) (by simp [first, second]) rfl

theorem Framed.unlink (h : Framed docs s₀ s) (out : p ∉ docs) : Framed docs s₀ (onFinal (Volume.unlink p) s) :=
  h.apart (.unlink h.valid) (by simpa using out) rfl

theorem Framed.mkdir (h : Framed docs s₀ s) (out : p ∉ docs) : Framed docs s₀ (mkdir p s) := by
  have made : Framed docs s₀ (onFinal (Volume.syncFile p) (onFinal (Volume.write p .folder ()) s)) := (h.write out).syncFile
  exact ⟨made.valid, made.staged, made.frame⟩

theorem Framed.absent (h : Framed docs s₀ s) (clear : Clear docs s₀ p) (absent : s.final.present p = false) : p ∉ docs := by
  intro there
  have here := (h.frame p there).present
  rw [absent, clear there] at here
  cases here

/-! The parts. -/

variable {J : Site β → Prop}

theorem check_keeps {reason : String} : (check reason : Program (Host (Site β)) String Unit).Keeps J :=
  Keeps.atomic fun _ h => h

theorem guard_keeps : (guard : Program (Host (Site β)) String Unit).Keeps J := check_keeps

theorem writeFile_keeps (out : p ∉ docs) : (writeFile p c).Keeps (Framed docs s₀) :=
  Keeps.attempt (fun _ h => h.write out) fun way _ h => h.torn out way

theorem new_runs {x : Program (Host (Site β)) String Unit} (h : Framed docs s₀ s) (clear : Clear docs s₀ p)
    (next : p ∉ docs → x.Keeps (Framed docs s₀)) :
    (do
      let there ← view "OSError" fun s : Site β => decide (s.final.present p = true ∨ ¬s.IsDirectory p.dropLast)
      raiseIf (there = true) "OSError"
      x).Runs False (Framed docs s₀) (fun _ s' => p ∉ docs ∧ Framed docs s₀ s') (fun _ => Framed docs s₀) s := by
  refine Runs.view_bind ?_ (fun _ => h) h
  refine Runs.raiseIf_bind (fun _ => h) fun fine => ?_
  have absent : s.final.present p = false := by
    simp only [decide_eq_true_eq, not_or] at fine
    simpa using fine.1
  have out := h.absent clear absent
  exact (next out s h).weaken (fun _ h => h) (fun _ _ h => ⟨out, h⟩) fun _ _ h => h

theorem writeNew_runs (h : Framed docs s₀ s) (clear : Clear docs s₀ p) :
    (writeNew p c).Runs False (Framed docs s₀) (fun _ s' => p ∉ docs ∧ Framed docs s₀ s') (fun _ => Framed docs s₀) s :=
  new_runs h clear writeFile_keeps

theorem writeNew_keeps (clear : Clear docs s₀ p) : (writeNew p c).Keeps (Framed docs s₀) := fun _ h =>
  (writeNew_runs h clear).weaken (fun _ h => h) (fun _ _ h => h.2) fun _ _ h => h

theorem makeDirectory_keeps (clear : Clear docs s₀ p) : (makeDirectory p).Keeps (Framed docs s₀) := fun _ h =>
  (new_runs h clear fun out => Keeps.atomic fun _ h => h.mkdir out).weaken (fun _ h => h) (fun _ _ h => h.2) fun _ _ h => h

theorem tried_keeps {α : Type} {x : Program (Host (Site β)) String α} (h : x.Keeps J) : (tried x).Keeps J := by
  unfold tried
  exact (h.bind fun _ => Keeps.pure _).handle fun _ => Keeps.pure _

theorem stage_keeps {x : Program (Host (Site β)) String Unit} {code evidence : String}
    (h : x.Keeps J) : (stage x code evidence).Keeps J := by
  unfold stage
  exact (h.bind fun _ => Keeps.pure _).handle fun _ => Keeps.pure _

section
variable (clear : ∀ q, Clear docs s₀ ("sources" :: q))
include clear

theorem copyEntries_keeps {side : Path} {entries : List (Path × Option (Content β))} :
    (copyEntries ("sources" :: side) entries).Keeps (Framed docs s₀) := by
  induction entries with
  | nil => exact Keeps.pure false
  | cons entry rest ih =>
    obtain ⟨q, entry⟩ := entry
    unfold copyEntries
    refine Keeps.bind (Keeps.handle ?_ fun _ => Keeps.pure true) fun _ => ih.bind fun _ => Keeps.pure _
    cases entry with
    | none => exact (makeDirectory_keeps (clear _)).bind fun _ => Keeps.pure false
    | some c => exact (writeNew_keeps (clear _)).bind fun _ => Keeps.pure false

theorem copySides_keeps {sides : List (String × Option (List (Path × Option (Content β))))} :
    (copySides sides).Keeps (Framed docs s₀) := by
  induction sides with
  | nil => exact Keeps.pure []
  | cons side rest ih =>
    have one : (copySide side).Keeps (Framed docs s₀) := by
      obtain ⟨name, entries⟩ := side
      cases entries with
      | none => exact guard_keeps
      | some entries =>
        exact guard_keeps.bind fun _ => (makeDirectory_keeps (clear _)).bind fun _ => (copyEntries_keeps clear).bind fun _ =>
          Keeps.raiseIf
    exact (stage_keeps one).bind fun _ => ih.bind fun _ => Keeps.pure _

theorem copySources_keeps {r : Request β η} : (copySources r).Keeps (Framed docs s₀) := by
  unfold copySources
  refine (tried_keeps (check_keeps.bind fun _ => makeDirectory_keeps (clear _))).bind fun made => ?_
  cases made with
  | error error => exact Keeps.pure _
  | ok _ => exact copySides_keeps clear

theorem makeParents_keeps {top : Path} {names : List String} : (makeParents ("sources" :: top) names).Keeps (Framed docs s₀) := by
  induction names generalizing top with
  | nil => exact Keeps.pure ()
  | cons name rest ih =>
    exact Keeps.view.bind fun _ => (Keeps.when (makeDirectory_keeps (clear _))).bind fun _ => ih

theorem createSourceIndexes_keeps {indexes : List (Path × Content β)} : (createSourceIndexes indexes).Keeps (Framed docs s₀) := by
  induction indexes with
  | nil => exact check_keeps
  | cons entry rest ih =>
    obtain ⟨q, c⟩ := entry
    unfold createSourceIndexes
    refine (makeParents_keeps clear).bind fun _ s h => ?_
    refine (writeNew_runs h (clear q)).bind fun _ s h => ?_
    exact (ih.bind fun _ => writeFile_keeps h.1) s h.2

theorem indexSources_keeps {r : Request β η} : (indexSources r).Keeps (Framed docs s₀) := by
  unfold indexSources
  split
  · exact stage_keeps (guard_keeps.bind fun _ => createSourceIndexes_keeps clear)
  · exact Keeps.pure []

end

theorem missingFiles_keeps {hashes : List (Path × η)} :
    (missingFiles hashes : Program (Host (Site β)) String (Bool × List Issue)).Keeps J := by
  induction hashes with
  | nil => exact Keeps.pure _
  | cons entry rest ih =>
    refine (tried_keeps Keeps.view).bind fun there => ?_
    match there with
    | .error error => exact Keeps.pure _
    | .ok true => exact ih
    | .ok false => exact ih.bind fun _ => Keeps.pure _

theorem changedFiles_keeps [DecidableEq η] {digest : Content β → η} {hashes : Table η} {listing : List Path} :
    (changedFiles digest hashes listing).Keeps J := by
  induction listing with
  | nil => exact Keeps.pure []
  | cons q rest ih =>
    unfold changedFiles
    refine (tried_keeps Keeps.view).bind fun content => ?_
    match content with
    | .error error => exact Keeps.pure _
    | .ok none => exact ih
    | .ok (some c) =>
      dsimp only
      split
      · exact ih
      · exact (stage_keeps check_keeps).bind fun _ => ih.bind fun _ => Keeps.pure _

theorem hashFiles_keeps [DecidableEq η] {digest : Content β → η} {r : Request β η} : (hashFiles digest r).Keeps J := by
  unfold hashFiles
  refine missingFiles_keeps.bind fun missing => ?_
  split
  · exact changedFiles_keeps.bind fun _ => Keeps.pure _
  · exact Keeps.pure _

theorem syncSteps_framed {listing : List Path} {site : Site β} {step : Site β → Site β} (there : step ∈ syncSteps listing site)
    (h : Framed docs s₀ s) : Framed docs s₀ (step s) := by
  rcases List.mem_append.mp there with file | dir
  · obtain ⟨q, -, rfl⟩ := List.mem_map.mp file
    exact h.syncFile
  · obtain ⟨d, -, rfl⟩ := List.mem_map.mp dir
    exact h.syncDir

theorem synchronizeTree_keeps {r : Request β η} : (synchronizeTree r).Keeps (Framed docs s₀ : Site β → Prop) := by
  unfold synchronizeTree
  intro s h
  refine Runs.view_bind ?_ (fun _ => h) h
  have all : (each (atomic "OSError") (syncSteps r.listing s)).Runs False (Framed docs s₀) (fun _ => Framed docs s₀)
      (fun _ => Framed docs s₀) s := by
    refine Runs.each (K := fun rest s' => (∀ step ∈ rest, step ∈ syncSteps r.listing s) ∧ Framed docs s₀ s') ?_ ?_ |>.weaken
      (fun _ h => h) (fun _ _ h => h.2) fun _ _ h => h
    · exact ⟨fun _ there => there, h⟩
    · rintro step rest s' ⟨known, h'⟩
      exact Runs.atomic ⟨fun other there => known other (List.mem_cons_of_mem _ there),
        syncSteps_framed (known step List.mem_cons_self) h'⟩ (fun _ => h') h'
  exact all.bind fun _ s h => check_keeps s h

theorem foldl_framed {steps : List (Site β → Site β)} (keep : ∀ step ∈ steps, ∀ s, Framed docs s₀ s → Framed docs s₀ (step s))
    (h : Framed docs s₀ s) : Framed docs s₀ (steps.foldl (fun s step => step s) s) := by
  induction steps generalizing s with
  | nil => exact h
  | cons step rest ih =>
    exact ih (fun other there => keep other (List.mem_cons_of_mem _ there)) (keep step List.mem_cons_self s h)

end Smartwheel.Capture
