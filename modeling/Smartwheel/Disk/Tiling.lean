import Mathlib.Data.List.Basic
import Mathlib.Data.List.Infix

/-! What is left of a write that was cut short. -/
namespace Disk
variable {α : Type*}

theorem cut_write (file bytes : List α) (arrived kept : Nat) :
    List.IsPrefix (file ++ bytes.take arrived ++ (bytes.drop arrived).take kept) (file ++ bytes) := by
  rw [List.append_assoc]
  apply (List.prefix_append_right_inj file).mpr
  refine ⟨(bytes.drop arrived).drop kept, ?_⟩
  rw [List.append_assoc, List.take_append_drop, List.take_append_drop]

theorem cut_pieces {pieces : List (List α)} {content : List α} (h : List.IsPrefix content pieces.flatten) :
    ∃ whole part, content = whole.flatten ++ part ∧
      (part = [] ∧ List.IsPrefix whole pieces ∨ ∃ next, List.IsPrefix (whole ++ [next]) pieces ∧ List.IsPrefix part next) := by
  induction pieces generalizing content with
  | nil =>
    rw [List.flatten_nil, List.prefix_nil] at h
    exact ⟨[], [], h, .inl ⟨rfl, List.prefix_rfl⟩⟩
  | cons piece pieces ih =>
    rw [List.flatten_cons] at h
    rcases List.prefix_or_prefix_of_prefix h (List.prefix_append piece pieces.flatten) with inside | beyond
    · exact ⟨[], content, rfl, .inr ⟨piece, ⟨pieces, rfl⟩, inside⟩⟩
    · obtain ⟨rest, split⟩ := beyond
      rw [← split, List.prefix_append_right_inj] at h
      obtain ⟨whole, part, same, more⟩ := ih h
      refine ⟨piece :: whole, part, ?_, ?_⟩
      · rw [← split, same, List.flatten_cons, List.append_assoc]
      · rcases more with ⟨none_, whole'⟩ | ⟨next, whole', part'⟩
        · exact .inl ⟨none_, (List.cons_prefix_cons).mpr ⟨rfl, whole'⟩⟩
        · exact .inr ⟨next, (List.cons_prefix_cons).mpr ⟨rfl, whole'⟩, part'⟩

end Disk

/-! ### A file that is a sequence of blocks, and an index that says where each of them begins. -/
namespace Disk
variable {ε α : Type*} {offset : ε → Nat} {block : ε → List α} {e : ε} {entries : List ε} {start : Nat}

def joined (block : ε → List α) (entries : List ε) : List α := (entries.map block).flatten

/-- The blocks follow each other from `start`, without gap or overlap. -/
def Tiles (offset : ε → Nat) (block : ε → List α) : Nat → List ε → Prop
  | _, [] => True
  | start, e :: entries => offset e = start ∧ Tiles offset block (start + (block e).length) entries

@[simp] theorem joined_cons : joined block (e :: entries) = block e ++ joined block entries := rfl

theorem joined_append (entries entries' : List ε) :
    joined block (entries ++ entries') = joined block entries ++ joined block entries' := by
  unfold joined
  rw [List.map_append, List.flatten_append]

theorem joined_single (e : ε) : joined block [e] = block e := List.append_nil _

theorem Tiles.snoc (h : Tiles offset block start entries) (last : offset e = start + (joined block entries).length) :
    Tiles offset block start (entries ++ [e]) := by
  induction entries generalizing start with
  | nil => exact ⟨last, trivial⟩
  | cons first entries ih =>
    refine ⟨h.1, ih h.2 ?_⟩
    rw [last, joined_cons, List.length_append, Nat.add_assoc]

theorem Tiles.first {later : List ε} (h : Tiles offset block start (entries ++ later)) : Tiles offset block start entries := by
  induction entries generalizing start with
  | nil => trivial
  | cons first entries ih => exact ⟨h.1, ih h.2⟩

theorem Tiles.read (h : Tiles offset block start entries) (mem : e ∈ entries) (more : List α) :
    start ≤ offset e ∧ offset e + (block e).length ≤ start + (joined block entries).length ∧
      ((joined block entries ++ more).drop (offset e - start)).take (block e).length = block e := by
  induction entries generalizing start with
  | nil => cases mem
  | cons first entries ih =>
    rw [joined_cons, List.length_append]
    rcases List.mem_cons.mp mem with same | later
    · rw [same, h.1, Nat.sub_self, List.drop_zero, List.append_assoc]
      exact ⟨Nat.le_refl _, by omega, List.take_left⟩
    · obtain ⟨low, high, found⟩ := ih h.2 later
      refine ⟨by omega, by omega, ?_⟩
      have beyond : offset e - start = (block first).length + (offset e - (start + (block first).length)) := by omega
      rw [beyond, List.append_assoc, ← List.drop_drop, List.drop_left]
      exact found

theorem Tiles.read_part (h : Tiles offset block 0 entries) (mem : e ∈ entries) (some_ : 0 < (block e).length)
    (more : List α) (n : Nat) :
    let stored := (((joined block entries ++ more).take n).drop (offset e)).take (block e).length
    stored = block e ∨ stored.length < (block e).length := by
  obtain ⟨-, high, found⟩ := h.read mem more
  intro stored
  by_cases inside : offset e + (block e).length ≤ n
  · left
    show (((joined block entries ++ more).take n).drop (offset e)).take (block e).length = _
    rw [List.drop_take, List.take_take, Nat.min_eq_left (by omega)]
    exact found
  · right
    show ((((joined block entries ++ more).take n).drop (offset e)).take (block e).length).length < _
    rw [List.length_take, List.length_drop, List.length_take, List.length_append]
    omega

end Disk

/-! ### Blocks that are written into a buffer, each at its place. -/
namespace Disk
variable {α : Type*} {buffer : List α} {start k : ℕ} {block : List α}

def patch (buffer : List α) (w : ℕ × List α) : List α := buffer.take w.1 ++ w.2 ++ buffer.drop (w.1 + w.2.length)

def Separate (w w' : ℕ × List α) : Prop := w.1 + w.2.length ≤ w'.1 ∨ w'.1 + w'.2.length ≤ w.1

theorem patch_length (fits : start + block.length ≤ buffer.length) : (patch buffer (start, block)).length = buffer.length := by
  simp only [patch, List.length_append, List.length_take, List.length_drop]
  omega

theorem patch_getElem? (fits : start + block.length ≤ buffer.length) :
    (patch buffer (start, block))[k]? = if start ≤ k ∧ k < start + block.length then block[k - start]? else buffer[k]? := by
  have first : (buffer.take start).length = start := by
    rw [List.length_take]
    omega
  simp only [patch, List.append_assoc]
  by_cases before : k < start
  · rw [if_neg (by omega), List.getElem?_append_left (by omega), List.getElem?_take_of_lt before]
  · rw [List.getElem?_append_right (by omega), first]
    by_cases inside : k < start + block.length
    · rw [if_pos ⟨by omega, inside⟩, List.getElem?_append_left (by omega)]
    · rw [if_neg (by omega), List.getElem?_append_right (by omega), List.getElem?_drop]
      congr 1
      omega

theorem patches {ws : List (ℕ × List α)} (fits : ∀ w ∈ ws, w.1 + w.2.length ≤ buffer.length) (apart : ws.Pairwise Separate) :
    (ws.foldl patch buffer).length = buffer.length ∧
      (∀ w ∈ ws, ∀ i < w.2.length, (ws.foldl patch buffer)[w.1 + i]? = w.2[i]?) ∧
      ∀ k, (∀ w ∈ ws, ¬(w.1 ≤ k ∧ k < w.1 + w.2.length)) → (ws.foldl patch buffer)[k]? = buffer[k]? := by
  induction ws generalizing buffer with
  | nil => simp
  | cons w rest ih =>
    have first := fits w (by simp)
    have size : (patch buffer w).length = buffer.length := patch_length first
    obtain ⟨separate, apart⟩ := List.pairwise_cons.mp apart
    obtain ⟨length, there, others⟩ := ih (fun w' inside => by rw [size]; exact fits w' (by simp [inside])) apart
    refine ⟨length.trans size, fun w' inside i below => ?_, fun k out => ?_⟩
    · rcases List.mem_cons.mp inside with rfl | later
      · rw [List.foldl_cons, others _ fun w'' later => ?_, patch_getElem? first, if_pos ⟨by omega, by omega⟩, Nat.add_sub_cancel_left]
        rcases separate w'' later with low | high <;> omega
      · exact there w' later i below
    · rw [List.foldl_cons, others k fun w' later => out w' (by simp [later]), patch_getElem? first, if_neg (out w (by simp))]

theorem patches_read {ws : List (ℕ × List α)} (fits : ∀ w ∈ ws, w.1 + w.2.length ≤ buffer.length)
    (apart : ws.Pairwise Separate) {w : ℕ × List α} (inside : w ∈ ws) :
    ((ws.foldl patch buffer).drop w.1).take w.2.length = w.2 := by
  obtain ⟨length, there, -⟩ := patches fits apart
  apply List.ext_getElem?
  intro i
  by_cases below : i < w.2.length
  · rw [List.getElem?_take_of_lt below, List.getElem?_drop, there w inside i below]
  · rw [List.getElem?_eq_none (by rw [List.length_take]; omega), List.getElem?_eq_none (by omega)]

end Disk
