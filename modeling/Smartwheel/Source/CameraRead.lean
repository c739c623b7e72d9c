import Smartwheel.Disk.Tiling
import Smartwheel.Source.CameraFrame

/-! A row of the writer is read back. -/
namespace Smartwheel.Source.Camera
open Archive (Path)

variable {k : Codec} {compression : Compression} {f : Frame} {e : Entry} {d : Directory}

theorem stored_bounds (lossless : k.Lossless) (compression : Compression) (f : Frame) :
    0 < (stored k compression f).length ∧ ((stored k compression f).length : Int) ≤ maxCameraDecodedBytes + 65536 := by
  cases compression with
  | zlib => exact ⟨lossless.some_ f.data, lossless.bounded f.data f.bounded⟩
  | none =>
    have some_ : 0 < f.data.length := by
      rw [f.size]
      exact Nat.mul_pos (Nat.mul_pos f.width_pos f.height_pos) (by decide)
    have bounded := f.bounded
    exact ⟨some_, by show (f.data.length : Int) ≤ _; omega⟩

theorem decimal_inj {m n : Nat} (h : decimal m = decimal n) : m = n := by
  have value (n : Nat) : Nat.ofDigitChars 10 (decimal n).toList 0 = n := by
    unfold decimal
    rw [String.toList_ofList, Nat.ofDigitChars_append, Nat.ofDigitChars_replicate_zero, Nat.mul_zero]
    exact Nat.ofDigitChars_ten_toDigits
  rw [← value m, h, value n]

theorem chunkPath_inj {m n : Nat} (h : chunkPath m = chunkPath n) : m = n := by
  have name : chunkName m = chunkName n := List.singleton_inj.mp (congrArg Path.parts h)
  have chars := congrArg String.toList name
  unfold chunkName at chars
  simp only [String.toList_append] at chars
  have digits := List.append_cancel_left (List.append_cancel_right chars)
  exact decimal_inj (String.toList_inj.mp digits)

theorem chunkPath_plain (n : Nat) : ".." ∉ (chunkPath n).parts := by
  intro mem
  have name : ".." = chunkName n := List.mem_singleton.mp mem
  have long := congrArg String.length name
  unfold chunkName at long
  rw [String.length_append, String.length_append] at long
  have short : "..".length = 2 := rfl
  have head : "frames-".length = 7 := rfl
  omega

theorem refuseIf_pass {c : Prop} [Decidable c] (text : String) (h : ¬c) : refuseIf c text = .ok () := if_neg h

theorem after_ok {α β : Type} {x : Except Refusal α} {a : α} (g : α → Except Refusal β) (h : x = .ok a) :
    (x >>= g) = g a := by
  rw [h]
  rfl

structure Directory.Has (d : Directory) (e : Entry) (bytes : Bytes) : Prop where
  isDir : d.isDir = true
  plain : d.isSymlink (chunkPath e.chunk) = false
  inside : d.inside (chunkPath e.chunk) = true
  file : d.file (chunkPath e.chunk) = some bytes

theorem readBlock_has {bytes : Bytes} (has : d.Has e bytes) (offset length : Nat) :
    readBlock d (e.row k compression) offset length =
      if ((bytes.drop offset).take length).length ≠ length then .error (.value "camera stored block truncated")
      else .ok ((bytes.drop offset).take length) := by
  have plain := chunkPath_plain e.chunk
  refine (after_ok _ (refuseIf_pass _ ?_)).trans ((after_ok _ rfl).trans ((after_ok _ rfl).trans
    ((after_ok _ (refuseIf_pass _ ?_)).trans ((after_ok _ (a := bytes) ?_).trans ?_))))
  · rw [has.isDir]
    decide
  · rw [has.plain, has.inside]
    rintro (absolute | up | link | out)
    · cases absolute
    · exact plain up
    · cases link
    · cases out
  · rw [has.file]
    rfl
  · dsimp only
    unfold refuseIf
    split
    · rfl
    · rfl

theorem checkStored_entry : checkStored k (e.row k compression) (stored k compression e.frame) e.frame.data.length = .ok () := by
  have size : (Value.int e.frame.data.length).is e.frame.data.length = true := decide_eq_true rfl
  have digest : digestIs k (stored k compression e.frame) (some (.text (k.sha256 (stored k compression e.frame)))) = true :=
    decide_eq_true rfl
  refine (after_ok _ (refuseIf_pass _ ?_)).trans (refuseIf_pass _ ?_)
  · exact fun other => other.2 rfl
  · rintro ⟨-, other | other⟩
    · rw [Entry.row, Option.any_some, size] at other
      cases other
    · rw [Entry.row, digest] at other
      cases other

theorem decode_entry (lossless : k.Lossless) :
    decode k (e.row k compression) (stored k compression e.frame) e.frame.data.length = .ok e.frame.data := by
  cases compression with
  | none => rfl
  | zlib =>
    have size : (Value.int e.frame.data.length).is e.frame.data.length = true := decide_eq_true rfl
    have digest : digestIs k (k.compress e.frame.data) (some (.text (k.sha256 (k.compress e.frame.data)))) = true :=
      decide_eq_true rfl
    have inflated := lossless.inverts e.frame.data (e.frame.data.length + 1) (Nat.lt_succ_self _)
    refine (after_ok _ (refuseIf_pass _ ?_)).trans ((after_ok _ (refuseIf_pass _ ?_)).trans
      ((after_ok _ (a := ⟨e.frame.data, true, [], []⟩) ?_).trans ((after_ok _ (refuseIf_pass _ ?_)).trans rfl)))
    · rintro (other | other)
      · exact other rfl
      · rw [Entry.row, Option.any_some, size] at other
        cases other
    · intro other
      rw [Entry.row, stored, digest] at other
      cases other
    · rw [stored, inflated]
      rfl
    · rintro (other | other | other | other)
      · exact other rfl
      · cases other
      · exact other rfl
      · exact other rfl

theorem positive_nat {n : Nat} (some_ : 0 < n) : (Value.int n).positive = some n := if_pos (Int.natCast_pos.mpr some_)

theorem read_entry_block (lossless : k.Lossless) :
    readCameraFrame k d (e.row k compression) maxCameraDecodedBytes = do
      let block ← readBlock d (e.row k compression) e.offset (stored k compression e.frame).length
      checkStored k (e.row k compression) block e.frame.data.length
      let decoded ← decode k (e.row k compression) block e.frame.data.length
      refuseIf (decoded.length ≠ e.frame.data.length) "camera decoded bytes differ"
      refuseIf (Value.text (k.sha256 e.frame.data) ≠ .text (k.sha256 decoded)) "camera decoded bytes differ"
      return decoded := by
  obtain ⟨some_, bounded⟩ := stored_bounds lossless compression e.frame
  have block : blockOf (.int e.offset) (.int (stored k compression e.frame).length) maxCameraDecodedBytes =
      some (e.offset, (stored k compression e.frame).length) :=
    if_pos ⟨Int.natCast_nonneg _, Int.natCast_pos.mpr some_, bounded⟩
  rw [e.frame.size]
  refine (after_ok _ (refuseIf_pass _ (by decide))).trans ((after_ok _ rfl).trans ((after_ok _ rfl).trans
    ((after_ok _ (a := e.frame.width) ?_).trans ((after_ok _ (a := e.frame.height) ?_).trans
    ((after_ok _ (refuseIf_pass _ ?_)).trans ((after_ok _ rfl).trans ((after_ok _ rfl).trans
    ((after_ok _ (a := (e.offset, (stored k compression e.frame).length)) ?_).trans rfl))))))))
  · rw [positive_nat e.frame.width_pos]
    rfl
  · rw [positive_nat e.frame.height_pos]
    rfl
  · have limit := e.frame.bounded
    rw [e.frame.size] at limit
    exact Int.not_lt.mpr limit
  · rw [block]
    rfl

theorem read_whole (lossless : k.Lossless) {bytes : Bytes} (has : d.Has e bytes)
    (there : (bytes.drop e.offset).take (stored k compression e.frame).length = stored k compression e.frame) :
    readCameraFrame k d (e.row k compression) maxCameraDecodedBytes = .ok e.frame.data := by
  rw [read_entry_block lossless]
  refine (after_ok _ (a := stored k compression e.frame) ?_).trans ((after_ok _ checkStored_entry).trans
    ((after_ok _ (decode_entry lossless)).trans ((after_ok _ (refuseIf_pass _ ?_)).trans
    ((after_ok _ (refuseIf_pass _ ?_)).trans rfl))))
  · rw [readBlock_has has, there]
    exact if_neg fun other => other rfl
  · exact fun other => other rfl
  · exact fun other => other rfl

theorem read_short (lossless : k.Lossless) {bytes : Bytes} (has : d.Has e bytes)
    (short : ((bytes.drop e.offset).take (stored k compression e.frame).length).length <
      (stored k compression e.frame).length) :
    readCameraFrame k d (e.row k compression) maxCameraDecodedBytes =
      .error (.value "camera stored block truncated") := by
  rw [read_entry_block lossless, readBlock_has has, if_pos (Nat.ne_of_lt short)]
  rfl

end Smartwheel.Source.Camera
