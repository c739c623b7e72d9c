import Mathlib.Data.List.Basic

/-! Scanning a stream that comes in pieces. A scanner looks at what it holds, and either waits for more or takes some of
it for a finding; where more input does not change what it takes, how the input was cut does not matter. -/
namespace Smartwheel.Scan

structure Scanner (α β : Type*) where
  look : List α → Option (ℕ × β)
  advances : ∀ {held count x}, look held = some (count, x) → 0 < count ∧ count ≤ held.length
  steady : ∀ {held count x} more, look held = some (count, x) → look (held ++ more) = some (count, x)

namespace Scanner
variable {α β : Type*} {S : Scanner α β} {held more rest rest' : List α} {found found' : List (List α × β)}

/-- What was taken from `held`, each piece with its finding, and what is left. -/
inductive Takes (S : Scanner α β) : List α → List (List α × β) → List α → Prop
  | done (held : List α) : Takes S held [] held
  | take {held rest : List α} {count : ℕ} {x : β} {found : List (List α × β)} (looks : S.look held = some (count, x))
      (later : Takes S (held.drop count) found rest) : Takes S held ((held.take count, x) :: found) rest

def Settled (S : Scanner α β) (held : List α) : Prop := S.look held = none

theorem Takes.one {count : ℕ} {x : β} (looks : S.look held = some (count, x)) :
    S.Takes held [(held.take count, x)] (held.drop count) := .take looks (.done _)

theorem Takes.trans (first : S.Takes held found rest) (second : S.Takes rest found' rest') :
    S.Takes held (found ++ found') rest' := by
  induction first with
  | done => exact second
  | take looks _ ih => exact .take looks (ih second)

theorem Takes.conserved (h : S.Takes held found rest) : held = (found.map Prod.fst).flatten ++ rest := by
  induction h with
  | done => rfl
  | @take held rest count x found looks _ ih =>
    have split : held = held.take count ++ held.drop count := (List.take_append_drop count held).symm
    rw [List.map_cons, List.flatten_cons, List.append_assoc, ← ih]
    exact split

theorem Takes.extend (more : List α) (h : S.Takes held found rest) : S.Takes (held ++ more) found (rest ++ more) := by
  induction h with
  | done => exact .done _
  | @take held rest count x found looks _ ih =>
    have within := (S.advances looks).2
    have piece : (held ++ more).take count = held.take count := List.take_append_of_le_length within
    have left : (held ++ more).drop count = held.drop count ++ more := List.drop_append_of_le_length within
    rw [← piece]
    exact .take (S.steady more looks) (by rw [left]; exact ih)

theorem Takes.unique (h : S.Takes held found rest) (settled : S.Settled rest) (h' : S.Takes held found' rest')
    (settled' : S.Settled rest') : found = found' ∧ rest = rest' := by
  induction h generalizing found' with
  | done =>
    cases h' with
    | done => exact ⟨rfl, rfl⟩
    | take looks => simp [looks, Settled] at settled
  | take looks _ ih =>
    cases h' with
    | done => simp [looks, Settled] at settled'
    | take looks' later =>
      obtain ⟨rfl, rfl⟩ : _ ∧ _ := by simpa using looks.symm.trans looks'
      obtain ⟨rfl, rfl⟩ := ih settled later
      exact ⟨rfl, rfl⟩

theorem Takes.pieces (first : S.Takes held found rest) (second : S.Takes (rest ++ more) found' rest') :
    S.Takes (held ++ more) (found ++ found') rest' := (first.extend more).trans second

end Scanner
end Smartwheel.Scan
