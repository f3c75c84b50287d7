import Mathlib.Data.List.Basic
import Mathlib.Data.List.Induction

/-!
# Histories

A history is a list with the oldest entry first. `Each P` says of every entry that `P`
holds of it and of what came before it, so it is kept by an entry that `P` allows next.
-/

namespace History

variable {ε δ : Type*} {P Q : List ε → ε → Prop} {es : List ε} {e : ε}

def Each (P : List ε → ε → Prop) (es : List ε) : Prop :=
  ∀ before e after, es = before ++ e :: after → P before e

theorem each_nil : Each P [] := by
  intro before e after split
  simp at split

/-- It held when the history was shorter. -/
theorem each_of_append (fs : List ε) (each : Each P (es ++ fs)) : Each P es := by
  intro before f after split
  exact each before f (after ++ fs) (by simp [split])

/-- Seen from the last entry. -/
theorem each_concat : Each P (es ++ [e]) ↔ Each P es ∧ P es e := by
  constructor
  · intro each
    exact ⟨each_of_append [e] each, each es e [] rfl⟩
  · rintro ⟨earlier, last⟩ before f after split
    rcases List.eq_nil_or_concat after with rfl | ⟨init, g, rfl⟩
    · obtain ⟨rfl, same⟩ := List.append_inj' split rfl
      obtain rfl := (List.cons.inj same).1
      exact last
    · have split' : es ++ [e] = (before ++ f :: init) ++ [g] := by simpa using split
      exact earlier before f init (List.append_inj' split' rfl).1

end History
