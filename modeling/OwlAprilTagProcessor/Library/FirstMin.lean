import Mathlib.Data.List.Induction
import Mathlib.Order.Lattice

/-!
# The first minimum of a list

Where a function is least on a list, and first so among equals. A scan from left to right
that keeps its candidate on a tie finds it.
-/

variable {α β : Type*}

/-- `x`, at index `i`, is the first element of `xs` at which `f` is least. -/
structure FirstMin [Preorder β] (f : α → β) (xs : List α) (i : Nat) (x : α) : Prop where
  value : xs[i]? = some x
  least : ∀ (j : Nat) (y : α), xs[j]? = some y → f x ≤ f y
  first : ∀ (j : Nat) (y : α), j < i → xs[j]? = some y → f x < f y

namespace FirstMin

theorem singleton [Preorder β] (f : α → β) (x : α) : FirstMin f [x] 0 x := by
  refine ⟨rfl, ?_, by simp⟩
  intro j y hy
  obtain rfl := List.mem_singleton.mp (List.mem_of_getElem? hy)
  exact le_rfl

variable [LinearOrder β] {f : α → β} {xs : List α} {i : Nat} {x y : α}

/-- A smaller element takes over. -/
theorem concat_lt (h : FirstMin f xs i x) (smaller : f y < f x) :
    FirstMin f (xs ++ [y]) xs.length y := by
  refine ⟨by simp, ?_, ?_⟩
  · intro j z hz
    rcases List.mem_append.mp (List.mem_of_getElem? hz) with old | new
    · obtain ⟨k, hk⟩ := List.mem_iff_getElem?.mp old
      exact le_of_lt (lt_of_lt_of_le smaller (h.least k z hk))
    · obtain rfl := List.mem_singleton.mp new
      exact le_rfl
  · intro j z hj hz
    rw [List.getElem?_append_left hj] at hz
    exact lt_of_lt_of_le smaller (h.least j z hz)

/-- Any other leaves the minimum where it is. -/
theorem concat_le (h : FirstMin f xs i x) (larger : f x ≤ f y) :
    FirstMin f (xs ++ [y]) i x := by
  obtain ⟨within, -⟩ := List.getElem?_eq_some_iff.mp h.value
  refine ⟨by rw [List.getElem?_append_left within]; exact h.value, ?_, ?_⟩
  · intro j z hz
    rcases List.mem_append.mp (List.mem_of_getElem? hz) with old | new
    · obtain ⟨k, hk⟩ := List.mem_iff_getElem?.mp old
      exact h.least k z hk
    · obtain rfl := List.mem_singleton.mp new
      exact larger
  · intro j z hj hz
    rw [List.getElem?_append_left (Nat.lt_trans hj within)] at hz
    exact h.first j z hj hz

/-- The first minimum is determined, place and element. -/
theorem unique {j : Nat} (hx : FirstMin f xs i x) (hy : FirstMin f xs j y) : i = j ∧ x = y := by
  have same : i = j := by
    rcases Nat.lt_trichotomy i j with before | same | after
    · exact absurd (hx.least j y hy.value) (not_le_of_gt (hy.first i x before hx.value))
    · exact same
    · exact absurd (hy.least i x hx.value) (not_le_of_gt (hx.first j y after hy.value))
  subst same
  exact ⟨rfl, Option.some.inj (hx.value.symm.trans hy.value)⟩

theorem exists_of_ne_nil (nonempty : xs ≠ []) : ∃ i x, FirstMin f xs i x := by
  induction xs using List.reverseRecOn with
  | nil => exact absurd rfl nonempty
  | append_singleton xs y ih =>
    rcases List.eq_nil_or_concat xs with rfl | ⟨_, _, rfl⟩
    · exact ⟨0, y, singleton f y⟩
    · obtain ⟨i, x, h⟩ := ih (by simp)
      rcases lt_or_ge (f y) (f x) with smaller | larger
      · exact ⟨_, y, h.concat_lt smaller⟩
      · exact ⟨i, x, h.concat_le larger⟩

/-- A first minimum of the images comes from one of the elements. -/
theorem of_map {γ : Type*} {g : γ → α} {zs : List γ} (h : FirstMin f (zs.map g) i x) :
    ∃ z, FirstMin (fun z => f (g z)) zs i z ∧ g z = x := by
  have value := h.value
  rw [List.getElem?_map] at value
  obtain ⟨z, hz, rfl⟩ := Option.map_eq_some_iff.mp value
  refine ⟨z, ⟨hz, ?_, ?_⟩, rfl⟩
  · intro j w hw
    exact h.least j (g w) (by simp [hw])
  · intro j w before hw
    exact h.first j (g w) before (by simp [hw])

/-- Minima of two functions that fall on one element fall on one place. -/
theorem index_unique {γ : Type*} [LinearOrder γ] {g : α → γ} {j : Nat}
    (hf : FirstMin f xs i x) (hg : FirstMin g xs j x) : i = j := by
  rcases Nat.lt_trichotomy i j with before | same | after
  · exact absurd (hg.first i x before hf.value) (lt_irrefl _)
  · exact same
  · exact absurd (hf.first j x after hg.value) (lt_irrefl _)

end FirstMin
