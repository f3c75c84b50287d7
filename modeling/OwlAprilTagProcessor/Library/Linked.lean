import Mathlib.Algebra.BigOperators.Group.List.Basic
import Mathlib.Algebra.Order.BigOperators.Group.List
import Mathlib.Algebra.Order.Group.Unbundled.Basic

/-!
# Linked steps

A step leads from its `start` to its `stop`. Steps are linked when each one starts where
the one before it stops. The lengths of linked steps add up to the distance between the
two ends, so a bound on one step is a bound on the average of any number of them.
-/

namespace Linked

variable {α ι : Type*} {start stop : ι → α}

/-- The steps `xs` lead from `a` to `b`. -/
def Path (start stop : ι → α) : α → List ι → α → Prop
  | a, [], b => a = b
  | a, x :: xs, b => start x = a ∧ Path start stop (stop x) xs b

/-- The points a path from `a` goes through, both ends included. -/
def points (stop : ι → α) (a : α) (xs : List ι) : List α := a :: xs.map stop

theorem path_append {a b : α} {xs ys : List ι} :
    Path start stop a (xs ++ ys) b ↔
      ∃ c, Path start stop a xs c ∧ Path start stop c ys b := by
  induction xs generalizing a with
  | nil => simp [Path]
  | cons x xs ih => simp [Path, ih, and_assoc]

/-- The end of a path is determined. -/
theorem Path.unique {a b c : α} {xs : List ι} (hb : Path start stop a xs b)
    (hc : Path start stop a xs c) : b = c := by
  induction xs generalizing a with
  | nil => exact hb.symm.trans hc
  | cons x xs ih => exact ih hb.2 hc.2

/-- One more step. -/
theorem Path.concat {a b : α} {xs : List ι} {x : ι} (h : Path start stop a xs b)
    (next : start x = b) : Path start stop a (xs ++ [x]) (stop x) :=
  path_append.mpr ⟨b, h, next, rfl⟩

/-- The first `i` steps lead to point `i`. -/
theorem Path.take {a b p : α} {xs : List ι} {i : Nat} (h : Path start stop a xs b)
    (hp : (points stop a xs)[i]? = some p) : Path start stop a (xs.take i) p := by
  induction i generalizing a xs with
  | zero =>
    obtain rfl : a = p := by simpa [points] using hp
    rfl
  | succ i ih =>
    cases xs with
    | nil => simp [points] at hp
    | cons x xs => exact ⟨h.1, ih h.2 (by simpa [points] using hp)⟩

/-- The steps between point `i` and point `j`. -/
theorem Path.between {a b p q : α} {xs : List ι} {i j : Nat} (h : Path start stop a xs b)
    (ordered : i ≤ j) (hp : (points stop a xs)[i]? = some p)
    (hq : (points stop a xs)[j]? = some q) : Path start stop p (xs.extract i j) q := by
  have split : xs.take j = xs.take i ++ xs.extract i j := by
    rw [List.extract_eq_take_drop, ← List.take_add, Nat.add_sub_cancel' ordered]
  have upto := h.take hq
  rw [split] at upto
  obtain ⟨c, first, second⟩ := path_append.mp upto
  rwa [(h.take hp).unique first]

/-- There is a step for every point but the first. -/
theorem length_between {a q : α} {xs : List ι} {i j : Nat}
    (hq : (points stop a xs)[j]? = some q) : (xs.extract i j).length = j - i := by
  obtain ⟨within, -⟩ := List.getElem?_eq_some_iff.mp hq
  rw [points, List.length_cons, List.length_map] at within
  rw [List.extract_eq_take_drop, List.length_take, List.length_drop]
  omega

/-- The lengths of the steps add up. -/
theorem Path.sum_eq [AddCommGroup α] {a b : α} {xs : List ι} (h : Path start stop a xs b) :
    (xs.map fun x => stop x - start x).sum = b - a := by
  induction xs generalizing a with
  | nil => simp [show a = b from h]
  | cons x xs ih =>
    rw [List.map_cons, List.sum_cons, ih h.2, h.1, sub_add_sub_cancel']

/-- Steps of length `d` at least. -/
theorem Path.nsmul_le [AddCommGroup α] [PartialOrder α] [IsOrderedAddMonoid α] {a b d : α}
    {xs : List ι} (h : Path start stop a xs b) (long : ∀ x ∈ xs, d ≤ stop x - start x) :
    xs.length • d ≤ b - a := by
  have bound := List.card_nsmul_le_sum (xs.map fun x => stop x - start x) d (by simpa using long)
  rwa [List.length_map, h.sum_eq] at bound

/-- Stretches that begin with their steps and end within them, the last one at `mid x`. -/
theorem Path.sum_le [AddCommGroup α] [PartialOrder α] [IsOrderedAddMonoid α] {a b : α}
    {xs : List ι} {x : ι} {mid : ι → α} (h : Path start stop a (xs ++ [x]) b)
    (within : ∀ y ∈ xs, mid y ≤ stop y) :
    ((xs ++ [x]).map fun y => mid y - start y).sum ≤ mid x - a := by
  obtain ⟨c, earlier, next, -⟩ := path_append.mp h
  have shorter : (xs.map fun y => mid y - start y).sum ≤ (xs.map fun y => stop y - start y).sum :=
    List.sum_le_sum fun y hy => sub_le_sub_right (within y hy) _
  calc ((xs ++ [x]).map fun y => mid y - start y).sum
      = (xs.map fun y => mid y - start y).sum + (mid x - start x) := by simp
    _ ≤ (c - a) + (mid x - start x) := by
        rw [← earlier.sum_eq]
        exact add_le_add shorter le_rfl
    _ = mid x - a := by rw [next, sub_add_sub_cancel']

/-- Any consecutive steps lead somewhere. -/
theorem Path.of_infix {a b : α} {xs ys : List ι} (h : Path start stop a xs b)
    (part : ys <:+: xs) : ∃ c d, Path start stop c ys d := by
  obtain ⟨before, after, rfl⟩ := part
  obtain ⟨d, upto, -⟩ := path_append.mp h
  obtain ⟨c, -, inner⟩ := path_append.mp upto
  exact ⟨c, d, inner⟩

/-- Steps of length `d`, up to a deviation `e` of each. -/
theorem Path.eq_nsmul_add [AddCommGroup α] {a b d : α} {xs : List ι} (e : ι → α)
    (h : Path start stop a xs b) (exact_length : ∀ x ∈ xs, stop x - start x = d + e x) :
    b - a = xs.length • d + (xs.map e).sum := by
  rw [← h.sum_eq, List.map_congr_left exact_length, List.sum_map_add]
  simp

end Linked
