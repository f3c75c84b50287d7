import Mathlib.Algebra.BigOperators.Group.List.Basic
import Mathlib.Data.List.DropRight

/-!
# Circular buffers

A buffer that holds at most `capacity` items; pushing into a full one overwrites the
oldest item, which is the first of the list.
-/

structure CircularBuffer (α : Type*) (capacity : Nat) where
  items : List α
  size_le : items.length ≤ capacity

namespace CircularBuffer

variable {α : Type*} {capacity : Nat}

/-- A full buffer of equal items. -/
def filled (capacity : Nat) (a : α) : CircularBuffer α capacity :=
  ⟨List.replicate capacity a, by simp⟩

def pushBack (b : CircularBuffer α capacity) (a : α) : CircularBuffer α capacity :=
  ⟨(b.items ++ [a]).drop (b.items.length + 1 - capacity), by
    have := b.size_le
    simp only [List.length_drop, List.length_append, List.length_singleton]
    omega⟩

theorem pushBack_items (b : CircularBuffer α capacity) (a : α) :
    (b.pushBack a).items = (b.items ++ [a]).drop (b.items.length + 1 - capacity) := rfl

/-! ## A buffer that starts full -/

/-- The buffer was full of `a` and has taken in `xs` since. -/
def Holds (b : CircularBuffer α capacity) (a : α) (xs : List α) : Prop :=
  b.items = (List.replicate capacity a ++ xs).rtake capacity

variable {b : CircularBuffer α capacity} {a x : α} {xs : List α}

theorem filled_holds : (filled capacity a).Holds a [] := by
  simp [Holds, filled, List.rtake]

theorem Holds.length_items (h : b.Holds a xs) : b.items.length = capacity := by
  rw [h, List.rtake, List.length_drop, List.length_append, List.length_replicate]
  omega

/-- Any later item overwrites the oldest one. -/
theorem Holds.pushBack (h : b.Holds a xs) : (b.pushBack x).Holds a (xs ++ [x]) := by
  have one : b.items.length + 1 - capacity = 1 := by
    rw [h.length_items]
    omega
  have within : xs.length ≤ (List.replicate capacity a ++ xs).length := by simp
  calc (b.pushBack x).items
      = (((List.replicate capacity a ++ xs).rtake capacity) ++ [x]).drop 1 := by
        rw [pushBack_items, one, h]
    _ = ((List.replicate capacity a ++ xs ++ [x]).drop xs.length).drop 1 := by
        rw [List.drop_append_of_le_length within]
        simp [List.rtake]
    _ = (List.replicate capacity a ++ (xs ++ [x])).rtake capacity := by
        rw [List.drop_drop, List.append_assoc]
        simp [List.rtake]

/-- A buffer of zeros holds the last of the items, padded with zeros while there are fewer. -/
theorem Holds.sum_items {α : Type*} [AddMonoid α] {b : CircularBuffer α capacity} {xs : List α}
    (h : b.Holds 0 xs) : b.items.sum = (xs.rtake capacity).sum := by
  have padded : b.items =
      List.replicate (capacity - xs.length) 0 ++ xs.rtake capacity := by
    rw [h]
    simp [List.rtake, List.drop_append]
  rw [padded, List.sum_append, List.sum_replicate, nsmul_zero, zero_add]

end CircularBuffer
