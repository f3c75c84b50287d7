import OwlAprilTagProcessor.Library.History
import OwlAprilTagProcessor.TagProcessor.TimeoutCount

/-!
# What the timeout counter counts

The two completion handlers share the counter, and five kinds of completion treat it
differently. Read off the history it is the number of timeouts since the last success,
capped by the limit, and a timeout restarts the loop exactly when that number, counting
itself, is past the limit.
-/

namespace OwlTagProcessor
open Asio Transition History

variable {G S α β : Type}

/-- A completion handler that has run: its arguments, but for the image, and its branch. -/
structure Completed where
  ec : ErrorCode
  ok : Bool
  branch : Branch
  deriving DecidableEq, Repr

@[grind] def Completed.succeeded (c : Completed) : Bool := !c.ec.failed && c.ok

@[grind] def Completed.timedOut (c : Completed) : Bool := c.ec == .timeout

def Entry.completed? : Entry → Option Completed
  | .getCompleted r branch => some ⟨r.ec, r.ok, branch⟩
  | .sendCompleted r branch => some ⟨r.ec, r.ok, branch⟩
  | _ => none

/-- The completion handlers run so far, those of GET and POST alike. -/
abbrev State.completed (s : State G S) : List Completed := s.select Entry.completed?

/-- The timeouts since the last success; other failures neither count nor reset. -/
def timeoutsSinceSuccess (cs : List Completed) : Nat :=
  (cs.reverse.takeWhile fun c => !c.succeeded).countP Completed.timedOut

theorem timeoutsSinceSuccess_concat (cs : List Completed) (c : Completed) :
    timeoutsSinceSuccess (cs ++ [c]) =
      if c.succeeded then 0 else timeoutsSinceSuccess cs + c.timedOut.toNat := by
  cases hs : c.succeeded <;> cases ht : c.timedOut <;> simp [timeoutsSinceSuccess, hs, ht]

/-- A count below the limit, or saturated at it, stays what it should be. -/
theorem complete_counts {limit n count : Nat} {ec : ErrorCode} {ok : Bool} {branch : Branch}
    (small : limit + 1 < UInt64.size) {cs : List Completed} (hn : timeoutsSinceSuccess cs = n)
    (h : complete limit (min limit n) ec ok = (branch, count)) :
    count = min limit (timeoutsSinceSuccess (cs ++ [⟨ec, ok, branch⟩])) ∧
      (ec = .timeout →
        (branch = .restart ↔ limit < timeoutsSinceSuccess (cs ++ [⟨ec, ok, branch⟩]))) := by
  rw [timeoutsSinceSuccess_concat, hn]
  by_cases timeout : ec = .timeout
  · subst timeout
    rw [complete_timeout ok (Nat.min_le_left ..) small] at h
    have next : (if (Completed.mk .timeout ok branch).succeeded then 0
        else n + (Completed.mk .timeout ok branch).timedOut.toNat) = n + 1 := by
      simp [Completed.succeeded, Completed.timedOut]
    rw [next]
    split_ifs at h with saturated <;> obtain ⟨rfl, rfl⟩ := Prod.mk.inj h
    · simp
      omega
    · simp
      omega
  · have uncounted : (Completed.mk ec ok branch).timedOut = false := by
      simpa [Completed.timedOut] using timeout
    refine ⟨?_, fun same => absurd same timeout⟩
    rw [uncounted]
    cases hf : ec.failed <;> cases ok <;>
      simp [complete, Completed.succeeded, hf, timeout] at h ⊢ <;> omega

/-! ## Over a run -/

/-- The counter and the branches of the timeouts are those of the history. -/
structure CountsTimeouts (limit : Nat) (s : State G S) : Prop where
  count : s.timeoutCount_ = min limit (timeoutsSinceSuccess s.completed)
  restarts : Each (fun before c => c.ec = .timeout →
    (c.branch = .restart ↔ limit < timeoutsSinceSuccess (before ++ [c]))) s.completed

namespace CountsTimeouts

variable {limit : Nat} {s s' : State G S}

/-- A step that completes nothing. -/
theorem of_frame (inv : CountsTimeouts limit s) (count : s'.timeoutCount_ = s.timeoutCount_)
    (completed : s'.completed = s.completed) : CountsTimeouts limit s' := by
  refine ⟨?_, ?_⟩
  · rw [count, completed]
    exact inv.count
  · rw [completed]
    exact inv.restarts

theorem complete (inv : CountsTimeouts limit s) (small : limit + 1 < UInt64.size)
    {ec : ErrorCode} {ok : Bool} {branch : Branch}
    (h : OwlTagProcessor.complete limit s.timeoutCount_ ec ok = (branch, s'.timeoutCount_))
    (completed : s'.completed = s.completed ++ [⟨ec, ok, branch⟩]) :
    CountsTimeouts limit s' := by
  rw [inv.count] at h
  obtain ⟨count, restart⟩ := complete_counts small rfl h
  refine ⟨by rw [completed]; exact count, ?_⟩
  rw [completed, each_concat]
  exact ⟨inv.restarts, restart⟩

end CountsTimeouts

end OwlTagProcessor
