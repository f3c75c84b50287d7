import Mathlib.Algebra.Order.BigOperators.Group.List
import OwlAprilTagProcessor.Library.History
import OwlAprilTagProcessor.Library.MovingAverage
import OwlAprilTagProcessor.Program
import OwlAprilTagProcessor.TagProcessor.Activity

/-!
# What the throughput tracer reports

A cycle ends with a completion that skips, restarts or goes on to the next one. Every ended
cycle is counted by exactly one flush, or still in the counter, as long as fewer than `2 ^ 31`
cycles end between two flushes: the counter is an `int`. The windows and the average are those
of the counts, whatever order the cycles and the flushes come in.
-/

namespace OwlTagProcessor
open Asio Transition History MovingAverage

/-! ## The history of the tracer -/

/-- What reaches the tracer: the time wasted in a cycle, and a flush. -/
inductive Tick where
  | cycle (wastMs : Int)
  | flush (report : FpsReport)
  deriving DecidableEq, Repr

def Entry.tick? : Entry → Option Tick
  | .rearmed call => some (.cycle (toMilliseconds (call.frameAt - call.expiry)))
  | .flushed report => some (.flush report)
  | _ => none

abbrev State.ticks {G S : Type} (s : State G S) : List Tick := s.select Entry.tick?

def Tick.wast? : Tick → Option Rat
  | .cycle wastMs => some wastMs
  | .flush _ => none

def Tick.fps? : Tick → Option Rat
  | .cycle _ => none
  | .flush report => some report.fps.toInt

/-- The waste values of the frames. -/
def wastes (ticks : List Tick) : List Rat := ticks.filterMap Tick.wast?

/-- The counts the flushes have taken. -/
def taken (ticks : List Tick) : List Rat := ticks.filterMap Tick.fps?

section Ticks

variable (ticks : List Tick) (wastMs : Int) (report : FpsReport)

@[simp] theorem wastes_cycle :
    wastes (ticks ++ [.cycle wastMs]) = wastes ticks ++ [(wastMs : Rat)] := by
  simp [wastes, Tick.wast?]

@[simp] theorem wastes_flush : wastes (ticks ++ [.flush report]) = wastes ticks := by
  simp [wastes, Tick.wast?]

@[simp] theorem taken_cycle : taken (ticks ++ [.cycle wastMs]) = taken ticks := by
  simp [taken, Tick.fps?]

@[simp] theorem taken_flush :
    taken (ticks ++ [.flush report]) = taken ticks ++ [(report.fps.toInt : Rat)] := by
  simp [taken, Tick.fps?]

end Ticks

/-! ## One tick -/

/-- What a flush reports, by what came before it. -/
structure Reported (before : List Tick) (report : FpsReport) : Prop where
  averageFps : report.averageFps =
    smoothed (averageWindow : Rat) (taken (before ++ [.flush report]))
  windowFps : averageWindow * report.windowFps =
    ((taken (before ++ [.flush report])).rtake averageWindow).sum
  windowWaste : averageWindow * report.windowWaste = ((wastes before).rtake averageWindow).sum

/-- The tracer after these ticks. -/
structure Traced (tracer : FpsTracer) (ticks : List Tick) : Prop where
  averageFps : tracer.averageFps = smoothed (averageWindow : Rat) (taken ticks)
  fpsBuffer : tracer.averageFpsBuffer.Holds 0 (taken ticks)
  wastBuffer : tracer.averageWastBuffer.Holds 0 (wastes ticks)
  reports : Each (fun before t => ∀ report, t = .flush report → Reported before report) ticks

theorem reduce_eq_sum (xs : List Rat) : reduce xs = xs.sum := List.sum_eq_foldl.symm

theorem initial_traced : Traced {} [] :=
  ⟨rfl, CircularBuffer.filled_holds, CircularBuffer.filled_holds, each_nil⟩

theorem Traced.frame {tracer : FpsTracer} {ticks : List Tick} (h : Traced tracer ticks)
    (wastMs : Int) : Traced (tracer.frame wastMs) (ticks ++ [.cycle wastMs]) := by
  refine ⟨?_, ?_, ?_, ?_⟩
  · rw [taken_cycle]
    exact h.averageFps
  · rw [taken_cycle]
    exact h.fpsBuffer
  · rw [wastes_cycle]
    exact h.wastBuffer.pushBack
  · rw [each_concat]
    exact ⟨h.reports, by simp⟩

theorem Traced.flushFps {tracer tracer' : FpsTracer} {ticks : List Tick} {report : FpsReport}
    (h : Traced tracer ticks) {ec : ErrorCode}
    (flushed : tracer.flushFps ec = (tracer', some report)) :
    Traced tracer' (ticks ++ [.flush report]) := by
  unfold FpsTracer.flushFps at flushed
  split_ifs at flushed
  · cases flushed
  · obtain ⟨rfl, same⟩ := Prod.mk.inj flushed
    obtain rfl := Option.some.inj same
    have fpsBuffer := h.fpsBuffer.pushBack (x := (tracer.count.toInt : Rat))
    have average : (tracer.averageFps * (averageWindow - 1) + tracer.count.toInt) / averageWindow =
        smoothed (averageWindow : Rat) (taken ticks ++ [(tracer.count.toInt : Rat)]) := by
      rw [smoothed_concat, h.averageFps, smooth]
    have nonzero : (averageWindow : Rat) ≠ 0 := by decide
    refine ⟨?_, ?_, ?_, ?_⟩
    · rw [taken_flush]
      exact average
    · rw [taken_flush]
      exact fpsBuffer
    · rw [wastes_flush]
      exact h.wastBuffer
    · rw [each_concat]
      refine ⟨h.reports, ?_⟩
      rintro _ ⟨⟩
      refine ⟨?_, ?_, ?_⟩
      · rw [taken_flush]
        exact average
      · rw [taken_flush, mul_div_cancel₀ _ nonzero, reduce_eq_sum, fpsBuffer.sum_items]
      · rw [mul_div_cancel₀ _ nonzero, reduce_eq_sum, h.wastBuffer.sum_items]

/-! ## Over a run -/

section Run

variable {G S α β : Type}

/-- Nothing happens to the tracer. -/
theorem Traced.of_frame {s s' : State G S} (inv : Traced s.fpsTracer s.ticks)
    (tracer : s'.fpsTracer = s.fpsTracer) (ticks : s'.ticks = s.ticks) :
    Traced s'.fpsTracer s'.ticks := by
  rw [tracer, ticks]
  exact inv

/-- A cycle ends. -/
theorem Traced.rearmed {env : Env} {s : State G S} (inv : Traced s.fpsTracer s.ticks)
    (t : SteadyTimer) : Traced (s.rearmed env t).fpsTracer (s.rearmed env t).ticks := by
  simpa [Entry.tick?] using inv.frame _

theorem step_traced {env : Env} {net : Net G S α β} {s s' : State G S} {e : Event α β}
    (inv : Traced s.fpsTracer s.ticks) (h : step env net s e = some s') :
    Traced s'.fpsTracer s'.ticks := by
  cases step_stepped h with
  | start => exact inv.of_frame rfl (by simp [start, State.select, Entry.tick?])
  | expire t ht waiting expired => exact inv
  | abort ec rest hr failed | fetch rest g hr hg =>
    exact inv.of_frame rfl (by simp [State.select, Entry.tick?])
  | send r rest o p hr hec hok himg ho hp =>
    exact inv.of_frame rfl (by simp [State.select, Entry.tick?])
  | getRearm r rest branch count t hr hc himg ht =>
    have noted : Traced s.fpsTracer ({ s with ready := rest, timeoutCount_ := count }.note
        (.getCompleted r branch)).ticks := by
      simpa [State.select, Entry.tick?] using inv
    exact noted.rearmed t
  | sendRearm r rest branch count t hr hc ht =>
    have noted : Traced s.fpsTracer ({ s with ready := rest, timeoutCount_ := count }.note
        (.sendCompleted r branch)).ticks := by
      simpa [State.select, Entry.tick?] using inv
    exact noted.rearmed t
  | flush ec =>
    cases failed : ec.failed with
    | true =>
      have ignored : s.fpsTracer.flushFps ec = (s.fpsTracer, none) := by
        rw [FpsTracer.flushFps, if_pos failed]
      exact inv.of_frame (by rw [flush, ignored]) (by simp [flush, ignored, State.select])
    | false =>
      obtain ⟨tracer', report, flushed⟩ :
          ∃ tracer' report, s.fpsTracer.flushFps ec = (tracer', some report) := by
        simp [FpsTracer.flushFps, failed]
      simpa [flush, flushed, State.select, Entry.tick?] using inv.flushFps flushed
  | get i a g g' reports hg hstep | sent i b p p' reports hp hstep => exact inv

theorem exec_traced {env : Env} {net : Net G S α β} {es : List (Event α β)} {s : State G S}
    (run : exec (step env net) (started env) es = some s) : Traced s.fpsTracer s.ticks :=
  exec_invariant (fun _ => True) (fun _ _ _ _ inv h => step_traced inv h) initial_traced
    (fun _ _ => trivial) run

end Run

/-! ## The cycles that ended -/

/-- The completions after which the loop skips, restarts or goes on to the next cycle. -/
def Entry.endsCycle : Entry → Bool
  | .getCompleted r branch => branch != .proceed || r.img.empty
  | .sendCompleted _ _ => true
  | _ => false

def Entry.isFlush : Entry → Bool
  | .flushed _ => true
  | _ => false

/-- How many cycles ended in each interval between two flushes, oldest first, and how many
since the last flush. -/
structure Tally where
  intervals : List Nat := []
  current : Nat := 0

namespace Tally

/-- All counts, the open one included. -/
def counts (t : Tally) : List Nat := t.intervals ++ [t.current]

def note (t : Tally) (e : Entry) : Tally :=
  if e.isFlush then ⟨t.intervals ++ [t.current], 0⟩
  else if e.endsCycle then { t with current := t.current + 1 }
  else t

theorem note_flushed (t : Tally) (report : FpsReport) :
    t.note (.flushed report) = ⟨t.intervals ++ [t.current], 0⟩ := rfl

theorem note_of_quiet (t : Tally) {e : Entry} (quiet : e.isFlush = false)
    (on : e.endsCycle = false) : t.note e = t := by
  simp [note, quiet, on]

theorem note_of_ends (t : Tally) {e : Entry} (ends : e.endsCycle = true) :
    t.note e = { t with current := t.current + 1 } := by
  cases e with
  | flushed report => cases ends
  | _ => simp [note, ends, Entry.isFlush]

end Tally

def tally (history : List Entry) : Tally := history.foldl Tally.note {}

@[simp] theorem tally_concat (history : List Entry) (e : Entry) :
    tally (history ++ [e]) = (tally history).note e := by
  simp [tally]

/-- Every flush has taken the cycles ended since the flush before, as an `int`. -/
def CountsReported (history : List Entry) : Prop :=
  Each (fun before e => ∀ report, e = .flushed report →
    report.fps = .ofNat (tally before).current) history

/-- The counter shows those ended since the last one. -/
structure Counted (tracer : FpsTracer) (history : List Entry) : Prop where
  count : tracer.count = .ofNat (tally history).current
  reports : CountsReported history

section Counted

variable {tracer : FpsTracer} {history : List Entry} {e : Entry}

theorem Counted.quiet (h : Counted tracer history) (quiet : e.isFlush = false)
    (on : e.endsCycle = false) : Counted tracer (history ++ [e]) := by
  refine ⟨?_, ?_⟩
  · rw [tally_concat, Tally.note_of_quiet _ quiet on]
    exact h.count
  · refine each_concat.mpr ⟨h.reports, ?_⟩
    rintro report rfl
    cases quiet

/-- The completion that ends a cycle, and the call of `frame` it makes. -/
theorem Counted.cycle (h : Counted tracer history) (ends : e.endsCycle = true) (wastMs : Int)
    (call : Rearm) : Counted (tracer.frame wastMs) (history ++ [e] ++ [.rearmed call]) := by
  refine ⟨?_, ?_⟩
  · rw [tally_concat, Tally.note_of_quiet _ rfl rfl, tally_concat, Tally.note_of_ends _ ends,
      Int32.ofNat_add, ← h.count]
    rfl
  · refine each_concat.mpr ⟨each_concat.mpr ⟨h.reports, ?_⟩, by simp⟩
    rintro report rfl
    cases ends

theorem Counted.flush (h : Counted tracer history) {tracer' : FpsTracer} {report : FpsReport}
    {ec : ErrorCode} (flushed : tracer.flushFps ec = (tracer', some report)) :
    Counted tracer' (history ++ [.flushed report]) := by
  unfold FpsTracer.flushFps at flushed
  split_ifs at flushed
  · cases flushed
  · obtain ⟨rfl, same⟩ := Prod.mk.inj flushed
    obtain rfl := Option.some.inj same
    refine ⟨?_, each_concat.mpr ⟨h.reports, ?_⟩⟩
    · rw [tally_concat, Tally.note_flushed]
      rfl
    · rintro _ ⟨⟩
      exact h.count

end Counted

/-- On the sample clock the schedule is always missed, and the next wait is over at once. -/
theorem sample_measure {t : SteadyTimer} {n : Nat} (expired : t.expiry ≤ seconds n) :
    let call := Env.sample.measure (milliseconds Env.sample.timeDurationMs_) t (n + 1)
    call.next ≤ seconds ((n + 1 + call.reads : Nat) : Int) := by
  intro call
  have missed : ¬ t.expiry + milliseconds Env.sample.timeDurationMs_ >
      Env.sample.clock.now (n + 1 + 1) := by
    change ¬ t.expiry + 300 * 1000000 > (n + 1 + 1 : Nat) * 1000000000
    simp only [seconds] at expired
    omega
  simp only [call, Env.measure, if_neg missed, Rearm.reads]
  change (n + 1 + 2 : Nat) * 1000000000 + 30 * 1000000 ≤ ((n + 1 + 3 : Nat) : Int) * 1000000000
  omega

end OwlTagProcessor
