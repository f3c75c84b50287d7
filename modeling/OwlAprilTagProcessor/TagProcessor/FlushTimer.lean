import Mathlib.Tactic.Ring
import OwlAprilTagProcessor.TagProcessor.Throughput

/-!
# The timer of the tracer

The constructor of `FpsTracer` arms a timer one second ahead, and every `flushFps` without an
error sets the expiry one second after the last one, whatever the clock reads. Here the loop
runs together with that timer. Its schedule does not drift, none of its seconds is skipped or
counted twice, and what the loop does is a run of `step`.
-/

namespace OwlTagProcessor
open Asio Transition Session

variable {G S α β : Type}

/-- The loop and the timer of its tracer. `flushes` are the ready calls of `flushFps`, which
the queue of the loop may hold between any two of its own handlers. -/
structure WithTimer (G S : Type) where
  loop : State G S
  timer_ : SteadyTimer
  flushes : List ErrorCode

/-- The events of the loop but its flushes, the expiry of the tracer's timer when the clock
reads `now`, and the first ready flush. -/
inductive TimerEvent (α β : Type) where
  | loop (e : Event α β)
  | expire (now : Int)
  | flush
  deriving DecidableEq, Repr

/-- `timer_(ioc_, seconds(1))` at `t0`, and the first `async_wait`. -/
def WithTimer.init (env : Env) (t0 : Int) : WithTimer G S :=
  ⟨started env, SteadyTimer.asyncWait ⟨t0 + seconds 1, 0⟩, []⟩

/-- `flushFps`: with an error the timer is not armed again. -/
def WithTimer.flush (c : WithTimer G S) : Option (WithTimer G S) :=
  match c.flushes with
  | [] => none
  | ec :: rest =>
    let loop := OwlTagProcessor.flush ec c.loop
    if ec.failed then some { c with loop, flushes := rest }
    else
      some
        { loop
          timer_ := (c.timer_.expiresAt (c.timer_.expiry + seconds 1)).asyncWait
          flushes := rest ++ List.replicate c.timer_.waits .operationAborted }

def WithTimer.step (env : Env) (net : Net G S α β) (c : WithTimer G S) :
    TimerEvent α β → Option (WithTimer G S)
  | .loop (.flush _) => none
  | .loop e => (OwlTagProcessor.step env net c.loop e).map fun s => { c with loop := s }
  | .expire now =>
    if 0 < c.timer_.waits ∧ c.timer_.expiry ≤ now then
      some { c with
        timer_ := c.timer_.release
        flushes := c.flushes ++ List.replicate c.timer_.waits .success }
    else none
  | .flush => c.flush

namespace TimerEvent

def isFlush : TimerEvent α β → Bool
  | .flush => true
  | _ => false

def expiredAt? : TimerEvent α β → Option Int
  | .expire now => some now
  | _ => none

/-- The event of the loop. No wait of the timer fails, so every flush is one without error. -/
def loop? : TimerEvent α β → Option (Event α β)
  | .loop e => some e
  | .expire _ => none
  | .flush => some (.flush .success)

end TimerEvent

open TimerEvent

/-- After the events `es`: the wait is pending or its flush is ready, the expiry is that of the
next second, and the expirations so far came in their seconds. -/
structure Kept (env : Env) (net : Net G S α β) (t0 : Int) (es : List (TimerEvent α β))
    (c : WithTimer G S) : Prop where
  one : c.timer_.waits + c.flushes.length = 1
  succeed : ∀ ec ∈ c.flushes, ec = .success
  expiry : c.timer_.expiry = t0 + seconds (es.countP isFlush + 1)
  expired : (es.filterMap expiredAt?).length = es.countP isFlush + c.flushes.length
  times : ∀ (i : Nat) (now : Int), (es.filterMap expiredAt?)[i]? = some now →
    t0 + seconds (i + 1) ≤ now
  loop : exec (step env net) (started env) (es.filterMap loop?) = some c.loop

theorem init_kept (env : Env) (net : Net G S α β) (t0 : Int) :
    Kept env net t0 [] (WithTimer.init env t0) :=
  ⟨rfl, by simp [WithTimer.init], by simp [WithTimer.init, SteadyTimer.asyncWait], rfl, by simp,
    rfl⟩

section Step

variable {env : Env} {net : Net G S α β} {t0 : Int} {es : List (TimerEvent α β)}
  {e : TimerEvent α β} {c d : WithTimer G S}

/-- An event of the loop leaves the timer alone. -/
theorem Kept.loop_step {e : Event α β} {s : State G S} (inv : Kept env net t0 es c)
    (h : step env net c.loop e = some s) :
    Kept env net t0 (es ++ [.loop e]) { c with loop := s } := by
  have flushes : (es ++ [TimerEvent.loop e]).countP isFlush = es.countP isFlush := by simp [isFlush]
  have times : (es ++ [TimerEvent.loop e]).filterMap expiredAt? = es.filterMap expiredAt? := by
    simp [expiredAt?]
  have events : (es ++ [TimerEvent.loop e]).filterMap loop? = es.filterMap loop? ++ [e] := by
    simp [loop?]
  refine ⟨inv.one, inv.succeed, ?_, ?_, ?_, ?_⟩
  · rw [flushes]
    exact inv.expiry
  · rw [times, flushes]
    exact inv.expired
  · rw [times]
    exact inv.times
  · rw [events, exec_concat, inv.loop]
    exact h

theorem Kept.expire_step {now : Int} (inv : Kept env net t0 es c) (waiting : 0 < c.timer_.waits)
    (passed : c.timer_.expiry ≤ now) :
    Kept env net t0 (es ++ [.expire now])
      { c with
        timer_ := c.timer_.release
        flushes := c.flushes ++ List.replicate c.timer_.waits .success } := by
  have flushes : (es ++ [TimerEvent.expire now]).countP isFlush = es.countP isFlush := by
    simp [isFlush]
  have times : (es ++ [TimerEvent.expire now]).filterMap expiredAt? =
      es.filterMap expiredAt? ++ [now] := by
    simp [expiredAt?]
  have events : (es ++ [TimerEvent.expire now]).filterMap loop? = es.filterMap loop? := by
    simp [loop?]
  have one := inv.one
  have pending : c.timer_.waits = 1 := by omega
  have idle : c.flushes = [] := List.length_eq_zero_iff.mp (by omega)
  refine ⟨by simp [pending, idle], by simp [pending, idle], ?_, ?_, ?_, ?_⟩
  · rw [flushes]
    exact inv.expiry
  · rw [times, flushes, List.length_append, inv.expired]
    simp [pending, idle]
  · intro i t ht
    rw [times, List.getElem?_append] at ht
    split_ifs at ht with before
    · exact inv.times i t ht
    · -- the new expiration is the one of the current expiry
      have length := inv.expired
      rw [idle, List.length_nil, Nat.add_zero] at length
      obtain ⟨within, rfl⟩ := List.getElem?_eq_some_iff.mp ht
      rw [List.length_singleton] at within
      have index : i = es.countP isFlush := by omega
      rw [List.getElem_singleton, index, ← inv.expiry]
      exact passed
  · rw [events]
    exact inv.loop

theorem Kept.flush_step (inv : Kept env net t0 es c) (h : c.flush = some d) :
    Kept env net t0 (es ++ [.flush]) d := by
  have flushes : (es ++ [TimerEvent.flush]).countP isFlush = es.countP isFlush + 1 := by
    simp [isFlush]
  have times : (es ++ [TimerEvent.flush]).filterMap expiredAt? = es.filterMap expiredAt? := by
    simp [expiredAt?]
  have events : (es ++ [TimerEvent.flush]).filterMap loop? =
      es.filterMap loop? ++ [.flush .success] := by
    simp [loop?]
  have one := inv.one
  cases hf : c.flushes with
  | nil => simp [WithTimer.flush, hf] at h
  | cons ec rest =>
    obtain rfl : ec = .success := inv.succeed ec (by simp [hf])
    rw [hf, List.length_cons] at one
    have idle : c.timer_.waits = 0 := by omega
    obtain rfl : rest = [] := List.length_eq_zero_iff.mp (by omega)
    simp only [WithTimer.flush, hf, ErrorCode.failed_success, Bool.false_eq_true, if_false, idle,
      List.replicate_zero, List.append_nil, Option.some.injEq] at h
    subst h
    refine ⟨rfl, by simp, ?_, ?_, ?_, ?_⟩
    · rw [flushes]
      simp only [SteadyTimer.asyncWait, SteadyTimer.expiresAt, inv.expiry, seconds]
      push_cast
      ring
    · rw [times, flushes, inv.expired, hf]
      rfl
    · rw [times]
      exact inv.times
    · rw [events, exec_concat, inv.loop]
      rfl

theorem step_kept (inv : Kept env net t0 es c) (h : c.step env net e = some d) :
    Kept env net t0 (es ++ [e]) d := by
  cases e with
  | expire now =>
    simp only [WithTimer.step, Option.ite_none_right_eq_some, Option.some.injEq] at h
    obtain ⟨⟨waiting, passed⟩, rfl⟩ := h
    exact inv.expire_step waiting passed
  | flush => exact inv.flush_step h
  | loop e =>
    cases e with
    | flush ec => simp [WithTimer.step] at h
    | start | expire | run | get i a | send i b =>
      simp only [WithTimer.step, Option.map_eq_some_iff] at h
      obtain ⟨s, hs, rfl⟩ := h
      exact inv.loop_step hs

/-- Between two flushes of a timer that is not behind, the flushes are the seconds passed. -/
theorem Kept.flushes_eq (inv : Kept env net t0 es c) {now : Int} (later : t0 ≤ now)
    (latest : ∀ t ∈ es.filterMap expiredAt?, t ≤ now) (ahead : now < c.timer_.expiry) :
    (es.countP isFlush : Int) = (now - t0) / seconds 1 := by
  have passed : t0 + seconds (es.countP isFlush) ≤ now := by
    cases hk : es.countP isFlush with
    | zero => simpa [seconds] using later
    | succ k =>
      have within : k < (es.filterMap expiredAt?).length := by
        rw [inv.expired]
        omega
      have time := inv.times k _ (List.getElem?_eq_getElem within)
      have last := latest _ (List.getElem_mem within)
      push_cast
      omega
  rw [inv.expiry] at ahead
  simp only [seconds] at passed ahead ⊢
  omega

end Step

/-- Whatever the loop does in between, the wait of the tracer's timer is pending or its flush
is ready; the next expiry lies a second after the start for every flush and one more; the
expirations come no earlier than their seconds; and at any time the timer is not behind, the
flushes are the full seconds passed. The loop itself does a run of `step`. -/
theorem tracer_keeps_the_second (env : Env) (net : Net G S α β) (t0 : Int)
    (es : List (TimerEvent α β)) (c : WithTimer G S)
    (run : exec (WithTimer.step env net) (WithTimer.init env t0) es = some c) :
    c.timer_.waits + c.flushes.length = 1 ∧
      c.timer_.expiry = t0 + seconds (es.countP isFlush + 1) ∧
      (∀ (i : Nat) (now : Int), (es.filterMap expiredAt?)[i]? = some now →
        t0 + seconds (i + 1) ≤ now) ∧
      (∀ now, t0 ≤ now → (∀ t ∈ es.filterMap expiredAt?, t ≤ now) → now < c.timer_.expiry →
        (es.countP isFlush : Int) = (now - t0) / seconds 1) ∧
      exec (step env net) (started env) (es.filterMap loop?) = some c.loop := by
  have kept : Kept env net t0 es c :=
    exec_induction (init_kept env net t0) (fun _ _ _ _ _ inv h => step_kept inv h) run
  exact ⟨kept.one, kept.expiry, kept.times, fun _ later latest ahead =>
    kept.flushes_eq later latest ahead, kept.loop⟩

/-- The thread is held up for three and a half seconds: the flushes catch up, and are three. -/
theorem the_tracer_catches_up :
    let now := milliseconds 3500
    let es : List (TimerEvent (Completion OwlGetImage.Response)
        (Completion OwlSendResult.Response)) :=
      [.loop .expire, .expire now, .flush, .expire now, .loop .run, .flush, .expire now, .flush]
    ∃ c,
      exec (WithTimer.step .sample (Net.program .sample)) (WithTimer.init .sample 0) es = some c ∧
      c.timer_.expiry = seconds 4 ∧ (es.countP isFlush : Int) = (now - 0) / seconds 1 := by
  intro now es
  have next : (exec (WithTimer.step .sample (Net.program .sample)) (WithTimer.init .sample 0)
      es).map (fun c => c.timer_.expiry) = some (seconds 4) := by decide +kernel
  obtain ⟨c, run, next⟩ := Option.map_eq_some_iff.mp next
  have kept := tracer_keeps_the_second .sample (Net.program .sample) 0 es c run
  refine ⟨c, run, next, kept.2.2.2.1 now (by decide) (by simp [es, expiredAt?]) ?_⟩
  rw [next]
  decide

end OwlTagProcessor
