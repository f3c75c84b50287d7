import Mathlib.Algebra.Order.Group.Int
import Mathlib.Algebra.Ring.Int.Defs
import Mathlib.Data.Nat.Cast.Basic
import OwlAprilTagProcessor.Library.Linked
import OwlAprilTagProcessor.Program
import OwlAprilTagProcessor.TagProcessor.Activity

/-!
# Pacing

Every call of `setNextDuration` leads from the expiry it finds to the expiry it sets, and
the calls of a run are linked. So what one call guarantees adds up over the run: the
expiries are at least a duration apart, and the only drift of a call that is on time is the
time between its last two readings of the clock.
-/

namespace OwlTagProcessor
open Asio Transition Linked

variable {G S α β : Type}

/-- Whether the remaining time was computed. -/
def Rearm.onTime (call : Rearm) : Prop := call.remainAt.isSome

/-- From the reading the remaining time is computed with to the one it is added to. -/
def Rearm.gap (call : Rearm) : Int := call.armAt - call.remainAt.getD call.armAt

/-! ## One call -/

section Call

variable (env : Env) (d : Int) (t : SteadyTimer) (n : Nat)

/-- An expiry is never set closer to the last one than the duration. -/
theorem Env.measure_length
    (mini : 0 ≤ env.config.configTagProcessor.timeDurationMini.toInt) :
    d ≤ (env.measure d t n).next - (env.measure d t n).expiry := by
  unfold Env.measure
  split_ifs with later
  · -- the clock does not go back between the last two readings
    have forward : env.clock.now (n + 2) ≤ env.clock.now (n + 3) := env.clock.forward (by omega)
    simp only
    omega
  · have forward : env.clock.now (n + 1) ≤ env.clock.now (n + 2) := env.clock.forward (by omega)
    simp only [milliseconds]
    omega

/-- Nor is it set further ahead than the longer of the two durations. -/
theorem Env.measure_next_le (passed : t.expiry ≤ env.clock.now n) :
    (env.measure d t n).next ≤ (env.measure d t n).armAt +
      max d (milliseconds env.config.configTagProcessor.timeDurationMini.toInt) := by
  unfold Env.measure
  split_ifs with later
  · have forward : env.clock.now n ≤ env.clock.now (n + 2) := env.clock.forward (by omega)
    simp only
    omega
  · simp only
    omega

/-- On time is the branch taken when the reading that is compared lies before the next slot. -/
theorem Env.measure_onTime :
    (env.measure d t n).onTime ↔
      (env.measure d t n).compareAt < (env.measure d t n).expiry + d := by
  unfold Env.measure Rearm.onTime
  split_ifs with later
  · simpa using later
  · simpa using later

theorem Env.measure_gap (onTime : (env.measure d t n).onTime) :
    (env.measure d t n).next - (env.measure d t n).expiry = d + (env.measure d t n).gap := by
  unfold Env.measure Rearm.gap at *
  split_ifs at onTime ⊢ with later
  · simp only [Option.getD_some]
    omega
  · simp [Rearm.onTime] at onTime

end Call

/-! ## The calls of a run -/

/-- The expiry an entry sets. -/
def Entry.expiry? : Entry → Option Int
  | .started expiry => some expiry
  | .rearmed call => some call.next
  | _ => none

/-- The expiries set so far. -/
abbrev State.expiries (s : State G S) : List Int := s.select Entry.expiry?

/-- The calls lead from the expiry set by `start` to that of the timer. -/
structure Paced (env : Env) (s : State G S) : Prop where
  linked : ∃ t, s.timer_ = some t ∧
    Path Rearm.expiry Rearm.next (env.clock.now 0 + milliseconds env.timeStartMs_) s.rearms t.expiry
  expiries : s.expiries = points Rearm.next (env.clock.now 0 + milliseconds env.timeStartMs_) s.rearms
  measured : ∀ call ∈ s.rearms, ∃ t n, call = env.measure (milliseconds env.timeDurationMs_) t n

theorem started_paced (env : Env) : Paced env (started env : State G S) :=
  ⟨⟨_, rfl, rfl⟩, rfl, by simp [started, start, State.select, Entry.rearm?]⟩

namespace Paced

variable {env : Env} {s s' : State G S}

/-- A step that does not set the expiry. -/
theorem of_frame (inv : Paced env s) (rearms : s'.rearms = s.rearms)
    (expiries : s'.expiries = s.expiries)
    (timer : s'.timer_.map SteadyTimer.expiry = s.timer_.map SteadyTimer.expiry) :
    Paced env s' := by
  obtain ⟨⟨t, ht, linked⟩, points, measured⟩ := inv
  obtain ⟨t', ht', same⟩ : ∃ t', s'.timer_ = some t' ∧ t'.expiry = t.expiry := by
    simpa [ht] using timer
  refine ⟨⟨t', ht', ?_⟩, ?_, ?_⟩
  · rw [rearms, same]; exact linked
  · rw [rearms, expiries]; exact points
  · rw [rearms]; exact measured

theorem rearmed (inv : Paced env s) {t : SteadyTimer} (ht : s.timer_ = some t) :
    Paced env (s.rearmed env t) := by
  obtain ⟨⟨t', ht', linked⟩, points, measured⟩ := inv
  obtain rfl : t = t' := by simpa [ht] using ht'
  have calls : (s.rearmed env t).rearms = s.rearms ++
      [env.measure (milliseconds env.timeDurationMs_) t s.reads] := State.select_rearmed ..
  refine ⟨⟨_, rfl, ?_⟩, ?_, ?_⟩
  · rw [calls]
    exact linked.concat (Env.measure_expiry ..)
  · rw [State.expiries, State.select_rearmed, calls]
    simp [Entry.expiry?, points, Linked.points]
  · rw [calls]
    intro call hcall
    rcases List.mem_append.mp hcall with old | new
    · exact measured call old
    · exact ⟨t, s.reads, List.mem_singleton.mp new⟩

end Paced

theorem step_paced {env : Env} {net : Net G S α β} {s s' : State G S} {e : Event α β}
    (once : e ≠ .start) (inv : Paced env s) (h : step env net s e = some s') :
    Paced env s' := by
  cases step_stepped h with
  | start => exact absurd rfl once
  | expire t ht waiting expired => exact inv.of_frame rfl rfl (by simp [ht])
  | abort ec rest hr failed | fetch rest g hr hg =>
    exact inv.of_frame (by simp [State.select, Entry.rearm?])
      (by simp [State.select, Entry.expiry?]) rfl
  | send r rest o p hr hec hok himg ho hp =>
    exact inv.of_frame (by simp [State.select, Entry.rearm?])
      (by simp [State.select, Entry.expiry?]) rfl
  | getRearm r rest branch count t hr hc himg ht =>
    have noted : Paced env ({ s with ready := rest, timeoutCount_ := count }.note
        (.getCompleted r branch)) :=
      inv.of_frame (by simp [State.select, Entry.rearm?])
        (by simp [State.select, Entry.expiry?]) rfl
    exact noted.rearmed ht
  | sendRearm r rest branch count t hr hc ht =>
    have noted : Paced env ({ s with ready := rest, timeoutCount_ := count }.note
        (.sendCompleted r branch)) :=
      inv.of_frame (by simp [State.select, Entry.rearm?])
        (by simp [State.select, Entry.expiry?]) rfl
    exact noted.rearmed ht
  | flush ec =>
    exact inv.of_frame (State.select_flush _ _ _ fun _ => rfl)
      (State.select_flush _ _ _ fun _ => rfl) rfl
  | get i a g g' reports hg hstep | sent i b p p' reports hp hstep =>
    exact inv.of_frame rfl rfl rfl

theorem exec_paced {env : Env} {net : Net G S α β} {es : List (Event α β)} {s : State G S}
    (once : .start ∉ es) (run : exec (step env net) (started env) es = some s) : Paced env s :=
  exec_invariant (· ≠ .start) (fun _ _ _ ok inv h => step_paced ok inv h) (started_paced env)
    (fun e he => by rintro rfl; exact once he) run

/-- Over any run the expiries are at least the duration apart, each is at most the longer of
the two durations after the reading it is added to, a call is on time exactly when its slot
has not passed, and calls on time drift by exactly the gap between their last two readings. -/
theorem timer_is_paced (env : Env) (net : Net G S α β) (es : List (Event α β)) (s : State G S)
    (once : .start ∉ es) (run : exec (step env net) (started env) es = some s)
    (mini : 0 ≤ env.config.configTagProcessor.timeDurationMini.toInt) :
    s.expiries = (env.clock.now 0 + milliseconds env.timeStartMs_) :: s.rearms.map Rearm.next ∧
    (∀ call ∈ s.rearms, call.expiry ≤ call.frameAt →
      call.next ≤ call.armAt + max (milliseconds env.timeDurationMs_)
        (milliseconds env.config.configTagProcessor.timeDurationMini.toInt)) ∧
    (∀ call ∈ s.rearms,
      call.onTime ↔ call.compareAt < call.expiry + milliseconds env.timeDurationMs_) ∧
    ∀ (i j : Nat) (Ei Ej : Int), i ≤ j →
      s.expiries[i]? = some Ei → s.expiries[j]? = some Ej →
      ((j : Int) - i) * milliseconds env.timeDurationMs_ ≤ Ej - Ei ∧
      ((∀ call ∈ s.rearms.extract i j, call.onTime) →
        Ej - Ei - ((j : Int) - i) * milliseconds env.timeDurationMs_ =
          ((s.rearms.extract i j).map Rearm.gap).sum) := by
  obtain ⟨⟨t, -, linked⟩, expiries, measured⟩ := exec_paced once run
  refine ⟨expiries, ?_, ?_, ?_⟩
  · intro call hcall passed
    obtain ⟨t, n, rfl⟩ := measured call hcall
    exact env.measure_next_le _ _ _ (by simpa using passed)
  · intro call hcall
    obtain ⟨t, n, rfl⟩ := measured call hcall
    exact env.measure_onTime _ t n
  · intro i j Ei Ej ordered hi hj
    rw [expiries] at hi hj
    have path := linked.between ordered hi hj
    have calls (call : Rearm) (hcall : call ∈ s.rearms.extract i j) : call ∈ s.rearms := by
      rw [List.extract_eq_take_drop] at hcall
      exact List.mem_of_mem_drop (List.mem_of_mem_take hcall)
    have number : ((s.rearms.extract i j).length : Int) = j - i := by
      rw [length_between hj]
      omega
    constructor
    · have bound := path.nsmul_le (d := milliseconds env.timeDurationMs_) fun call hcall => by
        obtain ⟨t, n, rfl⟩ := measured call (calls call hcall)
        exact env.measure_length _ _ _ mini
      rwa [nsmul_eq_mul, number] at bound
    · intro onTime
      have drift := path.eq_nsmul_add (d := milliseconds env.timeDurationMs_) Rearm.gap
        fun call hcall => by
          have punctual := onTime call hcall
          obtain ⟨t, n, rfl⟩ := measured call (calls call hcall)
          exact env.measure_gap _ _ _ punctual
      rw [nsmul_eq_mul, number] at drift
      omega

theorem creeping_le {m n : Nat} (le : m ≤ n) :
    (if m = 0 then 0 else seconds 1 + milliseconds m) ≤
      if n = 0 then 0 else seconds 1 + milliseconds n := by
  simp only [seconds, milliseconds]
  split_ifs <;> omega

/-- One cycle on time, on a clock that advances by a millisecond with every reading once the
first expiry has come: it drifts by a millisecond. -/
theorem one_cycle_is_paced :
    let env : Env :=
      { Env.sample with
        clock :=
          { now := fun n => if n = 0 then 0 else seconds 1 + milliseconds n
            forward := fun _ _ le => creeping_le le } }
    let es : List (Event OwlGetImage.Report OwlSendResult.Report) :=
      [.expire, .run, .get 0 ⟨.timeout, false, {}⟩, .run]
    ∃ s, exec (step env Net.once) (started env) es = some s ∧
      s.expiries = [milliseconds 1000, milliseconds 1301] ∧
      milliseconds 1301 - milliseconds 1000 - ((1 : Nat) - (0 : Nat)) * milliseconds 300 =
        ((s.rearms.extract 0 1).map Rearm.gap).sum := by
  intro env es
  have seen : (exec (step env Net.once) (started env) es).map (fun s => (s.expiries, s.rearms)) =
      some ([milliseconds 1000, milliseconds 1301],
        [⟨0, milliseconds 1000, milliseconds 1002, milliseconds 1003,
          some (milliseconds 1004), milliseconds 1005, milliseconds 1301⟩]) := by
    decide +kernel
  obtain ⟨s, run, seen⟩ := Option.map_eq_some_iff.mp seen
  obtain ⟨expiries, rearms⟩ := Prod.mk.inj seen
  refine ⟨s, run, expiries, ?_⟩
  have paced := (timer_is_paced env Net.once es s (by simp [es]) run (by decide)).2.2.2 0 1
    (milliseconds 1000) (milliseconds 1301) (by omega) (by rw [expiries]; rfl)
    (by rw [expiries]; rfl)
  refine paced.2 ?_
  rw [rearms]
  simp [List.extract_eq_take_drop, Rearm.onTime]

end OwlTagProcessor
