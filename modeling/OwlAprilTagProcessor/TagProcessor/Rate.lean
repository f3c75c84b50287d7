import OwlAprilTagProcessor.TagProcessor.Budget
import OwlAprilTagProcessor.TagProcessor.Pacing

/-!
# The traffic of a run

Between two expirations of the timer it is re-armed at least once, and a re-arming moves the
expiry by the duration at least. So the expirations are at least a duration apart, whatever
the sessions do, and with them the GETs. What a GET can cause is bounded too: together the
two bound the traffic and the work of the program by the time that has passed.
-/

namespace OwlTagProcessor
open Asio Transition Linked

variable {G S α β : Type}

def Event.isExpire : Event α β → Bool
  | .expire => true
  | _ => false

/-- The expiry `start` sets when the program starts. -/
def Env.firstExpiry (env : Env) : Int := env.clock.now 0 + milliseconds env.timeStartMs_

/-- The GETs and the expirations of a run. At most one wait is pending, and after the first
one only when `setNextDuration` has been called for each expiration. -/
structure Metered (env : Env) (es : List (Event α β)) (s : State G S) : Prop where
  timer : ∃ t, s.timer_ = some t ∧ t.waits ≤ 1 ∧
    es.countP Event.isExpire + t.waits ≤ s.rearms.length + 1
  fetches : s.gets.length + s.ready.count (.wait .success) = es.countP Event.isExpire
  last : 0 < es.countP Event.isExpire →
    env.firstExpiry + ((es.countP Event.isExpire : Int) - 1) * milliseconds env.timeDurationMs_ ≤
      env.clock.now (s.reads - 1)

theorem started_metered (env : Env) :
    Metered env ([] : List (Event α β)) (started env : State G S) :=
  ⟨⟨_, rfl, le_rfl, by simp⟩, by simp [started, start], by simp⟩

/-- The expiry of the timer lies a duration after the first one for every re-arming. -/
theorem Paced.expiry_ge {env : Env} {s : State G S} (inv : Paced env s) {t : SteadyTimer}
    (ht : s.timer_ = some t)
    (mini : 0 ≤ env.config.configTagProcessor.timeDurationMini.toInt) :
    env.firstExpiry + s.rearms.length * milliseconds env.timeDurationMs_ ≤ t.expiry := by
  obtain ⟨⟨t', ht', linked⟩, -, measured⟩ := inv
  obtain rfl : t = t' := by simpa [ht] using ht'
  have bound := linked.nsmul_le (d := milliseconds env.timeDurationMs_) fun call hcall => by
    obtain ⟨t, n, rfl⟩ := measured call hcall
    exact env.measure_length _ _ _ mini
  rw [nsmul_eq_mul] at bound
  rw [Env.firstExpiry]
  omega

namespace Metered

variable {env : Env} {es : List (Event α β)} {e : Event α β} {s s' : State G S}

/-- A step that neither expires nor re-arms the timer. -/
theorem of_frame (inv : Metered env es s) (quiet : e.isExpire = false)
    (timer : s'.timer_ = s.timer_) (reads : s'.reads = s.reads) (rearms : s'.rearms = s.rearms)
    (fetches : s'.gets.length + s'.ready.count (.wait .success) =
      s.gets.length + s.ready.count (.wait .success)) : Metered env (es ++ [e]) s' := by
  have count : (es ++ [e]).countP Event.isExpire = es.countP Event.isExpire := by simp [quiet]
  refine ⟨?_, ?_, ?_⟩
  · rw [timer, rearms, count]
    exact inv.timer
  · rw [fetches, count]
    exact inv.fetches
  · rw [reads, count]
    exact inv.last

/-- A completion that re-arms the timer. -/
theorem rearmed (inv : Metered env es s) {h : Handler} {rest : List Handler} {count : Nat}
    {entry : Entry} {t : SteadyTimer} (hr : s.ready = h :: rest) (other : h ≠ .wait .success)
    (he : entry.rearm? = none) (ht : s.timer_ = some t) (quiet : e.isExpire = false) :
    Metered env (es ++ [e])
      (({ s with ready := rest, timeoutCount_ := count }.note entry).rearmed env t) := by
  have same : (es ++ [e]).countP Event.isExpire = es.countP Event.isExpire := by simp [quiet]
  obtain ⟨t', ht', -, counted⟩ := inv.timer
  obtain rfl : t = t' := by simpa [ht] using ht'
  have calls : (({ s with ready := rest, timeoutCount_ := count }.note entry).rearmed
      env t).rearms.length = s.rearms.length + 1 := by
    rw [State.rearms, State.select_rearmed, State.select_note, he]
    simp [State.select, Entry.rearm?]
  refine ⟨⟨_, rfl, le_rfl, ?_⟩, ?_, ?_⟩
  · rw [same, calls]
    dsimp only
    omega
  · have fetches := inv.fetches
    rw [hr, List.count_cons_of_ne other] at fetches
    rw [same, ← fetches]
    simp [count_replicate_wait]
  · rw [same]
    intro some
    refine (inv.last some).trans (env.clock.forward ?_)
    simp only [State.rearmed_reads, State.note_reads]
    omega

end Metered

theorem step_metered {env : Env} {net : Net G S α β} {es : List (Event α β)} {e : Event α β}
    {s s' : State G S} (once : e ≠ .start) (duration : 0 ≤ env.timeDurationMs_)
    (mini : 0 ≤ env.config.configTagProcessor.timeDurationMini.toInt) (paced : Paced env s)
    (inv : Metered env es s) (h : step env net s e = some s') : Metered env (es ++ [e]) s' := by
  cases step_stepped h with
  | start => exact absurd rfl once
  | expire t ht waiting expired =>
    obtain ⟨t', ht', one, counted⟩ := inv.timer
    obtain rfl : t = t' := by simpa [ht] using ht'
    have next : (es ++ [Event.expire]).countP Event.isExpire = es.countP Event.isExpire + 1 := by
      simp [Event.isExpire]
    have pending : t.waits = 1 := by omega
    refine ⟨⟨_, rfl, by simp, ?_⟩, ?_, ?_⟩
    · rw [next]
      have same : State.rearms { s with
          timer_ := some t.release
          ready := s.ready ++ List.replicate t.waits (.wait .success)
          reads := s.reads + 1 } = s.rearms := rfl
      rw [same, SteadyTimer.release_waits]
      omega
    · rw [next, ← inv.fetches, pending, List.count_append]
      simp
      omega
    · intro _
      rw [next]
      -- a call for each expiration before this one
      have calls : (es.countP Event.isExpire : Int) * milliseconds env.timeDurationMs_ ≤
          s.rearms.length * milliseconds env.timeDurationMs_ := by
        have length : milliseconds 0 ≤ milliseconds env.timeDurationMs_ := by
          simp only [milliseconds]
          omega
        refine Int.mul_le_mul_of_nonneg_right ?_ length
        omega
      have expiry := paced.expiry_ge ht mini
      simp only [Nat.add_sub_cancel]
      push_cast
      rw [Int.add_sub_cancel]
      omega
  | abort ec rest hr failed =>
    refine inv.of_frame rfl rfl rfl (by simp [State.select, Entry.rearm?]) ?_
    rw [State.note_gets, State.note_ready, hr, List.count_cons_of_ne (by simpa using failed)]
  | fetch rest g hr hg =>
    refine inv.of_frame rfl rfl rfl (by simp [State.select, Entry.rearm?]) ?_
    rw [State.note_gets, State.note_ready, hr, List.count_cons_self]
    dsimp only
    rw [List.length_append, List.length_singleton]
    omega
  | send r rest o p hr hec hok himg ho hp =>
    refine inv.of_frame rfl rfl rfl (by simp [State.select, Entry.rearm?]) ?_
    simp [hr]
  | getRearm r rest branch count t hr hc himg ht => exact inv.rearmed hr (by simp) rfl ht rfl
  | sendRearm r rest branch count t hr hc ht => exact inv.rearmed hr (by simp) rfl ht rfl
  | flush ec => exact inv.of_frame rfl rfl rfl (State.select_flush _ _ _ fun _ => rfl) rfl
  | get i a g g' reports hg hstep =>
    refine inv.of_frame rfl rfl rfl rfl ?_
    simp [List.count_append, List.count_eq_zero]
  | sent i b p p' reports hp hstep =>
    refine inv.of_frame rfl rfl rfl rfl ?_
    simp [List.count_append, List.count_eq_zero]

theorem exec_metered {env : Env} {net : Net G S α β} {es : List (Event α β)} {s : State G S}
    (once : .start ∉ es) (duration : 0 ≤ env.timeDurationMs_)
    (mini : 0 ≤ env.config.configTagProcessor.timeDurationMini.toInt)
    (run : exec (step env net) (started env) es = some s) : Metered env es s := by
  refine exec_induction (P := fun fs u => .start ∉ fs → Metered env fs u)
    (fun _ => started_metered env) ?_ run once
  intro fs u e v before ih last once
  obtain ⟨others, other⟩ : .start ∉ fs ∧ e ≠ .start := by
    simpa [not_or, eq_comm] using once
  exact step_metered other duration mini (exec_paced others before) (ih others) last

/-- The GETs of a run lie a duration apart on average. -/
theorem Metered.gets_le {env : Env} {es : List (Event α β)} {s : State G S}
    (inv : Metered env es s) (duration : 0 ≤ env.timeDurationMs_) (fetched : 0 < s.gets.length) :
    ((s.gets.length : Int) - 1) * milliseconds env.timeDurationMs_ ≤
      env.clock.now (s.reads - 1) - env.firstExpiry := by
  have fetches := inv.fetches
  have bound := inv.last (by omega)
  have length : 0 ≤ milliseconds env.timeDurationMs_ := by
    simp only [milliseconds]
    omega
  have fewer : ((s.gets.length : Int) - 1) * milliseconds env.timeDurationMs_ ≤
      ((es.countP Event.isExpire : Int) - 1) * milliseconds env.timeDurationMs_ :=
    Int.mul_le_mul_of_nonneg_right (by omega) length
  omega

/-- Whatever the servers answer and however often the sessions report, the GETs, the POSTs
and the work of the program are bounded by the time since the first expiry. -/
theorem traffic_is_bounded_by_time (env : Env) (lib : Libraries) (es : List ProgramEvent)
    (s : ProgramState) (once : .start ∉ es) (duration : 0 ≤ env.timeDurationMs_)
    (mini : 0 ≤ env.config.configTagProcessor.timeDurationMini.toInt)
    (run : exec (step env (Net.program lib)) (started env) es = some s) (fetched : s.gets ≠ []) :
    let duration := milliseconds env.timeDurationMs_
    let elapsed := env.clock.now (s.reads - 1) - env.firstExpiry
    ((s.gets.length : Int) - 1) * duration ≤ elapsed ∧
      ((s.sends.length : Int) - 1) * duration ≤ elapsed ∧
      ((es.countP Event.isWork : Int) - 17) * duration ≤ 16 * elapsed := by
  intro length elapsed
  have gets : ((s.gets.length : Int) - 1) * length ≤ elapsed :=
    (exec_metered once duration mini run).gets_le duration (List.length_pos_iff.mpr fetched)
  have nonneg : 0 ≤ length := by
    simp only [length, milliseconds]
    omega
  have starts : es.countP Event.isStart = 0 := countP_isStart once
  refine ⟨gets, ?_, ?_⟩
  · have posts := exec_pays ⟨0, 1, 0⟩ run
    simp only [Prices.fetch_eq, zero_mul, one_mul, mul_zero, zero_add, add_zero] at posts
    calc ((s.sends.length : Int) - 1) * length ≤ ((s.gets.length : Int) - 1) * length :=
          Int.mul_le_mul_of_nonneg_right (by omega) nonneg
      _ ≤ elapsed := gets
  · have work := exec_pays ⟨1, 0, 0⟩ run
    simp only [Prices.fetch_eq, starts, zero_mul, one_mul, mul_zero, mul_one, add_zero] at work
    calc ((es.countP Event.isWork : Int) - 17) * length
        ≤ (16 * ((s.gets.length : Int) - 1)) * length :=
          Int.mul_le_mul_of_nonneg_right (by omega) nonneg
      _ = 16 * (((s.gets.length : Int) - 1) * length) := mul_assoc ..
      _ ≤ 16 * elapsed := by omega

/-- Two cycles without a frame: two GETs, a second apart on the sample clock. -/
theorem two_gets_are_paced :
    let es : List ProgramEvent :=
      [.expire, .run, .get 0 (.resolved 0 .timeout), .run, .expire, .run]
    ∃ s, exec (step .sample (Net.program .sample)) (started .sample) es = some s ∧
      s.gets.length = 2 ∧
      ((s.gets.length : Int) - 1) * milliseconds (Env.timeDurationMs_ .sample) ≤
        (Env.clock .sample).now (s.reads - 1) - Env.firstExpiry .sample := by
  intro es
  have gets : (exec (step .sample (Net.program .sample)) (started .sample) es).map
      (fun s => s.gets.length) = some 2 := by decide +kernel
  obtain ⟨s, run, gets⟩ := Option.map_eq_some_iff.mp gets
  refine ⟨s, run, gets, ?_⟩
  exact (traffic_is_bounded_by_time .sample .sample es s (by simp [es]) (by decide) (by decide)
    run (by rintro none; simp [none] at gets)).1

end OwlTagProcessor
