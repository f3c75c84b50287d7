import OwlAprilTagProcessor.Program
import OwlAprilTagProcessor.TagProcessor.Activity

/-!
# The loop is single-flight

With sessions that call back once, one token goes round: a wait, a GET, its completion,
a POST, its completion, and back to a wait. Every step hands it on.
-/

namespace OwlTagProcessor
open Asio Transition

/-- The token, and what it implies for the timer and the history. -/
structure SingleFlight (env : Env) (s : State Nat Nat) : Prop where
  one : s.activities = 1
  timer : ∃ t, s.timer_ = some t ∧ (t.waits = 0 → t.expiry ≤ env.clock.now s.reads)
  succeed : ∀ ec, .wait ec ∈ s.ready → ec = .success
  calls : ∀ call ∈ s.rearms, call.waits = 0 ∧ call.expiry ≤ call.frameAt
  fetches : ∀ ec, .aborted ec ∉ s.history

theorem started_singleFlight (env : Env) : SingleFlight env (started env) := by
  refine ⟨rfl, ⟨_, rfl, by simp⟩, ?_, ?_, ?_⟩
  · simp [started, start]
  · simp [started, start, State.select, Entry.rearm?]
  · simp [started, start]

namespace SingleFlight

variable {env : Env} {s : State Nat Nat} {t : SteadyTimer}

/-- A completion that waits to run holds the token: the timer is idle and has expired. -/
theorem quiet {h : Handler} {rest : List Handler} (inv : SingleFlight env s)
    (hr : s.ready = h :: rest) (posted : h.isGetDone ∨ h.isSendDone) (ht : s.timer_ = some t) :
    t.waits = 0 ∧ t.expiry ≤ env.clock.now s.reads := by
  obtain ⟨t', ht', passed⟩ := inv.timer
  obtain rfl : t = t' := by simpa [ht] using ht'
  have held : 1 ≤ s.fetched + s.sent := by
    rw [State.fetched, State.sent, hr, List.countP_cons, List.countP_cons]
    rcases posted with posted | posted <;> simp [posted] <;> omega
  have idle : t.waits = 0 := by
    have one := inv.one
    rw [State.activities, State.waiting, State.pendingWaits_of_timer ht] at one
    omega
  exact ⟨idle, passed idle⟩

/-- A step that neither touches the timer nor adds a wait to the queue. -/
theorem of_frame {s' : State Nat Nat} (inv : SingleFlight env s)
    (one : s'.activities = 1) (timer : s'.timer_ = s.timer_) (reads : s'.reads = s.reads)
    (waits : ∀ ec, .wait ec ∈ s'.ready → .wait ec ∈ s.ready) (rearms : s'.rearms = s.rearms)
    (aborted : ∀ ec, .aborted ec ∈ s'.history → .aborted ec ∈ s.history) :
    SingleFlight env s' := by
  refine ⟨one, ?_, ?_, ?_, ?_⟩
  · rw [timer, reads]
    exact inv.timer
  · exact fun ec hec => inv.succeed ec (waits ec hec)
  · rw [rearms]
    exact inv.calls
  · exact fun ec hec => inv.fetches ec (aborted ec hec)

/-- A completion that re-arms the timer hands the token to the new wait. -/
theorem rearmed {h : Handler} {rest : List Handler} {count : Nat} {e : Entry}
    (inv : SingleFlight env s) (hr : s.ready = h :: rest)
    (posted : h.isGetDone ∨ h.isSendDone) (ht : s.timer_ = some t)
    (he : e.rearm? = none) (ha : ∀ ec, e ≠ .aborted ec) :
    SingleFlight env
      (({ s with ready := rest, timeoutCount_ := count }.note e).rearmed env t) := by
  obtain ⟨idle, passed⟩ := inv.quiet hr posted ht
  constructor
  · exact State.activities_completed inv.one hr (Handler.isLive_of_done posted) ht count e
  · exact ⟨_, rfl, by simp⟩
  · intro ec hec
    rw [State.rearmed_ready, idle] at hec
    have old : .wait ec ∈ rest := by simpa using hec
    exact inv.succeed ec (by simp [hr, old])
  · intro call hcall
    rw [State.rearms, State.select_rearmed, State.select_note, he, Option.toList_none,
      List.append_nil, List.mem_append] at hcall
    rcases hcall with old | new
    · exact inv.calls call old
    · obtain rfl := List.mem_singleton.mp new
      simpa using ⟨idle, passed⟩
  · intro ec hec
    simp only [State.rearmed_history, State.note_history, List.mem_append,
      List.mem_singleton] at hec
    rcases hec with (old | rfl) | new
    · exact inv.fetches ec old
    · exact ha ec rfl
    · exact Entry.noConfusion new

end SingleFlight

theorem step_singleFlight {env : Env} {s s' : State Nat Nat}
    {e : Event OwlGetImage.Report OwlSendResult.Report} (once : e ≠ .start)
    (inv : SingleFlight env s) (h : step env Net.once s e = some s') : SingleFlight env s' := by
  have one := step_activities once inv.one h
  cases step_stepped h with
  | start => exact absurd rfl once
  | expire t ht waiting expired =>
    refine ⟨one, ?_, ?_, inv.calls, inv.fetches⟩
    · exact ⟨_, rfl, fun _ => Int.le_trans expired (env.clock.forward (Nat.le_succ _))⟩
    · intro ec hec
      rcases List.mem_append.mp hec with old | new
      · exact inv.succeed ec old
      · exact (Handler.wait.inj (List.eq_of_mem_replicate new))
  | abort ec rest hr failed => exact absurd (inv.succeed ec (by simp [hr])) failed
  | fetch rest g hr hg =>
    refine inv.of_frame one rfl rfl ?_ ?_ ?_
    · exact fun ec hec => by rw [hr]; exact .tail _ hec
    · simp [State.select, Entry.rearm?]
    · simp
  | send r rest o p hr hec hok himg ho hp =>
    refine inv.of_frame one rfl rfl ?_ ?_ ?_
    · exact fun ec hec => by rw [hr]; exact .tail _ hec
    · simp [State.select, Entry.rearm?]
    · simp
  | getRearm r rest branch count t hr hc himg ht =>
    exact inv.rearmed hr (.inl rfl) ht rfl (by simp)
  | sendRearm r rest branch count t hr hc ht =>
    exact inv.rearmed hr (.inr rfl) ht rfl (by simp)
  | flush ec =>
    refine inv.of_frame one rfl rfl (fun _ => id) (State.select_flush _ _ _ fun _ => rfl) ?_
    simp [flush]
  | get i n g g' reports hg hstep =>
    exact inv.of_frame one rfl rfl (by simp) rfl (fun _ => id)
  | sent i n p p' reports hp hstep =>
    exact inv.of_frame one rfl rfl (by simp) rfl (fun _ => id)

theorem exec_singleFlight {env : Env} {s : State Nat Nat}
    {es : List (Event OwlGetImage.Report OwlSendResult.Report)} (once : .start ∉ es)
    (run : exec (step env Net.once) (started env) es = some s) : SingleFlight env s :=
  exec_invariant (· ≠ .start) (fun _ _ _ ok inv h => step_singleFlight ok inv h)
    (started_singleFlight env) (fun e he => by rintro rfl; exact once he) run

/-- Whatever the order of events, the loop has exactly one activity. So `setNextDuration`
finds an idle timer that has expired, no wait is cancelled, and none takes the error
return of `toGetImage`. -/
theorem loop_is_single_flight (env : Env)
    (es : List (Event OwlGetImage.Report OwlSendResult.Report)) (s : State Nat Nat)
    (once : .start ∉ es) (run : exec (step env Net.once) (started env) es = some s) :
    s.activities = 1 ∧ (∀ call ∈ s.rearms, call.waits = 0 ∧ call.expiry ≤ call.frameAt) ∧
      (∀ ec, .wait ec ∈ s.ready → ec = .success) ∧ ∀ ec, .aborted ec ∉ s.history := by
  have inv := exec_singleFlight once run
  exact ⟨inv.one, inv.calls, inv.succeed, inv.fetches⟩

/-- One cycle: the wait, a frame, its report, a send that times out, the next wait. -/
theorem loop_is_single_flight_for_a_cycle :
    let es : List (Event OwlGetImage.Report OwlSendResult.Report) :=
      [.expire, .run, .get 0 ⟨.success, true, { cols := 1, rows := 1, data := [0] }⟩, .run,
        .send 0 ⟨.timeout, false⟩, .run]
    ∃ s, exec (step .sample Net.once) (started .sample) es = some s ∧ s.activities = 1 ∧
      (∀ call ∈ s.rearms, call.waits = 0 ∧ call.expiry ≤ call.frameAt) ∧
      (∀ ec, .wait ec ∈ s.ready → ec = .success) ∧ ∀ ec, .aborted ec ∉ s.history := by
  intro es
  exact ⟨_, rfl, loop_is_single_flight .sample es _ (by simp [es]) rfl⟩

end OwlTagProcessor
