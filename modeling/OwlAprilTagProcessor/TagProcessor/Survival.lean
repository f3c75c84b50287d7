import OwlAprilTagProcessor.Program
import OwlAprilTagProcessor.TagProcessor.Activity

/-!
# The loop survives repeated reports

A session that calls back more than once starts further chains. Each new chain cancels
the wait of the others through the one timer, and puts its own in the place of it, so a
chain is lost only while another one is alive.
-/

namespace OwlTagProcessor
open Asio Transition

/-- Something will still happen, and at most one wait is pending. -/
structure Survives (s : State Nat Nat) : Prop where
  alive : 1 ≤ s.activities
  single : s.pendingWaits ≤ 1

/-- An armed timer is enough. -/
theorem Survives.of_armed {s : State Nat Nat} {expiry : Int}
    (armed : s.timer_ = some ⟨expiry, 1⟩) : Survives s := by
  have pending : s.pendingWaits = 1 := State.pendingWaits_of_timer armed
  refine ⟨?_, pending.le⟩
  rw [State.activities, State.waiting, pending]
  omega

theorem step_survives {env : Env} {s s' : State Nat Nat}
    {e : Event OwlGetImage.Report OwlSendResult.Report} (inv : Survives s)
    (h : step env Net.repeated s e = some s') : Survives s' := by
  obtain ⟨alive, single⟩ := inv
  cases step_stepped h with
  | start | getRearm | sendRearm => exact .of_armed rfl
  | expire t ht waiting expired =>
    refine ⟨?_, Nat.zero_le 1⟩
    rw [State.activities_expire ht]
    exact alive
  | abort ec rest hr failed =>
    have popped := State.activities_pop hr s.timeoutCount_
    have dead : (Handler.wait ec).isLive.toNat = 0 := by
      simp [Handler.isLive, ErrorCode.failed_eq_true.mpr failed]
    refine ⟨?_, single⟩
    rw [State.activities_note]
    omega
  | fetch rest g hr hg =>
    obtain rfl := Net.reporting_get hg
    refine ⟨?_, single⟩
    rw [State.activities_fetch hr]
    exact alive
  | send r rest o p hr hec hok himg ho hp =>
    obtain rfl := Net.reporting_send hp
    refine ⟨?_, single⟩
    rw [State.activities_send hr]
    exact alive
  | flush ec => exact ⟨alive, single⟩
  | get i r n n' reports hn hstep =>
    obtain ⟨-, rfl, rfl⟩ := Net.reporting_getStep hstep
    have running := count_set_le hn
    have reported := State.activities_get s i (n + 1) r
    refine ⟨?_, single⟩
    simp only [List.map_cons, List.map_nil]
    omega
  | sent i r n n' reports hn hstep =>
    obtain ⟨-, rfl, rfl⟩ := Net.reporting_sendStep hstep
    have running := count_set_le hn
    have reported := State.activities_sent s i (n + 1) r
    refine ⟨?_, single⟩
    simp only [List.map_cons, List.map_nil]
    omega

theorem exec_survives {env : Env} {s : State Nat Nat}
    {es : List (Event OwlGetImage.Report OwlSendResult.Report)}
    (run : exec (step env Net.repeated) (started env) es = some s) : Survives s :=
  exec_invariant (fun _ => True) (fun _ _ _ _ inv h => step_survives inv h)
    (.of_armed rfl) (fun _ _ => trivial) run

/-- However often the sessions report, and in whatever order, the loop has an activity left
and at most one wait pending. -/
theorem loop_survives_repeated_reports (env : Env)
    (es : List (Event OwlGetImage.Report OwlSendResult.Report)) (s : State Nat Nat)
    (run : exec (step env Net.repeated) (started env) es = some s) :
    1 ≤ s.activities ∧ s.pendingWaits ≤ 1 := by
  have inv := exec_survives run
  exact ⟨inv.alive, inv.single⟩

/-- A GET reports a frame and then a failed shutdown. The second completion arms the timer
while the frame is on its way, the report of the POST cancels that wait and arms anew. -/
theorem loop_survives_a_second_report :
    let es : List (Event OwlGetImage.Report OwlSendResult.Report) :=
      [.expire, .run, .get 0 ⟨.success, true, { cols := 1, rows := 1, data := [0] }⟩,
        .get 0 ⟨.other 32, false, {}⟩, .run, .run, .send 0 ⟨.success, true⟩, .run]
    ∃ s, exec (step .sample Net.repeated) (started .sample) es = some s ∧
      1 ≤ s.activities ∧ s.pendingWaits ≤ 1 := by
  intro es
  exact ⟨_, rfl, loop_survives_repeated_reports .sample es _ rfl⟩

end OwlTagProcessor
