import OwlAprilTagProcessor.TagProcessor.Budget
import OwlAprilTagProcessor.TagProcessor.Faults
import OwlAprilTagProcessor.TagProcessor.Poller
import OwlAprilTagProcessor.TagProcessor.Throughput

/-!
# The program fetches for ever

The loop has no end: something can always happen, and what can happen between two GETs is used
up at some time. A run that goes on for ever fetches again and again. Where every shutdown has
gone well so far, at most fifteen events lie between two GETs.
-/

namespace Session
open Asio

/-- Whatever is outstanding may fail. -/
theorem HttpSession.step_isSome {Res Report : Type} (x : Exchange Res Report)
    {s : HttpSession Report} (live : s.outstanding ≠ none) (res : Res) :
    ∃ a, (HttpSession.step x s a).isSome := by
  obtain ⟨op, hop⟩ := Option.ne_none_iff_exists'.mp live
  cases op with
  | resolve => exact ⟨.resolved 0 .timeout, by simp [HttpSession.step, hop]⟩
  | connect => exact ⟨.connected 0 .timeout, by simp [HttpSession.step, hop]⟩
  | write => exact ⟨.written .timeout, by simp [HttpSession.step, hop]⟩
  | read => exact ⟨.read .timeout res .success, by simp [HttpSession.step, hop]⟩

/-- A session has at most four steps left. -/
theorem HttpSession.held_le {Report : Type} (event reports : Nat) (s : HttpSession Report) :
    s.held event reports ≤ if s.outstanding.isSome then 4 * event + reports else 0 := by
  cases hop : s.outstanding with
  | none => simp [hop]
  | some op =>
    rw [HttpSession.held_some hop]
    cases op <;> simp only [Operation.left, Option.isSome_some, if_true] <;> omega

end Session

namespace OwlTagProcessor
open Asio Transition Session OwlGetImage OwlSendResult

/-! ## Something can happen -/

/-- The timer has a wait pending, or an event of the loop can happen now. -/
def Live (env : Env) (lib : Libraries) (s : ProgramState) : Prop :=
  0 < s.pendingWaits ∨ ∃ e : ProgramEvent, e.isWork ∧ enabled env lib s e

theorem exec_live {env : Env} {lib : Libraries} {es : List ProgramEvent} {s : ProgramState}
    (once : .start ∉ es) (run : exec (step env (Net.program lib)) (started env) es = some s) :
    Live env lib s := by
  rcases program_goes_on env lib es s once run with
    pending | ⟨h, hh, -⟩ | ⟨g, hg, live⟩ | ⟨p, hp, live⟩
  · exact .inl pending
  · exact .inr ⟨.run, rfl, List.ne_nil_of_mem hh⟩
  · obtain ⟨i, hi⟩ := List.mem_iff_getElem?.mp hg
    obtain ⟨a, steps⟩ := HttpSession.step_isSome (GetImageSession.exchange lib) live ⟨200, [], []⟩
    exact .inr ⟨.get i a, rfl, g, hi, steps⟩
  · obtain ⟨i, hi⟩ := List.mem_iff_getElem?.mp hp
    obtain ⟨b, steps⟩ := HttpSession.step_isSome SendResultSession.exchange live ⟨200, [], ""⟩
    exact .inr ⟨.send i b, rfl, p, hi, steps⟩

/-! ## Until the next GET -/

/-- Counting events only. -/
def Prices.events : Prices := ⟨1, 0, 0⟩

theorem Prices.events_fetch : Prices.events.fetch = 16 := rfl

/-- From any state on, the work is paid for by what the state holds and by the new GETs. -/
theorem work_le {env : Env} {lib : Libraries} {fs : List ProgramEvent} {s t : ProgramState}
    (others : ∀ e ∈ fs, e ≠ .start) (run : exec (step env (Net.program lib)) s fs = some t) :
    fs.countP Event.isWork + 16 * s.gets.length ≤
      Prices.events.held s + 16 * t.gets.length := by
  have paid := exec_potential (fun _ _ _ h => Prices.events.step_pays h) run
  rw [sum_charge, countP_isStart fun member => others _ member rfl, Prices.balance,
    Prices.balance, Prices.events_fetch] at paid
  simp only [Prices.events] at paid ⊢
  push_cast at paid
  omega

/-- What waits in the queue, unless a wait has been cancelled. -/
theorem sum_handler_le {l : List Handler} (succeed : ∀ ec, .wait ec ∈ l → ec = .success) :
    (l.map Prices.events.handler).sum ≤
      9 * l.countP Handler.isGetDone + 2 * l.countP Handler.isSendDone := by
  induction l with
  | nil => simp
  | cons h l ih =>
    have rest := ih fun ec hec => succeed ec (.tail _ hec)
    rw [List.map_cons, List.sum_cons, List.countP_cons, List.countP_cons]
    cases h with
    | wait ec =>
      obtain rfl := succeed ec (.head _)
      simpa [Prices.handler, Handler.isGetDone, Handler.isSendDone] using rest
    | getDone r =>
      have one := Prices.events.getDone_le_frame r
      have price : Prices.events.frame = 9 := rfl
      simp only [Handler.isGetDone, Handler.isSendDone, if_true, Bool.false_eq_true, if_false]
      omega
    | sendDone r =>
      have price : Prices.events.handler (.sendDone r) = 2 := rfl
      simp only [Handler.isGetDone, Handler.isSendDone, if_true, Bool.false_eq_true, if_false]
      omega

theorem sum_held_le {Report : Type} (event reports : Nat) (l : List (HttpSession Report)) :
    (l.map (HttpSession.held event reports)).sum ≤
      (4 * event + reports) * l.countP (fun s => s.outstanding.isSome) := by
  induction l with
  | nil => simp
  | cons s l ih =>
    have one := HttpSession.held_le event reports s
    rw [List.map_cons, List.sum_cons, List.countP_cons, Nat.mul_add]
    split at one <;> simp_all
    omega

/-- One activity holds fifteen events at most: those of a GET. -/
theorem held_le {env : Env} {lib : Libraries} {A : ErrorCode → Prop} {s : ProgramState}
    (work : s.AtWork lib A) (single : SingleFlight env s.counted) :
    Prices.events.held s ≤ 15 := by
  have queued : (s.ready.map Prices.events.handler).sum ≤
      9 * s.counted.fetched + 2 * s.counted.sent := sum_handler_le single.succeed
  have gets : (s.gets.map (HttpSession.held 1 11)).sum ≤ 15 * s.counted.fetching := by
    refine (sum_held_le 1 11 s.gets).trans_eq ?_
    rw [countP_outstanding work.gets]
    rfl
  have sends : (s.sends.map (HttpSession.held 1 4)).sum ≤ 8 * s.counted.sending := by
    refine (sum_held_le 1 4 s.sends).trans_eq ?_
    rw [countP_outstanding work.sends]
    rfl
  have held : Prices.events.held s = s.counted.pendingWaits * 1 +
      (s.ready.map Prices.events.handler).sum + (s.gets.map (HttpSession.held 1 11)).sum +
      (s.sends.map (HttpSession.held 1 4)).sum := rfl
  have one := single.one
  rw [State.activities, State.waiting] at one
  omega

/-! ## The run -/

/-- Where every shutdown has gone well so far, there is a GET among any sixteen events. -/
theorem sixteen_events_contain_a_get (env : Env) (lib : Libraries) (es fs : List ProgramEvent)
    (s t : ProgramState) (once : .start ∉ es ++ fs)
    (shuts : ∀ e ∈ es, ProgramEvent.Shuts (HttpSession.badShutdown · = false) e)
    (run : exec (step env (Net.program lib)) (started env) es = some s)
    (more : exec (step env (Net.program lib)) s fs = some t)
    (long : 16 ≤ fs.countP Event.isWork) : s.gets.length < t.gets.length := by
  rw [List.mem_append, not_or] at once
  obtain ⟨work, -⟩ := program_refines (Net.allows_once lib) shuts once.1 run
  have held := held_le work (program_is_single_flight env lib es s once.1 shuts run)
  have paid := work_le (fun e he => by rintro rfl; exact once.2 he) more
  omega

/-- A cycle with a frame and its report, and the next GET. -/
theorem a_get_within_sixteen_events :
    let es : List ProgramEvent := [.expire, .run]
    let fs : List ProgramEvent :=
      [.get 0 (.resolved 0 .success), .get 0 (.connected 0 .success), .get 0 (.written .success),
        .get 0 (.read .success ⟨200, [(.contentType, "image/jpeg"), (.xImageFormat, "jpg")],
          [0xff, 0xd8]⟩ .success), .run,
        .send 0 (.resolved 0 .success), .send 0 (.connected 0 .success),
        .send 0 (.written .success), .send 0 (.read .success ⟨200, [], ""⟩ .success), .run,
        .expire, .run,
        .get 1 (.resolved 0 .success), .get 1 (.connected 0 .success), .get 1 (.written .success),
        .get 1 (.read .success ⟨404, [], []⟩ .success)]
    ∃ s t, exec (step .sample (Net.program .sample)) (started .sample) es = some s ∧
      exec (step .sample (Net.program .sample)) s fs = some t ∧ s.gets.length < t.gets.length := by
  intro es fs
  have ran : (exec (step .sample (Net.program .sample)) (started .sample) (es ++ fs)).isSome := by
    decide +kernel
  obtain ⟨t, run⟩ := Option.isSome_iff_exists.mp ran
  obtain ⟨s, first, more⟩ := exec_append_some run
  exact ⟨s, t, first, more, sixteen_events_contain_a_get .sample .sample es fs s t
    (by simp [es, fs]) (by simp [es, ProgramEvent.Shuts]) first more (by decide)⟩

/-- In every reachable state something can happen, or will when the timer expires; and a run
that goes on from there for ever fetches any number of times, whatever the sessions do. -/
theorem the_program_fetches_for_ever (env : Env) (lib : Libraries) (es : List ProgramEvent)
    (s : ProgramState) (once : .start ∉ es)
    (run : exec (step env (Net.program lib)) (started env) es = some s) :
    Live env lib s ∧
      ∀ f : Nat → ProgramEvent, Endless (step env (Net.program lib)) s f →
        (∀ n, f n ≠ .start) → (∀ n, ∃ m, n ≤ m ∧ (f m).isWork) →
        ∀ n, ∃ k t, exec (step env (Net.program lib)) s (firstEvents f k) = some t ∧
          n ≤ t.gets.length := by
  refine ⟨exec_live once run, fun f endless others often => ?_⟩
  refine endless.recurs (A := (· ≠ .start)) others (Prices.events.held s) 16 ?_ often
  intro fs t others more
  have paid := work_le others more
  omega

/-! A server that never answers: every name resolution times out. -/

/-- The timer is armed and has expired, nothing else is left to do. -/
structure Waits (n : Nat) (s : ProgramState) : Prop where
  timer : ∃ x, s.timer_ = some ⟨x, 1⟩ ∧ x ≤ seconds s.reads
  ready : s.ready = []
  gets : s.gets.length = n

def silentServer (n : Nat) : ProgramEvent :=
  match n % 4 with
  | 0 => .expire
  | 2 => .get (n / 4) (.resolved 0 .timeout)
  | _ => .run

/-- The session whose resolution is outstanding, and what the timeout makes of it. -/
theorem sample_get_times_out :
    ∃ g g', (Net.program .sample).get (Env.getRequest .sample) = some g ∧
      (Net.program .sample).getStep g (.resolved 0 .timeout) =
        some (g', [⟨.timeout, false, {}⟩]) :=
  ⟨_, _, rfl, rfl⟩

/-- The wait ends in a GET. -/
theorem Waits.fetch {n : Nat} {s : ProgramState} (waits : Waits n s) {g : GetImageSession}
    (starts : (Net.program .sample).get (Env.getRequest .sample) = some g) :
    ∃ t x, exec (step .sample (Net.program .sample)) s [.expire, .run] = some t ∧
      t.timer_ = some ⟨x, 0⟩ ∧ x ≤ seconds s.reads ∧ t.reads = s.reads + 1 ∧ t.ready = [] ∧
      t.gets = s.gets ++ [g] ∧ t.sends = s.sends := by
  obtain ⟨⟨x, timer, expired⟩, ready, -⟩ := waits
  let s₁ : ProgramState :=
    { s with timer_ := some ⟨x, 0⟩, ready := [.wait .success], reads := s.reads + 1 }
  have first : step .sample (Net.program .sample) s .expire = some s₁ := by
    have one : step .sample (Net.program .sample) s .expire = some _ :=
      step_of_stepped (.expire ⟨x, 1⟩ timer Nat.one_pos expired)
    rwa [ready] at one
  let s₂ : ProgramState :=
    { s₁ with ready := [], gets := s.gets ++ [g] }.note (.get (Env.getRequest .sample))
  have second : step .sample (Net.program .sample) s₁ .run = some s₂ :=
    step_of_stepped (.fetch [] g rfl starts)
  refine ⟨s₂, x, ?_, rfl, expired, rfl, rfl, rfl, rfl⟩
  rw [exec_cons, first, Option.bind_some, exec_cons, second]
  rfl

/-- A failure arms the timer again, and the new expiry has passed when the clock is read. -/
theorem Waits.of_failure {s : ProgramState} {r : OwlGetImage.Report} {x : Int} {n : Nat}
    (ready : s.ready = [.getDone r]) (failed : r.ec ≠ .success) (timer : s.timer_ = some ⟨x, 0⟩)
    (expired : x ≤ seconds n) (reads : s.reads = n + 1) :
    ∃ t, step .sample (Net.program .sample) s .run = some t ∧ Waits s.gets.length t ∧
      t.gets = s.gets ∧ t.sends = s.sends := by
  rcases hc : complete (Env.timeoutCountLimit_ .sample) s.timeoutCount_ r.ec r.ok with
    ⟨branch, count⟩
  refine ⟨_, step_of_stepped (.getRearm r [] branch count ⟨x, 0⟩ ready hc ?_ timer),
    ⟨⟨_, rfl, ?_⟩, rfl, rfl⟩, rfl, rfl⟩
  · rintro rfl
    exact absurd (complete_proceed hc).1 failed
  · have passed := sample_measure (t := ⟨x, 0⟩) expired
    rw [← reads] at passed
    exact passed

theorem Waits.cycle {n : Nat} {s : ProgramState} (waits : Waits n s) :
    ∃ t, exec (step .sample (Net.program .sample)) s
      [.expire, .run, .get n (.resolved 0 .timeout), .run] = some t ∧ Waits (n + 1) t := by
  obtain ⟨g, g', starts, fails⟩ := sample_get_times_out
  obtain ⟨s₁, x, fetch, timer, expired, reads, ready, gets, -⟩ := waits.fetch starts
  let r : OwlGetImage.Report := ⟨.timeout, false, {}⟩
  let s₂ : ProgramState :=
    { s₁ with gets := s₁.gets.set n g', ready := s₁.ready ++ [.getDone r] }
  have listed : s₁.gets[n]? = some g := by simp [gets, ← waits.gets]
  have reported : step .sample (Net.program .sample) s₁ (.get n (.resolved 0 .timeout)) =
      some s₂ := step_of_stepped (.get n _ g g' _ listed fails)
  obtain ⟨t, rearm, again, -⟩ := Waits.of_failure (s := s₂) (r := r) (by simp [s₂, ready])
    (by simp [r]) timer expired reads
  refine ⟨t, ?_, ?_⟩
  · have run := exec_append (step .sample (Net.program .sample)) s [.expire, .run]
      [.get n (.resolved 0 .timeout), .run]
    rw [fetch, Option.bind_some, exec_cons, reported, Option.bind_some, exec_cons, rearm] at run
    exact run
  · simpa [s₂, gets, waits.gets] using again

theorem firstEvents_silentServer (n : Nat) :
    firstEvents silentServer (4 * (n + 1)) = firstEvents silentServer (4 * n) ++
      [.expire, .run, .get n (.resolved 0 .timeout), .run] := by
  have expire : silentServer (4 * n) = .expire := by simp [silentServer]
  have fetch : silentServer (4 * n + 1) = .run := by simp [silentServer]
  have get : silentServer (4 * n + 2) = .get n (.resolved 0 .timeout) := by
    simp [silentServer, Nat.mul_add_div]
  have rearm : silentServer (4 * n + 3) = .run := by simp [silentServer]
  rw [Nat.mul_add_one, firstEvents_succ, firstEvents_succ, firstEvents_succ, firstEvents_succ,
    expire, fetch, get, rearm]
  simp

/-- The cycles of the silent server follow one another. -/
theorem silentServer_waits (n : Nat) :
    ∃ s, exec (step .sample (Net.program .sample)) (started .sample)
      (firstEvents silentServer (4 * n)) = some s ∧ Waits n s := by
  induction n with
  | zero => exact ⟨_, rfl, ⟨_, rfl, by decide⟩, rfl, rfl⟩
  | succ n ih =>
    obtain ⟨s, run, waits⟩ := ih
    obtain ⟨t, more, again⟩ := waits.cycle
    refine ⟨t, ?_, again⟩
    rw [firstEvents_silentServer, exec_append, run]
    exact more

theorem silentServer_endless :
    Endless (step .sample (Net.program .sample)) (started .sample) silentServer := by
  refine .of_long fun n => ?_
  obtain ⟨s, run, -⟩ := silentServer_waits n
  exact ⟨4 * n, by omega, s, run⟩

/-- A server that never answers is asked again and again. -/
theorem a_silent_server_is_asked_for_ever :
    Live .sample .sample (started .sample) ∧ ∀ n, ∃ k t,
      exec (step .sample (Net.program .sample)) (started .sample) (firstEvents silentServer k) =
        some t ∧ n ≤ t.gets.length := by
  obtain ⟨live, fetches⟩ := the_program_fetches_for_ever .sample .sample [] _ (by simp) rfl
  refine ⟨live, fetches silentServer silentServer_endless ?_ ?_⟩
  · intro n
    unfold silentServer
    split <;> simp
  · refine fun n => ⟨n, le_rfl, ?_⟩
    unfold silentServer
    split <;> rfl

end OwlTagProcessor
