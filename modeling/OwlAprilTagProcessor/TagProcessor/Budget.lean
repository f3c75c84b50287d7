import Mathlib.Tactic.Linarith
import Mathlib.Tactic.Ring
import OwlAprilTagProcessor.Session.Reports
import OwlAprilTagProcessor.TagProcessor.Activity
import OwlAprilTagProcessor.TagProcessor.Correspondence

/-!
# What one GET can cause

A session may report twice, so a cycle of the loop may fork: one GET leads to a POST and
to several calls of `setNextDuration`. Here everything a GET can cause is paid for in
advance. A session holds what its remaining steps and its reports will cost, a ready
handler what it is going to do, and a pending wait the event it ends with. The price of a
GET then bounds the POSTs, the re-armings and the events of every run.
-/

namespace Session
open Asio

variable {Res Report : Type}

/-- The steps a session has left from its outstanding operation on. -/
def Operation.left : Operation → Nat
  | .resolve => 4
  | .connect => 3
  | .write => 2
  | .read => 1

/-- `event` for each step left and `reports` for the calls at the end. -/
def HttpSession.held (event reports : Nat) (s : HttpSession Report) : Nat :=
  match s.outstanding with
  | none => 0
  | some op => op.left * event + reports

@[simp] theorem HttpSession.held_none {event reports : Nat} {s : HttpSession Report}
    (h : s.outstanding = none) : s.held event reports = 0 := by
  simp [held, h]

@[simp] theorem HttpSession.held_some {event reports : Nat} {s : HttpSession Report}
    {op : Operation} (h : s.outstanding = some op) :
    s.held event reports = op.left * event + reports := by
  simp [held, h]

/-- A session still at work pays for its last step and its calls. -/
theorem HttpSession.le_held (event reports : Nat) {s : HttpSession Report}
    (h : s.outstanding ≠ none) : event + reports ≤ s.held event reports := by
  obtain ⟨op, hop⟩ := Option.ne_none_iff_exists'.mp h
  rw [held_some hop]
  cases op <;> simp only [Operation.left] <;> omega

end Session

namespace OwlTagProcessor
open Asio Transition Session OwlGetImage OwlSendResult

/-- A step of a session pays for itself and for the calls made in it: at most one call for
the response and one for a failure. -/
theorem reporting_pays {Res Report : Type} {x : Exchange Res Report} {s s' : HttpSession Report}
    {e : Completion Res} {reports : List Report} {f : Report → Nat} {a b : Nat}
    (response : ∀ r, f r ≤ a) (failure : ∀ ec, f (x.failure ec) ≤ b) (event : Nat)
    (h : reporting s (HttpSession.step x s e) = some (s', reports)) :
    event + s'.held event (a + b) + (reports.map f).sum ≤ s.held event (a + b) := by
  obtain ⟨hstep, clean, rfl⟩ := reporting_eq_some h
  cases HttpSession.step_handled hstep with
  | resolved now hop | connected now hop | written hop =>
    rw [HttpSession.held_some hop, HttpSession.held_some rfl]
    simp only [List.drop_length, List.map_nil, List.sum_nil, Operation.left]
    omega
  | failed _ live _ =>
    have paid := HttpSession.le_held event (a + b) live
    have one := failure e.ec
    rw [HttpSession.held_none (HttpSession.fail_outstanding ..)]
    cases hcall : s.callback_ <;> simp [HttpSession.fail, hcall] at clean ⊢
    omega
  | read res shutdown hop =>
    rw [HttpSession.held_some hop, HttpSession.held_none (HttpSession.onRead_outstanding ..)]
    cases hr : x.respond res with
    | error ex => simp [HttpSession.onRead, hr] at clean
    | ok r =>
      have one := response r
      have two := failure shutdown
      cases hcall : s.callback_ <;> cases hbad : HttpSession.badShutdown shutdown <;>
        simp [HttpSession.onRead, HttpSession.callBack, HttpSession.fail, hr, hcall, hbad,
          Operation.left] at clean ⊢ <;> omega

/-- Replacing one element of a list changes a sum over it by the difference of the two. -/
theorem sum_map_set {ι : Type} (f : ι → Nat) {l : List ι} {i : Nat} {a : ι} (b : ι)
    (h : l[i]? = some a) : ((l.set i b).map f).sum + f a = (l.map f).sum + f b := by
  induction l generalizing i with
  | nil => simp at h
  | cons c l ih =>
    cases i with
    | zero =>
      obtain rfl : c = a := by simpa using h
      simp only [List.set_cons_zero, List.map_cons, List.sum_cons]
      omega
    | succ i =>
      have tail := ih (i := i) (by simpa using h)
      simp only [List.set_cons_succ, List.map_cons, List.sum_cons]
      omega

theorem send_outstanding {lib : Libraries} {req : SendRequest} {p : SendResultSession}
    (h : (Net.program lib).send req = some p) : p.outstanding = some .resolve := by
  simp only [Net.program, Option.ite_none_left_eq_some, Option.some.injEq] at h
  obtain ⟨clean, rfl⟩ := h
  cases parsed : lib.url req.target with
  | none => simp [SendResult.send, SendResultSession.run, parsed] at clean
  | some url => simp [SendResult.send, SendResultSession.run, parsed]

/-! ## Prices -/

/-- The unit prices: for an event, for a POST and for a call of `setNextDuration`. -/
structure Prices where
  event : Nat
  post : Nat
  rearm : Nat

namespace Prices

variable (p : Prices)

/-- A completion that re-arms: its event, the call, and the event the new wait ends with. -/
def completion : Nat := 2 * p.event + p.rearm

/-- A completion that sends a report: its event, the POST, and all its session can do. -/
def frame : Nat := p.event + p.post + (4 * p.event + (p.completion + p.completion))

/-- A GET: the event it starts with and all its session can do. -/
def fetch : Nat := p.event + (4 * p.event + (p.frame + p.completion))

theorem fetch_eq : p.fetch = 16 * p.event + p.post + 3 * p.rearm := by
  simp only [fetch, frame, completion]
  omega

/-- What a ready handler holds. A wait that succeeded holds nothing: the GET it starts is
what pays. -/
def handler : Handler → Nat
  | .wait ec => if ec = .success then 0 else p.event
  | .getDone r => if r.frame?.isSome then p.frame else p.completion
  | .sendDone _ => p.completion

def held (s : ProgramState) : Nat :=
  s.pendingWaits * p.event + (s.ready.map p.handler).sum +
    (s.gets.map (HttpSession.held p.event (p.frame + p.completion))).sum +
    (s.sends.map (HttpSession.held p.event (p.completion + p.completion))).sum

/-- A start pays for the event its wait ends with; the tracer's timer costs the loop nothing. -/
def charge : ProgramEvent → Int
  | .start => -p.event
  | .flush _ => 0
  | _ => p.event

/-- What is held and spent, less the price of the GETs. -/
def balance (s : ProgramState) : Int :=
  p.held s + p.post * s.sends.length + p.rearm * s.rearms.length - p.fetch * s.gets.length

/-! ### How the balance changes -/

theorem completion_le_getDone (r : OwlGetImage.Report) :
    p.completion ≤ p.handler (.getDone r) := by
  grind [handler, frame]

theorem getDone_le_frame (r : OwlGetImage.Report) : p.handler (.getDone r) ≤ p.frame := by
  grind [handler, frame]

/-- Cancelling the waits on a timer costs what they hold. -/
theorem cancelled (n : Nat) :
    ((List.replicate n (Handler.wait .operationAborted)).map p.handler).sum = n * p.event := by
  simp [handler]

theorem succeeded (n : Nat) :
    ((List.replicate n (Handler.wait .success)).map p.handler).sum = 0 := by
  simp [handler]

variable {p} {s s' : ProgramState}

/-- A step that issues no request and does not re-arm the timer. -/
theorem balance_of_held {c : Int} (held : c + p.held s' ≤ p.held s)
    (gets : s'.gets.length = s.gets.length) (sends : s'.sends.length = s.sends.length)
    (rearms : s'.rearms.length = s.rearms.length) : c + p.balance s' ≤ p.balance s := by
  rw [balance, balance, gets, sends, rearms]
  omega

/-- Running a ready handler takes what it holds. -/
theorem held_run {h : Handler} {rest : List Handler} (hr : s.ready = h :: rest) (count : Nat) :
    p.held s = p.handler h + p.held { s with ready := rest, timeoutCount_ := count } := by
  simp only [held, State.pendingWaits, hr, List.map_cons, List.sum_cons]
  omega

/-- Re-arming the timer: a new wait is pending and the old ones are cancelled. -/
theorem balance_rearmed {env : Env} {t : SteadyTimer} (ht : s.timer_ = some t) :
    p.balance (s.rearmed env t) = p.balance s + p.event + p.rearm := by
  have calls : (s.rearmed env t).rearms.length = s.rearms.length + 1 := by
    rw [State.rearms, State.select_rearmed]
    simp [Entry.rearm?]
  have held : p.held (s.rearmed env t) = p.held s + p.event := by
    simp only [Prices.held, State.rearmed_ready, State.rearmed_gets, State.rearmed_sends,
      List.map_append, List.sum_append, cancelled, State.pendingWaits_of_timer ht]
    simp only [State.pendingWaits, State.rearmed_timer_, Option.map_some, Option.getD_some]
    omega
  simp only [balance, calls, held, State.rearmed_gets, State.rearmed_sends]
  push_cast
  ring

/-- A completion that re-arms the timer. -/
theorem balance_completed {env : Env} {h : Handler} {rest : List Handler} {count : Nat} {e : Entry}
    {t : SteadyTimer} (hr : s.ready = h :: rest) (he : e.rearm? = none) (ht : s.timer_ = some t)
    (pays : p.completion ≤ p.handler h) :
    p.event + p.balance (({ s with ready := rest, timeoutCount_ := count }.note e).rearmed env t) ≤
      p.balance s := by
  have calls : ({ s with ready := rest, timeoutCount_ := count }.note e).rearms = s.rearms := by
    rw [State.rearms, State.select_note, he]
    simp [State.select]
  have before : p.handler h + p.balance ({ s with ready := rest, timeoutCount_ := count }.note e) =
      p.balance s := by
    simp only [balance, calls, held_run hr count]
    simp only [State.note, held, State.pendingWaits]
    push_cast
    ring
  have armed : p.balance
      (({ s with ready := rest, timeoutCount_ := count }.note e).rearmed env t) =
      p.balance ({ s with ready := rest, timeoutCount_ := count }.note e) + p.event + p.rearm :=
    balance_rearmed ht
  rw [armed]
  simp only [completion] at pays
  omega

/-- A step is paid for by what it takes from the balance. -/
theorem step_pays {env : Env} {lib : Libraries} {e : ProgramEvent}
    (h : step env (Net.program lib) s e = some s') :
    p.charge e + p.balance s' ≤ p.balance s := by
  cases step_stepped h with
  | start =>
    refine balance_of_held ?_ rfl rfl ?_
    · cases ht : s.timer_ <;>
        simp only [charge, held, start, ht, State.pendingWaits, List.map_append, List.sum_append,
          cancelled, SteadyTimer.asyncWait_waits, Option.map_some, Option.map_none,
          Option.getD_some, Option.getD_none, List.map_nil, List.sum_nil] <;>
        omega
    · simp [start, State.select, Entry.rearm?]
  | expire t ht waiting expired =>
    refine balance_of_held ?_ rfl rfl rfl
    have one : p.event ≤ t.waits * p.event := Nat.le_mul_of_pos_left _ waiting
    simp only [charge, held, State.pendingWaits, ht, List.map_append, List.sum_append, succeeded,
      SteadyTimer.release_waits, Option.map_some, Option.getD_some]
    omega
  | abort ec rest hr failed =>
    refine balance_of_held ?_ rfl rfl ?_
    · rw [held_run hr s.timeoutCount_]
      simp only [charge, handler, failed, if_false]
      exact_mod_cast le_rfl
    · simp [State.select, Entry.rearm?]
  | fetch rest g hr hg =>
    have calls : ({ s with ready := rest, gets := s.gets ++ [g] }.note
        (.get env.getRequest)).rearms = s.rearms := by
      simp [State.select, Entry.rearm?]
    have fresh : g.outstanding = some .resolve := by
      obtain rfl := Option.some.inj hg
      rfl
    have paid := held_run (p := p) hr s.timeoutCount_
    simp only [balance, calls]
    simp only [charge, State.note, held, State.pendingWaits, handler, fetch, List.map_append,
      List.map_singleton, List.sum_append, List.sum_singleton, List.length_append,
      List.length_singleton, HttpSession.held_some fresh, Operation.left, if_true] at paid ⊢
    push_cast
    linarith
  | send r rest o q hr hec hok himg ho hp =>
    have calls : (({ s with
        ready := rest, timeoutCount_ := 0, sends := s.sends ++ [q] }.note
        (.getCompleted r .proceed)).note
          (.post (env.sendRequest (env.resultType o)))).rearms = s.rearms := by
      simp [State.select, Entry.rearm?]
    have fresh := send_outstanding hp
    have frame : r.frame? = some r.img := if_pos ⟨hec, hok, himg⟩
    have paid := held_run (p := p) hr 0
    simp only [balance, calls]
    simp only [charge, State.note, held, State.pendingWaits, handler, Prices.frame, frame,
      List.map_append, List.map_singleton, List.sum_append, List.sum_singleton,
      List.length_append, List.length_singleton, HttpSession.held_some fresh, Operation.left,
      Option.isSome_some, if_true] at paid ⊢
    push_cast
    linarith
  | getRearm r rest branch count t hr hc himg ht =>
    exact balance_completed hr rfl ht (p.completion_le_getDone r)
  | sendRearm r rest branch count t hr hc ht =>
    exact balance_completed hr rfl ht le_rfl
  | flush ec =>
    have calls : (flush ec s).rearms = s.rearms := State.select_flush _ _ _ fun _ => rfl
    refine balance_of_held ?_ rfl rfl (congrArg _ calls)
    simp only [charge, zero_add]
    exact le_rfl
  | get i a g g' reports hg hstep =>
    refine balance_of_held ?_ (by simp) rfl rfl
    have paid := reporting_pays (f := p.handler ∘ .getDone) (b := p.completion)
      p.getDone_le_frame (by simp [handler]) p.event hstep
    have replaced := sum_map_set (HttpSession.held p.event (p.frame + p.completion)) g' hg
    simp only [charge, held, State.pendingWaits, List.map_append, List.sum_append, List.map_map]
    omega
  | sent i b q q' reports hp hstep =>
    refine balance_of_held ?_ rfl (by simp) rfl
    have paid := reporting_pays (f := p.handler ∘ .sendDone) (a := p.completion)
      (b := p.completion) (fun _ => le_rfl) (fun _ => le_rfl) p.event hstep
    have replaced := sum_map_set (HttpSession.held p.event (p.completion + p.completion)) q' hp
    simp only [charge, held, State.pendingWaits, List.map_append, List.sum_append, List.map_map]
    omega

end Prices

/-! ## The run -/

section Run

variable {α β : Type}

/-- The events that move a cycle on: everything but a start and the tracer's timer. -/
def Event.isWork : Event α β → Bool
  | .start | .flush _ => false
  | _ => true

def Event.isStart : Event α β → Bool
  | .start => true
  | _ => false

theorem countP_isStart {es : List (Event α β)} (once : .start ∉ es) :
    es.countP Event.isStart = 0 := by
  refine List.countP_eq_zero.mpr fun e he starts => ?_
  cases e <;> simp [Event.isStart] at starts
  exact once he

end Run

theorem sum_charge (p : Prices) (es : List ProgramEvent) :
    (es.map p.charge).sum =
      p.event * es.countP Event.isWork - p.event * es.countP Event.isStart := by
  induction es with
  | nil => simp
  | cons e es ih =>
    rw [List.map_cons, List.sum_cons, ih, List.countP_cons, List.countP_cons]
    cases e <;> simp only [Prices.charge, Event.isWork, Event.isStart, if_true, if_false,
      Bool.false_eq_true] <;> push_cast <;> ring

/-- A run has spent and holds no more than the GETs and the starts have paid. -/
theorem exec_pays (p : Prices) {env : Env} {lib : Libraries} {es : List ProgramEvent}
    {s : ProgramState} (run : exec (step env (Net.program lib)) (started env) es = some s) :
    p.event * es.countP Event.isWork + p.held s + p.post * s.sends.length +
        p.rearm * s.rearms.length ≤
      p.event * (1 + es.countP Event.isStart) + p.fetch * s.gets.length := by
  have paid := exec_potential (fun _ _ _ h => p.step_pays h) run
  have init : p.balance (started env) = p.event := by
    simp [Prices.balance, Prices.held, started, start, State.pendingWaits, State.select,
      Entry.rearm?]
  rw [sum_charge, init, Prices.balance] at paid
  zify
  rw [mul_add, mul_one]
  linarith

/-- Whatever the sessions do and however often they report, a GET causes at most one POST,
three calls of `setNextDuration` and sixteen events, at any prices taken together; each start
causes one event more. So the loop cannot spin without fetching. -/
theorem a_get_pays_for_what_it_causes (env : Env) (lib : Libraries) (event post rearm : Nat)
    (es : List ProgramEvent) (s : ProgramState)
    (run : exec (step env (Net.program lib)) (started env) es = some s) :
    event * es.countP Event.isWork + post * s.sends.length + rearm * s.rearms.length ≤
      event * (1 + es.countP Event.isStart) +
        (16 * event + post + 3 * rearm) * s.gets.length := by
  have paid := exec_pays ⟨event, post, rearm⟩ run
  rw [Prices.fetch_eq] at paid
  dsimp only at paid
  omega

/-- The bound is met: the first GET reports a frame and a failed shutdown, and so does its
POST. -/
theorem a_get_that_causes_all_it_can :
    let es : List ProgramEvent :=
      [.expire, .run, .get 0 (.resolved 0 .success), .get 0 (.connected 0 .success),
        .get 0 (.written .success),
        .get 0 (.read .success ⟨200, [(.contentType, "image/jpeg"), (.xImageFormat, "jpg")],
          [0xff, 0xd8]⟩ (.other 32)), .run, .run,
        .send 0 (.resolved 0 .success), .send 0 (.connected 0 .success),
        .send 0 (.written .success), .send 0 (.read .success ⟨200, [], ""⟩ (.other 32)),
        .run, .run, .run, .run, .expire]
    ∃ s, exec (step .sample (Net.program .sample)) (started .sample) es = some s ∧
      1 * es.countP Event.isWork + 1 * s.sends.length + 1 * s.rearms.length ≤
        1 * (1 + es.countP Event.isStart) + (16 * 1 + 1 + 3 * 1) * s.gets.length ∧
      es.countP Event.isWork = 1 + 16 * s.gets.length ∧ s.sends.length = s.gets.length ∧
      s.rearms.length = 3 * s.gets.length := by
  intro es
  have counts : (exec (step .sample (Net.program .sample)) (started .sample) es).map
      (fun s => (s.gets.length, s.sends.length, s.rearms.length)) = some (1, 1, 3) := by
    decide +kernel
  obtain ⟨s, run, counts⟩ := Option.map_eq_some_iff.mp counts
  obtain ⟨gets, sends, rearms⟩ : s.gets.length = 1 ∧ s.sends.length = 1 ∧ s.rearms.length = 3 := by
    simpa using counts
  refine ⟨s, run, a_get_pays_for_what_it_causes .sample .sample 1 1 1 es s run, ?_, ?_, ?_⟩
  · rw [gets]
    rfl
  · omega
  · omega

end OwlTagProcessor
