import OwlAprilTagProcessor.Session.Reports
import OwlAprilTagProcessor.TagProcessor.Correspondence
import OwlAprilTagProcessor.TagProcessor.Faults

/-!
# Callbacks and completions

The callback of a session does nothing but post a lambda to the `io_context`. The lambdas of
all sessions share one queue with the waits of the timer. None of them is lost, run twice or
overtaken, and each of them does one thing: it re-arms the timer or sends a report.
-/

namespace Session
open Asio

variable {Res Report : Type}

/-- The calls the handler of an outcome makes, if the session has a callback. -/
def Completion.reports (x : Exchange Res Report) : Completion Res → List Report
  | .read .success res shutdown => (HttpSession.answer x true res shutdown).1
  | a => if a.ec = .success then [] else [x.failure a.ec]

theorem Completion.reports_failed (x : Exchange Res Report) {a : Completion Res}
    (bad : a.ec ≠ .success) : a.reports x = [x.failure a.ec] := by
  unfold reports
  split
  · exact absurd rfl bad
  · exact if_neg bad

end Session

namespace OwlTagProcessor
open Asio Transition Session OwlGetImage OwlSendResult

/-- A step of a session calls back as its outcome says. -/
theorem reporting_reports {Res Report : Type} {x : Exchange Res Report}
    {s s' : HttpSession Report} {a : Completion Res} {reports : List Report}
    (callback : s.callback_ = true)
    (h : reporting s (HttpSession.step x s a) = some (s', reports)) : reports = a.reports x := by
  obtain ⟨hstep, clean, rfl⟩ := reporting_eq_some h
  cases HttpSession.step_handled hstep with
  | resolved now | connected now | written => simp [Completion.reports, Completion.ec]
  | failed _ _ bad => simp [HttpSession.fail, callback, Completion.reports_failed x bad]
  | read res shutdown =>
    cases hr : x.respond res with
    | error e => simp [HttpSession.onRead, hr] at clean
    | ok r =>
      cases hbad : HttpSession.badShutdown shutdown <;>
        simp [HttpSession.onRead, HttpSession.callBack, HttpSession.fail, hr, hbad, callback,
          Completion.reports, HttpSession.answer]

/-! ## The queue -/

/-- The lambdas an event of the program posts. -/
def ProgramEvent.posted (lib : Libraries) : ProgramEvent → List Handler
  | .get _ a => (a.reports (GetImageSession.exchange lib)).map .getDone
  | .send _ b => (b.reports SendResultSession.exchange).map .sendDone
  | _ => []

def Handler.isCompletion : Handler → Bool
  | .wait _ => false
  | _ => true

/-- The lambda whose run an entry of the history records. -/
def Entry.completion? : Entry → Option Handler
  | .getCompleted r _ => some (.getDone r)
  | .sendCompleted r _ => some (.sendDone r)
  | _ => none

/-- The lambdas that have run, oldest first. -/
abbrev State.finished {G S : Type} (s : State G S) : List Handler := s.select Entry.completion?

/-- After the events `es`: the lambdas that have run and those that wait, and what came of the
former. -/
structure Completes (lib : Libraries) (es : List ProgramEvent) (s : ProgramState) : Prop where
  order : es.flatMap (ProgramEvent.posted lib) =
    s.finished ++ s.ready.filter Handler.isCompletion
  effects : s.finished.length = s.rearms.length + s.sends.length

theorem started_completes (env : Env) (lib : Libraries) : Completes lib [] (started env) :=
  ⟨rfl, rfl⟩

section Step

variable {env : Env} {lib : Libraries} {s s' : ProgramState} {es : List ProgramEvent}
  {e : ProgramEvent}

/-- A step that neither posts nor runs a lambda. -/
theorem Completes.of_frame (inv : Completes lib es s) (quiet : e.posted lib = [])
    (completed : s'.finished = s.finished)
    (ready : s'.ready.filter Handler.isCompletion = s.ready.filter Handler.isCompletion)
    (rearms : s'.rearms = s.rearms) (sends : s'.sends.length = s.sends.length) :
    Completes lib (es ++ [e]) s' := by
  refine ⟨?_, ?_⟩
  · rw [completed, ready, ← inv.order]
    simp [quiet]
  · rw [completed, rearms, sends]
    exact inv.effects

/-- Running a lambda moves it from the head of the queue to the end of the history. -/
theorem Completes.run (inv : Completes lib es s) {h : Handler} {rest : List Handler}
    (hr : s.ready = h :: rest) (posted : h.isCompletion) (quiet : e.posted lib = [])
    (completed : s'.finished = s.finished ++ [h])
    (ready : s'.ready.filter Handler.isCompletion = rest.filter Handler.isCompletion)
    (effect : s'.rearms.length + s'.sends.length = s.rearms.length + s.sends.length + 1) :
    Completes lib (es ++ [e]) s' := by
  have order := inv.order
  rw [hr, List.filter_cons_of_pos posted] at order
  refine ⟨?_, ?_⟩
  · rw [completed, ready, List.flatMap_append, order]
    simp [quiet]
  · rw [completed, effect, ← inv.effects]
    simp

/-- Running a lambda that re-arms the timer. -/
theorem Completes.rearm (inv : Completes lib es s) {h : Handler} {rest : List Handler}
    {count : Nat} {entry : Entry} {t : SteadyTimer} (hr : s.ready = h :: rest)
    (he : entry.completion? = some h) (posted : h.isCompletion) (quiet : e.posted lib = []) :
    Completes lib (es ++ [e])
      (({ s with ready := rest, timeoutCount_ := count }.note entry).rearmed env t) := by
  have rearm : entry.rearm? = none := by
    cases entry <;> simp [Entry.completion?, Entry.rearm?] at he ⊢
  refine inv.run hr posted quiet ?_ ?_ ?_
  · rw [State.finished, State.select_rearmed, State.select_note, he]
    simp [State.select, Entry.completion?]
  · simp [Handler.isCompletion]
  · rw [State.rearms, State.select_rearmed, State.select_note, rearm]
    simp [State.select, Entry.rearm?]
    omega

theorem step_completes (sound : Sound s) (inv : Completes lib es s)
    (h : step env (Net.program lib) s e = some s') : Completes lib (es ++ [e]) s' := by
  cases step_stepped h with
  | start =>
    refine inv.of_frame rfl ?_ ?_ ?_ rfl
    · simp [start, State.select, Entry.completion?]
    · cases ht : s.timer_ <;> simp [start, ht, Handler.isCompletion]
    · simp [start, State.select, Entry.rearm?]
  | expire t ht waiting expired =>
    refine inv.of_frame rfl rfl ?_ rfl rfl
    simp [Handler.isCompletion]
  | abort ec rest hr failed =>
    refine inv.of_frame rfl ?_ ?_ ?_ rfl
    · simp [State.select, Entry.completion?]
    · simp [hr, Handler.isCompletion]
    · simp [State.select, Entry.rearm?]
  | fetch rest g hr hg =>
    refine inv.of_frame rfl ?_ ?_ ?_ rfl
    · simp [State.select, Entry.completion?]
    · simp [hr, Handler.isCompletion]
    · simp [State.select, Entry.rearm?]
  | send r rest o p hr hec hok himg ho hp =>
    refine inv.run hr rfl rfl ?_ rfl ?_
    · simp [State.select, Entry.completion?]
    · rw [State.rearms, State.select_note, State.select_note]
      simp [State.select, Entry.rearm?]
      omega
  | getRearm r rest branch count t hr hc himg ht => exact inv.rearm hr rfl rfl rfl
  | sendRearm r rest branch count t hr hc ht => exact inv.rearm hr rfl rfl rfl
  | flush ec =>
    exact inv.of_frame rfl (State.select_flush _ _ _ fun _ => rfl) rfl
      (State.select_flush _ _ _ fun _ => rfl) rfl
  | get i a g g' reports hg hstep =>
    have calls := reporting_reports (sound.gets g (List.mem_of_getElem? hg)).1 hstep
    refine ⟨?_, inv.effects⟩
    rw [List.flatMap_append, inv.order]
    simp [ProgramEvent.posted, calls, Handler.isCompletion, List.filter_map, Function.comp_def]
    rfl
  | sent i b p p' reports hp hstep =>
    have calls := reporting_reports (sound.sends p (List.mem_of_getElem? hp)).1 hstep
    refine ⟨?_, ?_⟩
    · rw [List.flatMap_append, inv.order]
      simp [ProgramEvent.posted, calls, Handler.isCompletion, List.filter_map, Function.comp_def]
      rfl
    · rw [List.length_set]
      exact inv.effects

end Step

/-- In every run the posted lambdas are run once, in the order of the callbacks, up to those
that wait in the queue; and each of them has re-armed the timer or sent a report. -/
theorem callbacks_are_completed_in_order (env : Env) (lib : Libraries) (es : List ProgramEvent)
    (s : ProgramState) (run : exec (step env (Net.program lib)) (started env) es = some s) :
    es.flatMap (ProgramEvent.posted lib) =
      s.finished ++ s.ready.filter Handler.isCompletion ∧
      s.finished.length = s.rearms.length + s.sends.length := by
  obtain ⟨-, order, effects⟩ : Sound s ∧ Completes lib es s :=
    exec_induction (P := fun fs u => Sound u ∧ Completes lib fs u)
      ⟨started_sound env, started_completes env lib⟩
      (fun _ _ _ _ _ inv last =>
        ⟨step_sound inv.1 last, step_completes inv.1 inv.2 last⟩) run
  exact ⟨order, effects⟩

/-- A frame whose session also reports a failed shutdown: of the two lambdas the first sends
the report, and the second re-arms the timer. -/
theorem two_callbacks_are_completed :
    let es : List ProgramEvent :=
      [.expire, .run, .get 0 (.resolved 0 .success), .get 0 (.connected 0 .success),
        .get 0 (.written .success),
        .get 0 (.read .success ⟨200, [(.contentType, "image/jpeg"), (.xImageFormat, "jpg")],
          [0xff, 0xd8]⟩ (.other 32)), .run, .run, .send 0 (.resolved 0 .timeout)]
    ∃ s, exec (step .sample (Net.program .sample)) (started .sample) es = some s ∧
      (s.rearms.length, s.sends.length) = (1, 1) ∧
      es.flatMap (ProgramEvent.posted .sample) =
        s.finished ++ s.ready.filter Handler.isCompletion ∧
      s.finished.length = s.rearms.length + s.sends.length := by
  intro es
  have effects : (exec (step .sample (Net.program .sample)) (started .sample) es).map
      (fun s => (s.rearms.length, s.sends.length)) = some (1, 1) := by decide +kernel
  obtain ⟨s, run, effects⟩ := Option.map_eq_some_iff.mp effects
  exact ⟨s, run, effects, callbacks_are_completed_in_order .sample .sample es s run⟩

end OwlTagProcessor
