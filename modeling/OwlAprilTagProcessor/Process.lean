import OwlAprilTagProcessor.TagProcessor.Faults

/-!
# The process

`main` gives the polling loop and the signals an `io_context` and a thread each, starts both
threads and joins them. A `ThreadCallee` keeps its context running with a work guard, so
`run` returns when the context is stopped or an exception leaves a handler; the exception is
caught, and the code the thread returns is read by nobody. The wait for a signal is started
once. Its handler stops both contexts on SIGINT and SIGTERM.
-/

namespace Process
open Asio Transition
open OwlTagProcessor (Env Net ProgramEvent ProgramState RaisedBy started)

/-! ## The model -/

/-- `ThreadCallee::operator()` is in `ioc.run()` or has returned. -/
inductive ThreadCallee where
  | running
  | returned (code : Int)
  deriving DecidableEq, Repr

inductive Signal where
  | SIGINT | SIGTERM
  | other (signum : Int)
  deriving DecidableEq, Repr

/-- `main` after the threads have been created; `loop` is what `ioc_Processor` works on. -/
structure State (σ : Type) where
  loop : σ
  processorStopped : Bool := false   -- `ioc_Processor.stopped()`
  keyboardStopped : Bool := false    -- `ioc_keyboard.stopped()`
  sigWaits : Bool := true            -- the wait of `sig` is outstanding
  processor : ThreadCallee := .running
  keyboard : ThreadCallee := .running
  exit : Option Int := none          -- what `main` returns

inductive Event (ε : Type) where
  | processor (e : ε)
  | signal (error : ErrorCode) (signum : Signal)
  | processorReturns
  | keyboardReturns
  | joined
  deriving DecidableEq, Repr

variable {σ ε : Type}

/-- The handler of `sig.async_wait`. It does not wait again. -/
def State.onSignal (error : ErrorCode) (signum : Signal) (p : State σ) : State σ :=
  if error.failed then p
  else match signum with
    | .SIGINT | .SIGTERM => { p with processorStopped := true, keyboardStopped := true }
    | .other _ => p

/-- One event of `ioc_Processor`. After an exception `interrupt_all` interrupts nobody: no
thread of the group is at an interruption point. -/
def State.runOne (step : σ → ε → Option σ) (raises : σ → ε → Option Exception)
    (p : State σ) (e : ε) : Option (State σ) :=
  match raises p.loop e with
  | some _ => some { p with processor := .returned (-1) }
  | none => (step p.loop e).map fun s => { p with loop := s }

/-- A thread runs handlers as long as its context is not stopped, and returns 0 then. A handler
is one event: `stop()` does not wait for the one in progress, which counts as finished before
the signal here. -/
def step (loopStep : σ → ε → Option σ) (raises : σ → ε → Option Exception) (p : State σ) :
    Event ε → Option (State σ)
  | .processor e =>
    if p.processor = .running ∧ p.processorStopped = false then p.runOne loopStep raises e
    else none
  | .signal error signum =>
    if p.keyboard = .running ∧ p.keyboardStopped = false ∧ p.sigWaits = true then
      some ({ p with sigWaits := false }.onSignal error signum)
    else none
  | .processorReturns =>
    if p.processor = .running ∧ p.processorStopped = true then
      some { p with processor := .returned 0 }
    else none
  | .keyboardReturns =>
    if p.keyboard = .running ∧ p.keyboardStopped = true then
      some { p with keyboard := .returned 0 }
    else none
  | .joined =>
    if p.processor ≠ .running ∧ p.keyboard ≠ .running ∧ p.exit = none then
      some { p with exit := some 0 }
    else none

/-- The process of the program. -/
abbrev programStep (env : Env) (lib : Libraries) :
    State ProgramState → Event ProgramEvent → Option (State ProgramState) :=
  step (OwlTagProcessor.step env (Net.program lib)) (OwlTagProcessor.raises env lib)

/-! ## What an event does -/

/-- The event of the loop. -/
def Event.loop? : Event ε → Option ε
  | .processor e => some e
  | _ => none

/-- The signal that stops the process. -/
def Event.Stops : Event ε → Prop
  | .signal error signum => error = .success ∧ (signum = .SIGINT ∨ signum = .SIGTERM)
  | _ => False

variable {loopStep : σ → ε → Option σ} {raises : σ → ε → Option Exception}

/-- The outcomes of a step, one constructor for each. -/
inductive Stepped (loopStep : σ → ε → Option σ) (raises : σ → ε → Option Exception)
    (p : State σ) : Event ε → State σ → Prop where
  | raised (e : ε) (x : Exception) : p.processor = .running → p.processorStopped = false →
      raises p.loop e = some x →
      Stepped loopStep raises p (.processor e) { p with processor := .returned (-1) }
  | handled (e : ε) (s : σ) : p.processor = .running → p.processorStopped = false →
      loopStep p.loop e = some s → Stepped loopStep raises p (.processor e) { p with loop := s }
  | stopped (signum : Signal) : p.keyboard = .running → p.keyboardStopped = false →
      p.sigWaits = true → signum = .SIGINT ∨ signum = .SIGTERM →
      Stepped loopStep raises p (.signal .success signum)
        { p with sigWaits := false, processorStopped := true, keyboardStopped := true }
  | ignored (error : ErrorCode) (signum : Signal) : p.keyboard = .running →
      p.keyboardStopped = false → p.sigWaits = true →
      ¬ (error = .success ∧ (signum = .SIGINT ∨ signum = .SIGTERM)) →
      Stepped loopStep raises p (.signal error signum) { p with sigWaits := false }
  | processorReturns : p.processor = .running → p.processorStopped = true →
      Stepped loopStep raises p .processorReturns { p with processor := .returned 0 }
  | keyboardReturns : p.keyboard = .running → p.keyboardStopped = true →
      Stepped loopStep raises p .keyboardReturns { p with keyboard := .returned 0 }
  | joined : p.processor ≠ .running → p.keyboard ≠ .running → p.exit = none →
      Stepped loopStep raises p .joined { p with exit := some 0 }

theorem step_stepped {p q : State σ} {e : Event ε} (h : step loopStep raises p e = some q) :
    Stepped loopStep raises p e q := by
  cases e with
  | processor e =>
    simp only [step, Option.ite_none_right_eq_some] at h
    obtain ⟨⟨running, going⟩, h⟩ := h
    cases hx : raises p.loop e with
    | some x =>
      simp only [State.runOne, hx, Option.some.injEq] at h
      exact h ▸ .raised e x running going hx
    | none =>
      simp only [State.runOne, hx, Option.map_eq_some_iff] at h
      obtain ⟨s, hs, rfl⟩ := h
      exact .handled e s running going hs
  | signal error signum =>
    simp only [step, Option.ite_none_right_eq_some, Option.some.injEq] at h
    obtain ⟨⟨running, going, waits⟩, rfl⟩ := h
    by_cases stops : error = .success ∧ (signum = .SIGINT ∨ signum = .SIGTERM)
    · obtain ⟨rfl, which⟩ := stops
      have same : { p with sigWaits := false }.onSignal .success signum =
          { p with sigWaits := false, processorStopped := true, keyboardStopped := true } := by
        rcases which with rfl | rfl <;> rfl
      exact same ▸ .stopped signum running going waits which
    · have same : { p with sigWaits := false }.onSignal error signum =
          { p with sigWaits := false } := by
        cases hec : error.failed
        · obtain rfl := ErrorCode.failed_eq_false.mp hec
          cases signum <;> simp_all [State.onSignal]
        · simp [State.onSignal, hec]
      rw [same]
      exact .ignored error signum running going waits stops
  | processorReturns =>
    simp only [step, Option.ite_none_right_eq_some, Option.some.injEq] at h
    obtain ⟨⟨running, stopped⟩, rfl⟩ := h
    exact .processorReturns running stopped
  | keyboardReturns =>
    simp only [step, Option.ite_none_right_eq_some, Option.some.injEq] at h
    obtain ⟨⟨running, stopped⟩, rfl⟩ := h
    exact .keyboardReturns running stopped
  | joined =>
    simp only [step, Option.ite_none_right_eq_some, Option.some.injEq] at h
    obtain ⟨⟨processor, keyboard, exit⟩, rfl⟩ := h
    exact .joined processor keyboard exit

/-! ## The run -/

/-- What is known of the process after the events `es`. -/
structure Ran (loopStep : σ → ε → Option σ) (raises : σ → ε → Option Exception) (init : σ)
    (es : List (Event ε)) (p : State σ) : Prop where
  loop : p.processor ≠ .returned (-1) →
    exec loopStep init (es.filterMap Event.loop?) = some p.loop
  raised : p.processor = .returned (-1) → ∃ before e x,
    es.filterMap Event.loop? = before ++ [e] ∧ exec loopStep init before = some p.loop ∧
      raises p.loop e = some x
  together : p.processorStopped = p.keyboardStopped
  stopped : p.keyboardStopped = true ↔ ∃ e ∈ es, e.Stops
  waits : p.keyboardStopped = true → p.sigWaits = false
  processor : p.processor = .running ∨ p.processor = .returned (-1) ∨
    p.processor = .returned 0 ∧ p.processorStopped = true
  keyboard : p.keyboard = .running ∨ p.keyboardStopped = true
  exit : p.exit = none ∨ p.exit = some 0 ∧ p.processor ≠ .running ∧ p.keyboard ≠ .running

theorem init_ran (init : σ) : Ran loopStep raises init [] { loop := init } := by
  constructor <;> simp

namespace Ran

variable {init : σ} {es : List (Event ε)} {e : Event ε} {p q : State σ}

/-- A context is stopped by the events so far or by the next one. -/
theorem stopped_concat (inv : Ran loopStep raises init es p) (e : Event ε) :
    (∃ e' ∈ es ++ [e], e'.Stops) ↔ p.keyboardStopped = true ∨ e.Stops := by
  rw [inv.stopped]
  simp [or_and_right, exists_or]

theorem loop_concat (es : List (Event ε)) (e : Event ε) :
    (es ++ [e]).filterMap Event.loop? = es.filterMap Event.loop? ++ e.loop?.toList := by
  cases h : e.loop? <;> simp [h]

/-- `main` has not returned while a thread runs. -/
theorem exit_none (inv : Ran loopStep raises init es p)
    (running : p.processor = .running ∨ p.keyboard = .running) : p.exit = none := by
  rcases inv.exit with none | ⟨-, processor, keyboard⟩
  · exact none
  · exact absurd running (by simp [processor, keyboard])

/-- A step that neither runs the loop nor stops a context. -/
theorem of_frame (inv : Ran loopStep raises init es p) (quiet : e.loop? = none) (other : ¬ e.Stops)
    (loop : q.loop = p.loop) (died : q.processor = .returned (-1) ↔ p.processor = .returned (-1))
    (contexts : q.processorStopped = p.processorStopped ∧ q.keyboardStopped = p.keyboardStopped)
    (waits : p.sigWaits = false → q.sigWaits = false)
    (processor : q.processor = .running ∨ q.processor = .returned (-1) ∨
      q.processor = .returned 0 ∧ q.processorStopped = true)
    (keyboard : q.keyboard = .running ∨ q.keyboardStopped = true)
    (exit : q.exit = none ∨ q.exit = some 0 ∧ q.processor ≠ .running ∧ q.keyboard ≠ .running) :
    Ran loopStep raises init (es ++ [e]) q := by
  obtain ⟨processorStopped, keyboardStopped⟩ := contexts
  have events : (es ++ [e]).filterMap Event.loop? = es.filterMap Event.loop? := by
    rw [loop_concat, quiet, Option.toList_none, List.append_nil]
  refine ⟨?_, ?_, ?_, ?_, ?_, processor, keyboard, exit⟩
  · rw [events, loop, ne_eq, died]
    exact inv.loop
  · rw [events, loop, died]
    exact inv.raised
  · rw [processorStopped, keyboardStopped]
    exact inv.together
  · rw [inv.stopped_concat, keyboardStopped, or_iff_left other]
  · rw [keyboardStopped]
    exact fun stopped => waits (inv.waits stopped)

end Ran

theorem step_ran {init : σ} {es : List (Event ε)} {e : Event ε} {p q : State σ}
    (inv : Ran loopStep raises init es p) (h : step loopStep raises p e = some q) :
    Ran loopStep raises init (es ++ [e]) q := by
  cases step_stepped h with
  | raised e x running going hx =>
    refine ⟨by simp, fun _ => ?_, inv.together, ?_, inv.waits, .inr (.inl rfl), inv.keyboard,
      .inl (inv.exit_none (.inl running))⟩
    · exact ⟨_, e, x, Ran.loop_concat .., inv.loop (by simp [running]), hx⟩
    · rw [inv.stopped_concat]
      simp [Event.Stops]
  | handled e s running going hs =>
    refine ⟨fun _ => ?_, ?_, inv.together, ?_, inv.waits, .inl running, inv.keyboard,
      .inl (inv.exit_none (.inl running))⟩
    · rw [Ran.loop_concat, exec_append, inv.loop (by simp [running])]
      simpa [Event.loop?] using hs
    · simp [running]
    · rw [inv.stopped_concat]
      simp [Event.Stops]
  | stopped signum running going waits which =>
    have stops : (Event.signal .success signum : Event ε).Stops := ⟨rfl, which⟩
    have events : (es ++ [Event.signal .success signum]).filterMap Event.loop? =
        es.filterMap Event.loop? := by
      rw [Ran.loop_concat]
      simp [Event.loop?]
    refine ⟨?_, ?_, rfl, ?_, fun _ => rfl, ?_, .inl running, .inl (inv.exit_none (.inr running))⟩
    · rw [events]
      exact inv.loop
    · rw [events]
      exact inv.raised
    · rw [inv.stopped_concat]
      simp [stops]
    · rcases inv.processor with processor | died | ⟨returned, -⟩
      · exact .inl processor
      · exact .inr (.inl died)
      · exact .inr (.inr ⟨returned, rfl⟩)
  | ignored error signum running going waits other =>
    exact inv.of_frame rfl other rfl .rfl ⟨rfl, rfl⟩ (fun _ => rfl) inv.processor inv.keyboard
      inv.exit
  | processorReturns running stopped =>
    exact inv.of_frame rfl (by simp [Event.Stops]) rfl (by simp [running]) ⟨rfl, rfl⟩ id
      (.inr (.inr ⟨rfl, stopped⟩)) inv.keyboard (.inl (inv.exit_none (.inl running)))
  | keyboardReturns running stopped =>
    exact inv.of_frame rfl (by simp [Event.Stops]) rfl .rfl ⟨rfl, rfl⟩ id inv.processor
      (.inr stopped) (.inl (inv.exit_none (.inr running)))
  | joined processor keyboard exit =>
    exact inv.of_frame rfl (by simp [Event.Stops]) rfl .rfl ⟨rfl, rfl⟩ id inv.processor
      inv.keyboard (.inr ⟨rfl, processor, keyboard⟩)

theorem exec_ran {init : σ} {es : List (Event ε)} {p : State σ}
    (run : exec (step loopStep raises) { loop := init } es = some p) :
    Ran loopStep raises init es p :=
  exec_induction (init_ran init) (fun _ _ _ _ _ inv h => step_ran inv h) run

/-- The returns of the two threads and of `main` that have not happened yet. -/
def State.pending (p : State σ) : Nat :=
  (if p.processor = .running then 1 else 0) + (if p.keyboard = .running then 1 else 0) +
    if p.exit = none then 1 else 0

/-- Once both contexts are stopped, a step is one of the pending returns. -/
theorem step_of_stopped {p q : State σ} {e : Event ε}
    (together : p.processorStopped = p.keyboardStopped) (stopped : p.keyboardStopped = true)
    (h : step loopStep raises p e = some q) :
    e.loop? = none ∧ q.pending + 1 = p.pending ∧ q.processorStopped = q.keyboardStopped ∧
      q.keyboardStopped = true := by
  cases step_stepped h <;> grind [State.pending, Event.loop?]

/-- Once both contexts are stopped, a pending return is possible. -/
theorem ended_of_stopped {p : State σ} (together : p.processorStopped = p.keyboardStopped)
    (stopped : p.keyboardStopped = true) (done : ∀ e, step loopStep raises p e = none) :
    p.exit ≠ none := by
  have processor := done .processorReturns
  have keyboard := done .keyboardReturns
  have joined := done .joined
  grind [step]

/-- After SIGINT or SIGTERM no further handler of the loop starts and at most three events remain.
`main` does not return before both threads have, and when nothing more can happen all of them
have returned, `main` with 0. -/
theorem a_stop_signal_ends_the_process (loopStep : σ → ε → Option σ)
    (raises : σ → ε → Option Exception) (init : σ) (before after : List (Event ε)) (e : Event ε)
    (stops : e.Stops) (p : State σ)
    (run : exec (step loopStep raises) { loop := init } (before ++ e :: after) = some p) :
    after.filterMap Event.loop? = [] ∧ after.length ≤ 3 ∧
      (p.exit ≠ none → p.processor ≠ .running ∧ p.keyboard ≠ .running) ∧
      ((∀ e, step loopStep raises p e = none) →
        p.processor ≠ .running ∧ p.keyboard ≠ .running ∧ p.exit = some 0) := by
  rw [List.append_cons] at run
  obtain ⟨q, first, second⟩ := exec_append_some run
  have stopped := exec_ran first
  have atOnce : q.keyboardStopped = true := stopped.stopped.mpr ⟨e, by simp, stops⟩
  obtain ⟨quiet, length, together, still⟩ : after.filterMap Event.loop? = [] ∧
      after.length + p.pending = q.pending ∧ p.processorStopped = p.keyboardStopped ∧
      p.keyboardStopped = true := by
    refine exec_induction (P := fun es u => es.filterMap Event.loop? = [] ∧
      es.length + u.pending = q.pending ∧ u.processorStopped = u.keyboardStopped ∧
      u.keyboardStopped = true) ⟨rfl, by simp, stopped.together, atOnce⟩ ?_ second
    rintro es u e' v - ⟨quiet, length, together, still⟩ last
    obtain ⟨other, one, together', still'⟩ := step_of_stopped together still last
    refine ⟨by simp [quiet, other], ?_, together', still'⟩
    rw [List.length_append, List.length_singleton]
    omega
  have joined := (exec_ran run).exit
  refine ⟨quiet, ?_, fun ended => (joined.resolve_left ended).2, ?_⟩
  · have three : q.pending ≤ 3 := by
      unfold State.pending
      split_ifs <;> omega
    omega
  · intro done
    obtain ⟨zero, processor, keyboard⟩ :=
      joined.resolve_left (ended_of_stopped together still done)
    exact ⟨processor, keyboard, zero⟩

/-- A signal during a fetch: both threads return, and then `main`. -/
theorem a_signal_during_a_fetch :
    let after : List (Event ProgramEvent) := [.keyboardReturns, .processorReturns, .joined]
    let es : List (Event ProgramEvent) :=
      [.processor .expire, .processor .run] ++ .signal .success .SIGINT :: after
    ∃ p, exec (programStep .sample .sample) { loop := started .sample } es = some p ∧
      p.loop.gets.length = 1 ∧ p.exit = some 0 ∧ after.filterMap Event.loop? = [] ∧
      after.length ≤ 3 ∧ p.processor ≠ .running ∧ p.keyboard ≠ .running := by
  intro after es
  have fetched : (exec (programStep .sample .sample) { loop := started .sample } es).map
      (fun p => (p.loop.gets.length, p.exit)) = some (1, some 0) := by decide +kernel
  obtain ⟨p, run, fetched⟩ := Option.map_eq_some_iff.mp fetched
  obtain ⟨fetched, ended⟩ := Prod.mk.inj fetched
  obtain ⟨quiet, short, joined, -⟩ := a_stop_signal_ends_the_process _ _ _
    [.processor .expire, .processor .run] after (.signal .success .SIGINT) ⟨rfl, .inl rfl⟩ p run
  exact ⟨p, run, fetched, ended, quiet, short, joined (by simp [ended])⟩

/-- An exception ends the processing thread. -/
theorem step_of_raised {p q : State σ} {e : ε} {x : Exception} (hx : raises p.loop e = some x)
    (h : step loopStep raises p (.processor e) = some q) :
    q.loop = p.loop ∧ q.processor = .returned (-1) := by
  simp only [step, State.runOne, hx, Option.ite_none_right_eq_some, Option.some.injEq] at h
  obtain ⟨-, rfl⟩ := h
  exact ⟨rfl, rfl⟩

/-- It is not started again: no event of the loop happens any more. -/
theorem step_of_died {p q : State σ} {e : Event ε} (died : p.processor = .returned (-1))
    (h : step loopStep raises p e = some q) :
    e.loop? = none ∧ q.loop = p.loop ∧ q.processor = .returned (-1) := by
  cases step_stepped h <;> grind [Event.loop?]

theorem exec_of_died {p q : State σ} {after : List (Event ε)}
    (died : p.processor = .returned (-1)) (run : exec (step loopStep raises) p after = some q) :
    after.filterMap Event.loop? = [] ∧ q.loop = p.loop ∧ q.processor = .returned (-1) := by
  refine exec_induction (P := fun es u => es.filterMap Event.loop? = [] ∧ u.loop = p.loop ∧
    u.processor = .returned (-1)) ⟨rfl, rfl, died⟩ ?_ run
  rintro es u e v - ⟨quiet, loop, still⟩ last
  obtain ⟨other, loop', still'⟩ := step_of_died still last
  exact ⟨by simp [quiet, other], loop'.trans loop, still'⟩

/-- `main` returns only after a stop signal and after both threads, and 0 even when the
processing thread has died. Whatever happens after an exception, no handler of the loop runs
again, the loop stays as it was and its thread stays ended; and until the signal `main` does not
return and the other thread goes on. -/
theorem only_a_stop_signal_ends_the_process (loopStep : σ → ε → Option σ)
    (raises : σ → ε → Option Exception) (init : σ) (es : List (Event ε)) (p : State σ)
    (run : exec (step loopStep raises) { loop := init } es = some p) :
    (∀ code, p.exit = some code → code = 0 ∧ p.processor ≠ .running ∧ p.keyboard ≠ .running ∧
      ∃ e ∈ es, e.Stops) ∧
    (∀ e x after q, raises p.loop e = some x →
      exec (step loopStep raises) p (.processor e :: after) = some q →
      after.filterMap Event.loop? = [] ∧ q.loop = p.loop ∧ q.processor = .returned (-1) ∧
      ((∀ e ∈ es ++ after, ¬ e.Stops) → q.exit = none ∧ q.keyboard = .running)) := by
  refine ⟨?_, ?_⟩
  · intro code exit
    have ran := exec_ran run
    rcases ran.exit with none | ⟨zero, processor, keyboard⟩
    · simp [none] at exit
    · exact ⟨by simpa [zero, eq_comm] using exit, processor, keyboard,
        ran.stopped.mp (ran.keyboard.resolve_left keyboard)⟩
  · intro e x after q hx further
    obtain ⟨u, first, rest⟩ := Option.bind_eq_some_iff.mp (exec_cons _ p _ after ▸ further)
    obtain ⟨same, died⟩ := step_of_raised hx first
    obtain ⟨quiet, loop, still⟩ := exec_of_died died rest
    refine ⟨quiet, loop.trans same, still, fun unstopped => ?_⟩
    have whole : exec (step loopStep raises) { loop := init } (es ++ .processor e :: after) =
        some q := by
      rw [exec_append, run]
      exact further
    have ran := exec_ran whole
    have keyboard : q.keyboard = .running := by
      by_contra returned
      obtain ⟨e', he', stops⟩ := ran.stopped.mp (ran.keyboard.resolve_left returned)
      rcases List.mem_append.mp he' with earlier | later
      · exact unstopped e' (List.mem_append_left _ earlier) stops
      · rcases List.mem_cons.mp later with rfl | later
        · exact stops
        · exact unstopped e' (List.mem_append_right _ later) stops
    exact ⟨ran.exit_none (.inr keyboard), keyboard⟩

/-- A response without headers, and a wait for the signal that fails: the loop is dead, the
process goes on. -/
theorem a_dead_loop_lingers :
    let es : List (Event ProgramEvent) :=
      [.processor .expire, .processor .run, .processor (.get 0 (.resolved 0 .success)),
        .processor (.get 0 (.connected 0 .success)), .processor (.get 0 (.written .success))]
    let e : ProgramEvent := .get 0 (.read .success ⟨200, [], []⟩ .success)
    let after : List (Event ProgramEvent) := [.signal .operationAborted .SIGINT]
    ∃ p q, exec (programStep .sample .sample) { loop := started .sample } es = some p ∧
      OwlTagProcessor.raises .sample .sample p.loop e = some .outOfRange ∧
      exec (programStep .sample .sample) p (.processor e :: after) = some q ∧
      q.loop = p.loop ∧ q.processor = .returned (-1) ∧ q.exit = none ∧ q.keyboard = .running := by
  intro es e after
  have raised : (exec (programStep .sample .sample) { loop := started .sample } es).map
      (fun p => (OwlTagProcessor.raises .sample .sample p.loop e,
        (exec (programStep .sample .sample) p (.processor e :: after)).isSome)) =
        some (some .outOfRange, true) := by decide +kernel
  obtain ⟨p, run, raised⟩ := Option.map_eq_some_iff.mp raised
  obtain ⟨raised, further⟩ := Prod.mk.inj raised
  obtain ⟨q, further⟩ := Option.isSome_iff_exists.mp further
  obtain ⟨-, loop, still, lingers⟩ :=
    (only_a_stop_signal_ends_the_process _ _ _ es p run).2 e _ after q raised further
  exact ⟨p, q, run, raised, further, loop, still, lingers (by simp [es, after, Event.Stops])⟩

/-! ## The program -/

/-- The processing thread runs the loop of the program: what it has done is a run of the loop,
up to the first exception, which ends it. -/
theorem the_process_runs_the_loop (env : Env) (lib : Libraries) (es : List (Event ProgramEvent))
    (p : State ProgramState)
    (run : exec (programStep env lib) { loop := started env } es = some p) :
    p.processor ≠ .returned (-1) ∧
        exec (OwlTagProcessor.step env (Net.program lib)) (started env)
          (es.filterMap Event.loop?) = some p.loop ∨
      p.processor = .returned (-1) ∧ ∃ before e x,
        es.filterMap Event.loop? = before ++ [e] ∧
        exec (OwlTagProcessor.step env (Net.program lib)) (started env) before = some p.loop ∧
        RaisedBy env lib p.loop e x := by
  have ran := exec_ran run
  by_cases died : p.processor = .returned (-1)
  · obtain ⟨before, e, x, events, loop, raised⟩ := ran.raised died
    refine .inr ⟨died, before, e, x, events, loop, ?_⟩
    exact (OwlTagProcessor.raises_iff env lib (OwlTagProcessor.exec_sound loop) e x).mp raised
  · exact .inl ⟨died, ran.loop died⟩

/-- A GET under way when the signal comes: the loop has made its two steps. -/
theorem a_stopped_process_has_run_the_loop :
    let es : List (Event ProgramEvent) :=
      [.processor .expire, .processor .run, .signal .success .SIGTERM, .processorReturns]
    ∃ p, exec (programStep .sample .sample) { loop := started .sample } es = some p ∧
      p.processor = .returned 0 ∧
      exec (OwlTagProcessor.step .sample (Net.program .sample)) (started .sample) [.expire, .run] =
        some p.loop := by
  intro es
  have stopped : (exec (programStep .sample .sample) { loop := started .sample } es).map
      (fun p => p.processor) = some (.returned 0) := by decide +kernel
  obtain ⟨p, run, stopped⟩ := Option.map_eq_some_iff.mp stopped
  refine ⟨p, run, stopped, ?_⟩
  rcases the_process_runs_the_loop .sample .sample es p run with ⟨-, ran⟩ | ⟨died, -⟩
  · exact ran
  · simp [stopped] at died

end Process
