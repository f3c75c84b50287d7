import OwlAprilTagProcessor.TagProcessor.Refinement

/-!
# The program as a poller

What the loop is for: it fetches an image, reports on it if it is a frame, and waits for the
next cycle. That poller is an automaton of three phases. Where every shutdown goes well, the
requests and cycles of the program are a run of it, and the phase it is in says which session
may still be at work. So the program never has two requests under way.
-/

namespace Poller
open Transition

inductive Phase where
  | waiting | fetching | reporting
  deriving DecidableEq, Repr

inductive Move where
  | get | post | cycle
  deriving DecidableEq, Repr

/-- A cycle ends after the GET when there is nothing to report, and else after the POST. -/
def step : Phase → Move → Option Phase
  | .waiting, .get => some .fetching
  | .fetching, .post => some .reporting
  | .fetching, .cycle | .reporting, .cycle => some .waiting
  | _, _ => none

/-- Every GET but the one under way has ended its cycle, and none has been reported twice. -/
theorem counts {ms : List Move} {ph : Phase} (run : exec step .waiting ms = some ph) :
    ms.count .get = ms.count .cycle + (if ph = .waiting then 0 else 1) ∧
      ms.count .post ≤ ms.count .cycle + (if ph = .reporting then 1 else 0) := by
  refine exec_induction (P := fun ms ph =>
    ms.count .get = ms.count .cycle + (if ph = .waiting then 0 else 1) ∧
      ms.count .post ≤ ms.count .cycle + (if ph = .reporting then 1 else 0)) (by simp) ?_ run
  rintro ms ph m ph' - ⟨gets, posts⟩ last
  cases ph <;> cases m <;> simp only [step, Option.some.injEq, reduceCtorEq] at last <;>
    subst last <;> simp [List.count_append] at gets posts ⊢ <;> omega

end Poller

namespace OwlTagProcessor
open Asio Transition Session OwlGetImage OwlSendResult Poller

/-- The move an entry of the history makes. -/
def Entry.move? : Entry → Option Move
  | .get _ => some .get
  | .post _ => some .post
  | .rearmed _ => some .cycle
  | _ => none

/-- Which sessions have not called back or have a completion that waits to run. -/
def State.In (s : State Nat Nat) : Phase → Prop
  | .waiting => s.fetching + s.fetched = 0 ∧ s.sending + s.sent = 0
  | .fetching => s.fetching + s.fetched = 1 ∧ s.sending + s.sent = 0
  | .reporting => s.fetching + s.fetched = 0 ∧ s.sending + s.sent = 1

theorem State.In.bounds {s : State Nat Nat} {ph : Phase} (at_ : s.In ph) :
    s.fetching ≤ (if ph = .fetching then 1 else 0) ∧
      s.sending ≤ (if ph = .reporting then 1 else 0) := by
  cases ph <;> simp only [State.In] at at_ <;> simp <;> omega

/-- The requests and cycles so far are a run of the poller. -/
def Polls (s : State Nat Nat) : Prop :=
  ∃ ph, exec Poller.step .waiting (s.select Entry.move?) = some ph ∧ s.In ph

namespace Polls

variable {env : Env} {s s' : State Nat Nat}

/-- A step that makes no move. -/
theorem of_frame (inv : Polls s) (moves : s'.select Entry.move? = s.select Entry.move?)
    (gets : s'.fetching + s'.fetched = s.fetching + s.fetched)
    (sends : s'.sending + s'.sent = s.sending + s.sent) : Polls s' := by
  obtain ⟨ph, run, at_⟩ := inv
  refine ⟨ph, by rw [moves]; exact run, ?_⟩
  cases ph <;> simpa only [State.In, gets, sends] using at_

/-- A step that makes the move `m` from the phase `ph`. -/
theorem move (inv : Polls s) {ph ph' : Phase} {m : Move} (next : Poller.step ph m = some ph')
    (at_ : ∀ ph'', s.In ph'' → ph'' = ph)
    (moves : s'.select Entry.move? = s.select Entry.move? ++ [m]) (after : s'.In ph') :
    Polls s' := by
  obtain ⟨ph'', run, before⟩ := inv
  obtain rfl := at_ ph'' before
  refine ⟨ph', ?_, after⟩
  rw [moves, exec_concat, run]
  exact next

end Polls

theorem started_polls (env : Env) : Polls (started env) :=
  ⟨.waiting, rfl, by simp [State.In, State.fetching, State.fetched, State.sending, State.sent,
    started, start]⟩

/-- What the first ready handler adds to the posted completions. -/
theorem posted_cons {s : State Nat Nat} {h : Handler} {rest : List Handler}
    (hr : s.ready = h :: rest) :
    s.fetched = rest.countP Handler.isGetDone + h.isGetDone.toNat ∧
      s.sent = rest.countP Handler.isSendDone + h.isSendDone.toNat := by
  rw [State.fetched, State.sent, hr, List.countP_cons, List.countP_cons]
  cases h.isGetDone <;> cases h.isSendDone <;> simp

/-- A completion of a GET runs in the fetching phase, where nothing else is under way. -/
theorem SingleFlight.fetching {env : Env} {s : State Nat Nat} (single : SingleFlight env s)
    {r : OwlGetImage.Report} {rest : List Handler} (hr : s.ready = .getDone r :: rest) :
    s.fetching = 0 ∧ rest.countP Handler.isGetDone = 0 ∧ s.sending = 0 ∧
      rest.countP Handler.isSendDone = 0 ∧ ∀ ph, s.In ph → ph = .fetching := by
  have one := single.one
  obtain ⟨fetched, sent⟩ := posted_cons hr
  simp only [Handler.isGetDone, Handler.isSendDone, Bool.toNat_true, Bool.toNat_false]
    at fetched sent
  rw [State.activities] at one
  refine ⟨by omega, by omega, by omega, by omega, fun ph at_ => ?_⟩
  cases ph with
  | waiting | reporting => simp only [State.In] at at_; omega
  | fetching => rfl

/-- A completion of a POST runs in the reporting phase, where nothing else is under way. -/
theorem SingleFlight.reporting {env : Env} {s : State Nat Nat} (single : SingleFlight env s)
    {r : OwlSendResult.Report} {rest : List Handler} (hr : s.ready = .sendDone r :: rest) :
    s.fetching = 0 ∧ rest.countP Handler.isGetDone = 0 ∧ s.sending = 0 ∧
      rest.countP Handler.isSendDone = 0 ∧ ∀ ph, s.In ph → ph = .reporting := by
  have one := single.one
  obtain ⟨fetched, sent⟩ := posted_cons hr
  simp only [Handler.isGetDone, Handler.isSendDone, Bool.toNat_true, Bool.toNat_false]
    at fetched sent
  rw [State.activities] at one
  refine ⟨by omega, by omega, by omega, by omega, fun ph at_ => ?_⟩
  cases ph with
  | waiting | fetching => simp only [State.In] at at_; omega
  | reporting => rfl

/-- A completion that re-arms the timer ends the cycle. -/
theorem Polls.cycle {env : Env} {s : State Nat Nat} (inv : Polls s) {ph : Phase}
    {rest : List Handler}
    {count : Nat} {e : Entry} {t : SteadyTimer} (next : Poller.step ph .cycle = some .waiting)
    (at_ : ∀ ph', s.In ph' → ph' = ph) (he : e.move? = none)
    (quiet : s.fetching = 0 ∧ rest.countP Handler.isGetDone = 0 ∧ s.sending = 0 ∧
      rest.countP Handler.isSendDone = 0) :
    Polls (({ s with ready := rest, timeoutCount_ := count }.note e).rearmed env t) := by
  obtain ⟨fetching, fetched, sending, sent⟩ := quiet
  refine inv.move next at_ ?_ ?_
  · rw [State.select_rearmed, State.select_note, he]
    simp [State.select, Entry.move?]
  · simp only [State.In, State.fetching, State.fetched, State.sending, State.sent]
      at fetching sending ⊢
    simp [fetching, fetched, sending, sent, getDone_replicate_wait, sendDone_replicate_wait]

theorem step_polls {env : Env} {s s' : State Nat Nat}
    {e : Event OwlGetImage.Report OwlSendResult.Report} (once : e ≠ .start)
    (single : SingleFlight env s) (inv : Polls s) (h : step env Net.once s e = some s') :
    Polls s' := by
  cases step_stepped h with
  | start => exact absurd rfl once
  | expire t ht waiting expired =>
    refine inv.of_frame rfl ?_ ?_
    · simp [State.fetching, State.fetched, getDone_replicate_wait]
    · simp [State.sending, State.sent, sendDone_replicate_wait]
  | abort ec rest hr failed => exact absurd (single.succeed ec (by simp [hr])) failed
  | fetch rest g hr hg =>
    obtain rfl := Net.reporting_get hg
    obtain ⟨fetched, sent⟩ := posted_cons hr
    -- the wait that succeeded is the one activity
    have one := single.one
    have wait : 0 < s.ready.count (.wait .success) := by simp [hr]
    rw [State.activities, State.waiting] at one
    refine inv.move (show Poller.step .waiting .get = some .fetching from rfl) ?_ ?_ ?_
    · intro ph at_
      cases ph with
      | waiting => rfl
      | fetching | reporting => simp only [State.In] at at_; omega
    · simp [State.select, Entry.move?]
    · simp only [Handler.isGetDone, Handler.isSendDone, Bool.toNat_false] at fetched sent
      simp only [State.In, State.fetching, State.fetched, State.sending, State.sent]
        at one fetched sent ⊢
      simp only [State.note_gets, State.note_sends, State.note_ready, List.count_append,
        List.count_singleton_self]
      omega
  | send r rest o p hr hec hok himg ho hp =>
    obtain rfl := Net.reporting_send hp
    obtain ⟨fetching, fetched, sending, sent, at_⟩ := single.fetching hr
    refine inv.move (show Poller.step .fetching .post = some .reporting from rfl) at_ ?_ ?_
    · rw [State.select_note, State.select_note]
      simp [State.select, Entry.move?]
    · simp only [State.In, State.fetching, State.fetched, State.sending, State.sent]
        at fetching sending ⊢
      simp [fetching, fetched, sending, sent]
  | getRearm r rest branch count t hr hc himg ht =>
    obtain ⟨fetching, fetched, sending, sent, at_⟩ := single.fetching hr
    exact inv.cycle rfl at_ rfl ⟨fetching, fetched, sending, sent⟩
  | sendRearm r rest branch count t hr hc ht =>
    obtain ⟨fetching, fetched, sending, sent, at_⟩ := single.reporting hr
    exact inv.cycle rfl at_ rfl ⟨fetching, fetched, sending, sent⟩
  | flush ec => exact inv.of_frame (State.select_flush _ _ _ fun _ => rfl) rfl rfl
  | get i n g g' reports hg hstep =>
    obtain ⟨rfl, rfl, rfl⟩ := Net.reporting_getStep hstep
    have running := count_set_first hg
    refine inv.of_frame rfl ?_ ?_
    · simp only [State.fetching, State.fetched, List.countP_append, List.map_cons, List.map_nil,
        List.countP_singleton, Handler.isGetDone, if_true, Nat.zero_add]
      omega
    · simp [State.sending, State.sent, Handler.isSendDone]
  | sent i n p p' reports hp hstep =>
    obtain ⟨rfl, rfl, rfl⟩ := Net.reporting_sendStep hstep
    have running := count_set_first hp
    refine inv.of_frame rfl ?_ ?_
    · simp [State.fetching, State.fetched, Handler.isGetDone]
    · simp only [State.sending, State.sent, List.countP_append, List.map_cons, List.map_nil,
        List.countP_singleton, Handler.isSendDone, if_true, Nat.zero_add]
      omega

/-! ## The program -/

/-- A session of the program has an operation outstanding until it calls back. -/
theorem outstanding_eq_none_iff {Res Report : Type} {x : Exchange Res Report}
    {A : ErrorCode → Prop} {s : HttpSession Report} (work : HttpSession.AtWork x A s) :
    s.outstanding = none ↔ s.calls ≠ [] := by
  constructor
  · intro done silent
    exact work.live silent done
  · intro reported
    obtain ⟨s₀, es, fresh, -, run⟩ := work.reached
    cases HttpSession.life fresh run with
    | running live silent => exact absurd silent reported
    | failed ec done => exact done
    | answered res shutdown done => exact done

theorem countP_outstanding {Res Report : Type} {x : Exchange Res Report} {A : ErrorCode → Prop}
    {l : List (HttpSession Report)} (work : ∀ s ∈ l, HttpSession.AtWork x A s) :
    l.countP (fun s => s.outstanding.isSome) = (l.map (·.calls.length)).count 0 := by
  rw [List.count, List.countP_map]
  refine List.countP_congr fun s hs => ?_
  have silent := outstanding_eq_none_iff (work s hs)
  cases hop : s.outstanding <;> cases hc : s.calls <;> simp_all

/-- Where every shutdown goes well, the requests and cycles of the program are a run of the
poller: every GET but the last has ended its cycle, with at most one POST before that. At most
one session has an operation outstanding, a GET only in the fetching phase and a POST only in
the reporting phase. -/
theorem program_refines_the_poller (env : Env) (lib : Libraries) (es : List ProgramEvent)
    (s : ProgramState) (once : .start ∉ es)
    (shuts : ∀ e ∈ es, ProgramEvent.Shuts (HttpSession.badShutdown · = false) e)
    (run : exec (step env (Net.program lib)) (started env) es = some s) :
    let moves := s.select Entry.move?
    ∃ ph, exec Poller.step .waiting moves = some ph ∧
      (moves.count .get = moves.count .cycle + (if ph = .waiting then 0 else 1) ∧
        moves.count .post ≤ moves.count .cycle + (if ph = .reporting then 1 else 0)) ∧
      s.gets.countP (fun g => g.outstanding.isSome) ≤ (if ph = .fetching then 1 else 0) ∧
      s.sends.countP (fun p => p.outstanding.isSome) ≤ (if ph = .reporting then 1 else 0) := by
  obtain ⟨work, ds, others, counted⟩ := program_refines (Net.allows_once lib) shuts once run
  obtain ⟨-, ph, moves, at_⟩ : SingleFlight env s.counted ∧ Polls s.counted :=
    exec_invariant (I := fun u => SingleFlight env u ∧ Polls u) (· ≠ .start)
      (fun _ _ _ ok inv h => ⟨step_singleFlight ok inv.1 h, step_polls ok inv.1 inv.2 h⟩)
      ⟨started_singleFlight env, started_polls env⟩ others counted
  refine ⟨ph, moves, Poller.counts moves, ?_, ?_⟩
  · rw [countP_outstanding work.gets]
    exact at_.bounds.1
  · rw [countP_outstanding work.sends]
    exact at_.bounds.2

/-- A frame and its report, and the next GET on its way. -/
theorem a_cycle_of_the_poller :
    let es : List ProgramEvent :=
      [.expire, .run, .get 0 (.resolved 0 .success), .get 0 (.connected 0 .success),
        .get 0 (.written .success),
        .get 0 (.read .success ⟨200, [(.contentType, "image/jpeg"), (.xImageFormat, "jpg")],
          [0xff, 0xd8]⟩ .success), .run,
        .send 0 (.resolved 0 .timeout), .run, .expire, .run]
    ∃ s, exec (step .sample (Net.program .sample)) (started .sample) es = some s ∧
      s.select Entry.move? = [.get, .post, .cycle, .get] ∧
      ∃ ph, exec Poller.step .waiting (s.select Entry.move?) = some ph ∧
        s.gets.countP (fun g => g.outstanding.isSome) ≤ (if ph = .fetching then 1 else 0) := by
  intro es
  have moves : (exec (step .sample (Net.program .sample)) (started .sample) es).map
      (fun s => s.select Entry.move?) = some [.get, .post, .cycle, .get] := by decide +kernel
  obtain ⟨s, run, moves⟩ := Option.map_eq_some_iff.mp moves
  obtain ⟨ph, polls, -, gets, -⟩ := program_refines_the_poller .sample .sample es s
    (by simp [es]) (by simp [es, ProgramEvent.Shuts, Completion.Shuts, HttpSession.badShutdown]) run
  exact ⟨s, run, moves, ph, polls, gets⟩

end OwlTagProcessor
