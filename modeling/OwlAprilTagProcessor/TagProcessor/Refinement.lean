import OwlAprilTagProcessor.Session.Reports
import OwlAprilTagProcessor.TagProcessor.SingleFlight
import OwlAprilTagProcessor.TagProcessor.Survival

/-!
# The program refines the loop with counting sessions

`SingleFlight` and `Survives` speak of sessions that only count how often they have
called back. Here the sessions of the program are read as such counters: a step of one is
answered by as many counting steps as it makes calls. What may come of a shutdown decides
how often a session may call back, and so which of the two invariants the program keeps.
-/

namespace Session
open Asio Transition

variable {Res Report : Type}

/-- The shutdown after a response, if there is one, ends with a code that meets `A`. -/
def Completion.Shuts (A : ErrorCode → Prop) : Completion Res → Prop
  | .read .success _ shutdown => A shutdown
  | _ => True

theorem Completion.shuts_anyhow (e : Completion Res) : e.Shuts fun _ => True := by
  unfold Shuts
  split <;> trivial

namespace HttpSession

/-- A session of the running program: it has a callback and has raised no exception, and
its socket shut down as `A` says. -/
structure AtWork (x : Exchange Res Report) (A : ErrorCode → Prop)
    (s : HttpSession Report) : Prop where
  reached : ∃ s₀ es, s₀.Fresh ∧ (∀ e ∈ es, e.Shuts A) ∧ exec (step x) s₀ es = some s
  callback : s.callback_ = true
  clean : s.exception = none

namespace AtWork

variable {x : Exchange Res Report} {A : ErrorCode → Prop} {s t : HttpSession Report}
  {e : Completion Res}

theorem of_fresh (fresh : s.Fresh) (callback : s.callback_ = true) : AtWork x A s :=
  ⟨⟨s, [], fresh, by simp, rfl⟩, callback, fresh.exception⟩

theorem next (work : AtWork x A s) (shuts : e.Shuts A) (h : step x s e = some t)
    (clean : t.exception = none) : AtWork x A t := by
  obtain ⟨s₀, es, fresh, before, run⟩ := work.reached
  refine ⟨⟨s₀, es ++ [e], fresh, ?_, ?_⟩, (step_frame h).2.2.trans work.callback, clean⟩
  · grind
  · rw [exec_concat, run]
    exact h

/-- A session that has not called back yet has an operation outstanding. -/
theorem live (work : AtWork x A s) (silent : s.calls = []) : s.outstanding ≠ none := by
  obtain ⟨s₀, es, fresh, -, run⟩ := work.reached
  cases life fresh run with
  | running live => exact live
  | failed ec _ calls => simp [calls, work.callback] at silent
  | answered res shutdown _ answered =>
    rw [silent, work.clean, work.callback] at answered
    cases hr : x.respond res <;> cases hbad : badShutdown shutdown <;>
      simp [answer, hr, hbad] at answered

/-- Where every shutdown goes well, one call is all. -/
theorem calls_le_one (work : AtWork x (badShutdown · = false) s) : s.calls.length ≤ 1 := by
  obtain ⟨s₀, es, fresh, shuts, run⟩ := work.reached
  refine (calls_le_one_iff fresh run).mpr ?_
  rintro ⟨-, res, shutdown, member, -, bad⟩
  have good : badShutdown shutdown = false := shuts _ member
  simp [good] at bad

end AtWork

end HttpSession

end Session

namespace OwlTagProcessor
open Asio Session Transition OwlGetImage OwlSendResult

/-! ## The abstraction -/

/-- Every session read as the number of calls it has made. -/
def State.counted (s : ProgramState) : State Nat Nat :=
  { s with gets := s.gets.map (·.calls.length), sends := s.sends.map (·.calls.length) }

/-- All sessions of the program are at work. -/
structure State.AtWork (lib : Libraries) (A : ErrorCode → Prop) (s : ProgramState) : Prop where
  gets : ∀ g ∈ s.gets, HttpSession.AtWork (GetImageSession.exchange lib) A g
  sends : ∀ p ∈ s.sends, HttpSession.AtWork SendResultSession.exchange A p

def ProgramEvent.Shuts (A : ErrorCode → Prop) : ProgramEvent → Prop
  | .get _ a => a.Shuts A
  | .send _ b => b.Shuts A
  | _ => True

theorem ProgramEvent.shuts_anyhow (e : ProgramEvent) : ProgramEvent.Shuts (fun _ => True) e := by
  cases e with
  | get i a => exact a.shuts_anyhow
  | send i b => exact b.shuts_anyhow
  | _ => trivial

/-- One step of a session of the program, seen as reports of a counter. -/
theorem reporting_counts {Res Report : Type} {x : Exchange Res Report} {A : ErrorCode → Prop}
    {s s' : HttpSession Report} {e : Completion Res} {reports : List Report}
    (work : HttpSession.AtWork x A s) (shuts : e.Shuts A)
    (h : reporting s (HttpSession.step x s e) = some (s', reports)) :
    HttpSession.AtWork x A s' ∧ s'.calls.length = s.calls.length + reports.length := by
  obtain ⟨hstep, clean, rfl⟩ := reporting_eq_some h
  have grow := (HttpSession.step_calls hstep).length_le
  refine ⟨work.next shuts hstep clean, ?_⟩
  rw [List.length_drop]
  omega

section Reports

variable (env : Env) {may : Nat → Prop} [DecidablePred may] {s : State Nat Nat} {i n : Nat}

/-- A session that counts makes its reports one after the other. -/
theorem exec_get_reports {reports : List OwlGetImage.Report} (hn : s.gets[i]? = some n)
    (ok : ∀ k < n + reports.length, may k) :
    exec (step env (Net.reporting may)) s (reports.map (Event.get i)) = some
      { s with
        gets := s.gets.set i (n + reports.length)
        ready := s.ready ++ reports.map .getDone } := by
  obtain ⟨hi, made⟩ := List.getElem?_eq_some_iff.mp hn
  let after (before : List OwlGetImage.Report) : State Nat Nat :=
    { s with
      gets := s.gets.set i (n + before.length)
      ready := s.ready ++ before.map .getDone }
  have start : after [] = s := by simp [after, ← made]
  suffices run : exec (step env (Net.reporting may)) (after [])
      (reports.map (Event.get i)) = some (after reports) by
    rw [start] at run
    exact run
  refine exec_map _ _ after fun before r initial => ?_
  have shorter := initial.length_le
  rw [List.length_append, List.length_singleton] at shorter
  have allowed : may (n + before.length) := ok _ (by omega)
  simp [after, step, stepGet, Net.reporting, hi, allowed, Nat.add_assoc]

theorem exec_send_reports {reports : List OwlSendResult.Report} (hn : s.sends[i]? = some n)
    (ok : ∀ k < n + reports.length, may k) :
    exec (step env (Net.reporting may)) s (reports.map (Event.send i)) = some
      { s with
        sends := s.sends.set i (n + reports.length)
        ready := s.ready ++ reports.map .sendDone } := by
  obtain ⟨hi, made⟩ := List.getElem?_eq_some_iff.mp hn
  let after (before : List OwlSendResult.Report) : State Nat Nat :=
    { s with
      sends := s.sends.set i (n + before.length)
      ready := s.ready ++ before.map .sendDone }
  have start : after [] = s := by simp [after, ← made]
  suffices run : exec (step env (Net.reporting may)) (after [])
      (reports.map (Event.send i)) = some (after reports) by
    rw [start] at run
    exact run
  refine exec_map _ _ after fun before r initial => ?_
  have shorter := initial.length_le
  rw [List.length_append, List.length_singleton] at shorter
  have allowed : may (n + before.length) := ok _ (by omega)
  simp [after, step, stepSend, Net.reporting, hi, allowed, Nat.add_assoc]

end Reports

/-! ## The refinement -/

/-- What a session at work may have done, a counter may do. -/
structure Net.Allows (lib : Libraries) (A : ErrorCode → Prop) (may : Nat → Prop) : Prop where
  get : ∀ g, HttpSession.AtWork (GetImageSession.exchange lib) A g →
    ∀ k < g.calls.length, may k
  send : ∀ p, HttpSession.AtWork SendResultSession.exchange A p → ∀ k < p.calls.length, may k

/-- Where every shutdown goes well, every session calls back at most once. -/
theorem Net.allows_once (lib : Libraries) :
    Net.Allows lib (HttpSession.badShutdown · = false) (· = 0) := by
  constructor
  · intro g work k hk
    have atMost := work.calls_le_one
    omega
  · intro p work k hk
    have atMost := work.calls_le_one
    omega

theorem get_atWork {lib : Libraries} {A : ErrorCode → Prop} {req : GetRequest}
    {g : GetImageSession} (h : (Net.program lib).get req = some g) :
    HttpSession.AtWork (GetImageSession.exchange lib) A g ∧ g.calls = [] := by
  obtain rfl := Option.some.inj h
  exact ⟨.of_fresh (GetImage.get_fresh _ _ _ _ _ _) rfl, rfl⟩

theorem send_atWork {lib : Libraries} {A : ErrorCode → Prop} {req : SendRequest}
    {p : SendResultSession} (h : (Net.program lib).send req = some p) :
    HttpSession.AtWork SendResultSession.exchange A p ∧ p.calls = [] := by
  simp only [Net.program, Option.ite_none_left_eq_some, Option.some.injEq] at h
  obtain ⟨clean, rfl⟩ := h
  cases parsed : lib.url req.target with
  | none => simp [SendResult.send, SendResultSession.run, parsed] at clean
  | some url =>
    have fresh := SendResult.send_fresh parsed req.timeoutMs req.host req.port req.version
      req.data true
    exact ⟨.of_fresh fresh (SendResult.send_callback _ _ _ _ _ _ _ _), fresh.calls⟩

/-- One step of the program is answered by the counting loop: by the same step, and a step
of a session by its reports. -/
theorem step_refines {env : Env} {lib : Libraries} {A : ErrorCode → Prop} {may : Nat → Prop}
    [DecidablePred may] (allows : Net.Allows lib A may) {s s' : ProgramState}
    {e : ProgramEvent} (shuts : e.Shuts A) (once : e ≠ .start) (work : s.AtWork lib A)
    (h : step env (Net.program lib) s e = some s') :
    s'.AtWork lib A ∧
      Reaches (step env (Net.reporting may)) (· ≠ .start) s.counted s'.counted := by
  have answer (d : Event OwlGetImage.Report OwlSendResult.Report) (other : d ≠ .start)
      (one : Stepped env (Net.reporting may) s.counted d s'.counted) :
      Reaches (step env (Net.reporting may)) (· ≠ .start) s.counted s'.counted :=
    .single other (step_of_stepped one)
  cases step_stepped h with
  | start => exact absurd rfl once
  | expire t ht waiting expired =>
    exact ⟨⟨work.gets, work.sends⟩,
      answer .expire (by simp) (.expire (s := s.counted) t ht waiting expired)⟩
  | abort ec rest hr failed =>
    exact ⟨⟨work.gets, work.sends⟩,
      answer .run (by simp) (.abort (s := s.counted) ec rest hr failed)⟩
  | fetch rest g hr hg =>
    obtain ⟨fresh, calls⟩ := get_atWork (A := A) hg
    refine ⟨⟨?_, work.sends⟩, answer .run (by simp) ?_⟩
    · exact List.forall_mem_append.mpr ⟨work.gets, List.forall_mem_singleton.mpr fresh⟩
    · have one : Stepped env (Net.reporting may) s.counted .run _ := .fetch rest 0 hr rfl
      simpa [State.counted, State.note, calls] using one
  | send r rest o p hr hec hok himg ho hp =>
    obtain ⟨fresh, calls⟩ := send_atWork (A := A) hp
    refine ⟨⟨work.gets, ?_⟩, answer .run (by simp) ?_⟩
    · exact List.forall_mem_append.mpr ⟨work.sends, List.forall_mem_singleton.mpr fresh⟩
    · have one : Stepped env (Net.reporting may) s.counted .run _ :=
        .send r rest o 0 hr hec hok himg ho rfl
      simpa [State.counted, State.note, calls] using one
  | getRearm r rest branch count t hr hc himg ht =>
    exact ⟨⟨work.gets, work.sends⟩,
      answer .run (by simp) (.getRearm (s := s.counted) r rest branch count t hr hc himg ht)⟩
  | sendRearm r rest branch count t hr hc ht =>
    exact ⟨⟨work.gets, work.sends⟩,
      answer .run (by simp) (.sendRearm (s := s.counted) r rest branch count t hr hc ht)⟩
  | flush ec =>
    exact ⟨⟨work.gets, work.sends⟩, answer (.flush ec) (by simp) (.flush (s := s.counted) ec)⟩
  | get i a g g' reports hg hstep =>
    have before := work.gets g (List.mem_of_getElem? hg)
    obtain ⟨after, calls⟩ := reporting_counts before shuts hstep
    refine ⟨⟨?_, work.sends⟩, reports.map (Event.get i), by simp, ?_⟩
    · grind [work.gets]
    · have listed : s.counted.gets[i]? = some g.calls.length := by
        simp [State.counted, hg]
      have ran := exec_get_reports env listed (calls ▸ allows.get g' after)
      simpa [State.counted, List.map_set, calls] using ran
  | sent i b p p' reports hp hstep =>
    have before := work.sends p (List.mem_of_getElem? hp)
    obtain ⟨after, calls⟩ := reporting_counts before shuts hstep
    refine ⟨⟨work.gets, ?_⟩, reports.map (Event.send i), by simp, ?_⟩
    · grind [work.sends]
    · have listed : s.counted.sends[i]? = some p.calls.length := by
        simp [State.counted, hp]
      have ran := exec_send_reports env listed (calls ▸ allows.send p' after)
      simpa [State.counted, List.map_set, calls] using ran

theorem program_refines {env : Env} {lib : Libraries} {A : ErrorCode → Prop}
    {may : Nat → Prop} [DecidablePred may] (allows : Net.Allows lib A may) {s : ProgramState}
    {es : List ProgramEvent} (shuts : ∀ e ∈ es, ProgramEvent.Shuts A e) (once : .start ∉ es)
    (run : exec (step env (Net.program lib)) (started env) es = some s) :
    s.AtWork lib A ∧
      Reaches (step env (Net.reporting may)) (· ≠ .start) (started env) s.counted := by
  have init : (started env : ProgramState).AtWork lib A :=
    ⟨by simp [started, start], by simp [started, start]⟩
  refine exec_refines State.counted (fun e => ProgramEvent.Shuts A e ∧ e ≠ .start) _
    (fun _ _ _ ok work h => step_refines allows ok.1 ok.2 work h) init ?_ run
  exact fun e he => ⟨shuts e he, by rintro rfl; exact once he⟩

/-! ## What the program keeps -/

/-- Whatever the sessions do, the loop does not run dry: a wait is pending, a handler that
carries it on is queued, or a session has an operation outstanding. -/
theorem program_goes_on (env : Env) (lib : Libraries) (es : List ProgramEvent)
    (s : ProgramState) (once : .start ∉ es)
    (run : exec (step env (Net.program lib)) (started env) es = some s) :
    0 < s.pendingWaits ∨ (∃ h ∈ s.ready, h.isLive) ∨
      (∃ g ∈ s.gets, g.outstanding ≠ none) ∨ ∃ p ∈ s.sends, p.outstanding ≠ none := by
  have allows : Net.Allows lib (fun _ => True) fun _ => True :=
    ⟨fun _ _ _ _ => trivial, fun _ _ _ _ => trivial⟩
  obtain ⟨work, ds, -, counts⟩ :=
    program_refines allows (fun e _ => e.shuts_anyhow) once run
  rcases State.activity (exec_survives counts).alive with wait | handler | zero | zero
  · exact .inl wait
  · exact .inr (.inl handler)
  · obtain ⟨g, hg, calls⟩ := List.mem_map.mp zero
    exact .inr (.inr (.inl ⟨g, hg, (work.gets g hg).live (List.length_eq_zero_iff.mp calls)⟩))
  · obtain ⟨p, hp, calls⟩ := List.mem_map.mp zero
    exact .inr (.inr (.inr ⟨p, hp, (work.sends p hp).live (List.length_eq_zero_iff.mp calls)⟩))

/-- Where every shutdown goes well, the program has exactly one activity. -/
theorem program_is_single_flight (env : Env) (lib : Libraries) (es : List ProgramEvent)
    (s : ProgramState) (once : .start ∉ es)
    (shuts : ∀ e ∈ es, ProgramEvent.Shuts (HttpSession.badShutdown · = false) e)
    (run : exec (step env (Net.program lib)) (started env) es = some s) :
    SingleFlight env s.counted := by
  obtain ⟨-, ds, others, counts⟩ := program_refines (Net.allows_once lib) shuts once run
  exact exec_singleFlight (fun member => others _ member rfl) counts

end OwlTagProcessor
