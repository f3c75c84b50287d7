import OwlAprilTagProcessor.Session.Reports
import OwlAprilTagProcessor.TagProcessor.Correspondence

/-!
# The exceptions of the loop

An event that is refused either cannot happen, or an exception leaves its handler. Here the
two are told apart: `raises` is the exception, and on the reachable states it says exactly
which events an exception leaves. No handler of the program meets an empty callback or a
null timer.
-/

namespace OwlTagProcessor
open Asio Transition OwlGetImage OwlSendResult Session

/-! ## Raising -/

/-- The exception that leaves `to_analysis_april_tag`: from the analysis, or from the `run`
of the session that `send` starts. -/
def Env.analysisRaises (env : Env) (lib : Libraries) (img : Mat) : Option Exception :=
  match env.analysis img with
  | .error x => some x
  | .ok o =>
    let req := env.sendRequest (env.resultType o)
    (SendResult.send lib req.timeoutMs req.host req.port req.target req.version req.data
      true).exception

/-- The exception that leaves the handler of an event. -/
def raises (env : Env) (lib : Libraries) (s : ProgramState) : ProgramEvent → Option Exception
  | .run =>
    match s.ready with
    | .getDone r :: _ =>
      let (branch, _) := complete env.timeoutCountLimit_ s.timeoutCount_ r.ec r.ok
      if branch = .proceed ∧ r.img.empty = false then env.analysisRaises lib r.img else none
    | _ => none
  | .get i a => (s.gets[i]?.bind fun g => GetImageSession.step lib g a).bind (·.exception)
  | .send i b => (s.sends[i]?.bind fun p => SendResultSession.step p b).bind (·.exception)
  | _ => none

/-- The handler of an event has been invoked: the timer has expired, a handler is ready, or
the operation of a session completes. -/
def enabled (env : Env) (lib : Libraries) (s : ProgramState) : ProgramEvent → Prop
  | .expire => ∃ t, s.timer_ = some t ∧ 0 < t.waits ∧ t.expiry ≤ env.clock.now s.reads
  | .run => s.ready ≠ []
  | .get i a => ∃ g, s.gets[i]? = some g ∧ (GetImageSession.step lib g a).isSome
  | .send i b => ∃ p, s.sends[i]? = some p ∧ (SendResultSession.step p b).isSome
  | _ => True

/-! ## The reachable states -/

/-- The timer exists, and every session has a callback and has raised nothing. -/
structure Sound (s : ProgramState) : Prop where
  timer : s.timer_ ≠ none
  gets : ∀ g ∈ s.gets, g.callback_ = true ∧ g.exception = none
  sends : ∀ p ∈ s.sends, p.callback_ = true ∧ p.exception = none

theorem started_sound (env : Env) : Sound (started env) :=
  ⟨by simp [started, start], by simp [started, start], by simp [started, start]⟩

theorem send_sound {lib : Libraries} {req : SendRequest} {p : SendResultSession}
    (h : (Net.program lib).send req = some p) : p.callback_ = true ∧ p.exception = none := by
  simp only [Net.program, Option.ite_none_left_eq_some, Option.some.injEq] at h
  obtain ⟨clean, rfl⟩ := h
  exact ⟨SendResult.send_callback .., by simpa using clean⟩

theorem step_sound {env : Env} {lib : Libraries} {s s' : ProgramState} {e : ProgramEvent}
    (inv : Sound s) (h : step env (Net.program lib) s e = some s') : Sound s' := by
  cases step_stepped h with
  | start => exact ⟨by simp [start], inv.gets, inv.sends⟩
  | expire t ht | getRearm _ _ _ _ t _ _ _ ht | sendRearm _ _ _ _ t _ _ ht =>
    exact ⟨by simp, inv.gets, inv.sends⟩
  | abort ec rest hr failed => exact ⟨inv.timer, inv.gets, inv.sends⟩
  | fetch rest g hr hg =>
    obtain rfl := Option.some.inj hg
    refine ⟨inv.timer, ?_, inv.sends⟩
    exact List.forall_mem_append.mpr ⟨inv.gets, List.forall_mem_singleton.mpr ⟨rfl, rfl⟩⟩
  | send r rest o p hr hec hok himg ho hp =>
    refine ⟨inv.timer, inv.gets, ?_⟩
    exact List.forall_mem_append.mpr ⟨inv.sends, List.forall_mem_singleton.mpr (send_sound hp)⟩
  | flush ec => exact ⟨inv.timer, inv.gets, inv.sends⟩
  | get i a g g' reports hg hstep =>
    obtain ⟨one, clean, -⟩ := reporting_eq_some hstep
    have callback := (HttpSession.step_frame one).2.2.trans
      (inv.gets g (List.mem_of_getElem? hg)).1
    exact ⟨inv.timer, by grind [inv.gets], inv.sends⟩
  | sent i b p p' reports hp hstep =>
    obtain ⟨one, clean, -⟩ := reporting_eq_some hstep
    have callback := (HttpSession.step_frame one).2.2.trans
      (inv.sends p (List.mem_of_getElem? hp)).1
    exact ⟨inv.timer, inv.gets, by grind [inv.sends]⟩

theorem exec_sound {env : Env} {lib : Libraries} {es : List ProgramEvent} {s : ProgramState}
    (run : exec (step env (Net.program lib)) (started env) es = some s) : Sound s :=
  exec_invariant (fun _ => True) (fun _ _ _ _ inv h => step_sound inv h) (started_sound env)
    (fun _ _ => trivial) run

/-! ## Where an exception comes from -/

/-- A session with a callback raises what its `on_read` raises on the response, and nothing
else. -/
theorem step_raises {Res Report : Type} {x : Exchange Res Report} {s s' : HttpSession Report}
    {a : Completion Res} {ex : Exception} (sound : s.callback_ = true ∧ s.exception = none)
    (h : HttpSession.step x s a = some s') :
    s'.exception = some ex ↔
      ∃ res shutdown, a = .read .success res shutdown ∧ x.respond res = .error ex := by
  obtain ⟨callback, clean⟩ := sound
  cases HttpSession.step_handled h with
  | resolved now | connected now | written => simp [clean]
  | failed _ _ bad =>
    have failed : (HttpSession.fail x { s with outstanding := none } a.ec).exception = none := by
      simp [HttpSession.fail, callback, clean]
    rw [failed]
    refine ⟨by simp, ?_⟩
    rintro ⟨res, shutdown, rfl, -⟩
    exact absurd rfl bad
  | read res shutdown =>
    cases hr : x.respond res with
    | error y => simp [HttpSession.onRead, hr]
    | ok r =>
      cases hbad : HttpSession.badShutdown shutdown <;>
        simp [HttpSession.onRead, HttpSession.callBack, HttpSession.fail, hr, hbad, callback, clean]

theorem respond_error_iff (lib : Libraries) (res : OwlGetImage.Response) (ex : Exception) :
    GetImageSession.respond lib res = .error ex ↔ res.LacksHeader ∧ ex = .outOfRange := by
  rw [GetImageSession.respond_eq, OwlGetImage.Response.LacksHeader]
  by_cases h200 : res.result = Http.ok
  · cases hct : res.find .contentType <;> cases hxf : res.find .xImageFormat <;>
      simp [h200, eq_comm]
  · simp [h200]

theorem analysisRaises_iff (env : Env) (lib : Libraries) (img : Mat) (ex : Exception) :
    env.analysisRaises lib img = some ex ↔ env.analysis img = .error ex ∨
      (∃ o, env.analysis img = .ok o) ∧ lib.url env.config.configSendResult.target = none ∧
        ex = .invalidUrl := by
  unfold Env.analysisRaises
  cases ho : env.analysis img with
  | error y => simp
  | ok o =>
    cases parsed : lib.url env.config.configSendResult.target <;>
      simp [SendResult.send, SendResultSession.run, Env.sendRequest, parsed, HttpSession.make,
        eq_comm]

/-- Where the exceptions of the program come from. -/
inductive RaisedBy (env : Env) (lib : Libraries) (s : ProgramState) :
    ProgramEvent → Exception → Prop where
  | header (i : Nat) (g : GetImageSession) (res : OwlGetImage.Response) (shutdown : ErrorCode) :
      s.gets[i]? = some g → g.outstanding = some .read → res.LacksHeader →
      RaisedBy env lib s (.get i (.read .success res shutdown)) .outOfRange
  | analysis (r : OwlGetImage.Report) (rest : List Handler) (img : Mat) (x : Exception) :
      s.ready = .getDone r :: rest → r.frame? = some img → env.analysis img = .error x →
      RaisedBy env lib s .run x
  | target (r : OwlGetImage.Report) (rest : List Handler) (img : Mat)
      (o : OwlAprilTagData.AprilTagDataObject) :
      s.ready = .getDone r :: rest → r.frame? = some img → env.analysis img = .ok o →
      lib.url env.config.configSendResult.target = none → RaisedBy env lib s .run .invalidUrl

/-- A completion goes on to the analysis exactly with a frame. -/
theorem frame?_eq_some_iff (limit count : Nat) (r : OwlGetImage.Report) (img : Mat) :
    r.frame? = some img ↔
      ((complete limit count r.ec r.ok).1 = .proceed ∧ r.img.empty = false) ∧ r.img = img := by
  have proceed : (complete limit count r.ec r.ok).1 = .proceed ↔ r.ec = .success ∧ r.ok = true := by
    constructor
    · intro h
      obtain ⟨hec, hok, -⟩ := complete_proceed (Prod.ext h rfl)
      exact ⟨hec, hok⟩
    · rintro ⟨hec, hok⟩
      rw [hec, hok]
      rfl
  rw [proceed]
  unfold Report.frame?
  split_ifs with h
  · simp [h]
  · refine ⟨by simp, ?_⟩
    rintro ⟨⟨⟨hec, hok⟩, himg⟩, -⟩
    exact absurd ⟨hec, hok, himg⟩ h

theorem raises_getDone (env : Env) (lib : Libraries) {s : ProgramState} {r : OwlGetImage.Report}
    {rest : List Handler} (hr : s.ready = .getDone r :: rest) :
    raises env lib s .run = r.frame?.bind (env.analysisRaises lib) := by
  rcases hc : complete env.timeoutCountLimit_ s.timeoutCount_ r.ec r.ok with ⟨branch, count⟩
  have frame := frame?_eq_some_iff env.timeoutCountLimit_ s.timeoutCount_ r
  simp only [hc] at frame
  simp only [raises, hr, hc]
  cases hf : r.frame? with
  | none =>
    rw [if_neg]
    · rfl
    · intro stays
      have some := (frame r.img).mpr ⟨stays, rfl⟩
      simp [hf] at some
  | some img =>
    obtain ⟨stays, rfl⟩ := (frame img).mp hf
    rw [if_pos stays]
    rfl

theorem raises_iff (env : Env) (lib : Libraries) {s : ProgramState} (sound : Sound s)
    (e : ProgramEvent) (x : Exception) : raises env lib s e = some x ↔ RaisedBy env lib s e x := by
  constructor
  · intro h
    cases e with
    | start | expire | flush ec => simp [raises] at h
    | run =>
      cases hr : s.ready with
      | nil => simp [raises, hr] at h
      | cons head rest =>
        cases head with
        | wait ec | sendDone r => simp [raises, hr] at h
        | getDone r =>
          rw [raises_getDone env lib hr, Option.bind_eq_some_iff] at h
          obtain ⟨img, frame, h⟩ := h
          rcases (analysisRaises_iff env lib img x).mp h with failed | ⟨⟨o, ho⟩, parsed, rfl⟩
          · exact .analysis r rest img x hr frame failed
          · exact .target r rest img o hr frame ho parsed
    | get i a =>
      simp only [raises, Option.bind_eq_some_iff] at h
      obtain ⟨g', ⟨g, hg, hstep⟩, h⟩ := h
      obtain ⟨res, shutdown, rfl, failed⟩ :=
        (step_raises (sound.gets g (List.mem_of_getElem? hg)) hstep).mp h
      obtain ⟨lacks, rfl⟩ := (respond_error_iff lib res x).mp failed
      cases HttpSession.step_handled hstep with
      | read res shutdown hop => exact .header i g res shutdown hg hop lacks
      | failed _ _ bad => exact absurd rfl bad
    | send i b =>
      simp only [raises, Option.bind_eq_some_iff] at h
      obtain ⟨p', ⟨p, hp, hstep⟩, h⟩ := h
      obtain ⟨res, shutdown, rfl, failed⟩ :=
        (step_raises (sound.sends p (List.mem_of_getElem? hp)) hstep).mp h
      obtain ⟨r, hr⟩ := SendResultSession.respond_ok res
      have answered : SendResultSession.respond res = .error x := failed
      simp [hr] at answered
  · intro h
    cases h with
    | header i g res shutdown hg hop lacks =>
      have failed := (respond_error_iff lib res .outOfRange).mpr ⟨lacks, rfl⟩
      obtain ⟨g', hstep⟩ : ∃ g',
          GetImageSession.step lib g (.read .success res shutdown) = some g' := by
        simp [GetImageSession.step, HttpSession.step, hop]
      have raised := (step_raises (sound.gets g (List.mem_of_getElem? hg)) hstep).mpr
        ⟨res, shutdown, rfl, failed⟩
      simp [raises, hg, hstep, raised]
    | analysis r rest img x hr frame failed =>
      rw [raises_getDone env lib hr, frame, Option.bind_some]
      exact (analysisRaises_iff env lib img x).mpr (.inl failed)
    | target r rest img o hr frame ho parsed =>
      rw [raises_getDone env lib hr, frame, Option.bind_some]
      exact (analysisRaises_iff env lib img _).mpr (.inr ⟨⟨o, ho⟩, parsed, rfl⟩)

/-- An event that can happen is handled or raises, never both. -/
theorem refused_iff (env : Env) (lib : Libraries) {s : ProgramState} (sound : Sound s)
    (e : ProgramEvent) :
    enabled env lib s e ∧ step env (Net.program lib) s e = none ↔
      ∃ x, raises env lib s e = some x := by
  obtain ⟨t, ht⟩ := Option.ne_none_iff_exists'.mp sound.timer
  cases e with
  | start | flush ec => simp [step, raises]
  | expire =>
    simp only [raises, reduceCtorEq, exists_false, iff_false, not_and]
    rintro ⟨t', ht', waiting, expired⟩
    rw [step_of_stepped (.expire t' ht' waiting expired)]
    simp
  | run =>
    cases hr : s.ready with
    | nil => simp [enabled, raises, hr]
    | cons head rest =>
      cases head with
      | wait ec =>
        simp only [raises, hr, reduceCtorEq, exists_false, iff_false, not_and]
        intro _
        by_cases failed : ec = .success
        · subst failed
          rw [step_of_stepped (.fetch rest _ hr rfl)]
          simp
        · rw [step_of_stepped (.abort ec rest hr failed)]
          simp
      | sendDone r =>
        simp only [raises, hr, reduceCtorEq, exists_false, iff_false, not_and]
        intro _
        rw [step_of_stepped (.sendRearm r rest _ _ t hr rfl ht)]
        simp
      | getDone r =>
        rw [raises_getDone env lib hr]
        have ready : enabled env lib s .run := by simp [enabled, hr]
        rw [and_iff_right ready]
        by_cases frame : r.ec = .success ∧ r.ok = true ∧ r.img.empty = false
        · rw [show r.frame? = some r.img from if_pos frame, Option.bind_some, Env.analysisRaises]
          obtain ⟨hec, hok, himg⟩ := frame
          cases ho : env.analysis r.img <;>
            simp [step, run, hr, runHandler, getCompleted, complete, hec, hok, himg,
              toAnalysisAprilTag, ho, toSendResult, Net.program, Option.eq_none_iff_forall_ne_some,
              Option.isSome_iff_exists]
        · rw [show r.frame? = none from if_neg frame]
          rcases hc : complete env.timeoutCountLimit_ s.timeoutCount_ r.ec r.ok with ⟨branch, count⟩
          have stops : branch = .proceed → r.img.empty = true := by
            rintro rfl
            obtain ⟨hec, hok, -⟩ := complete_proceed hc
            simpa [hec, hok] using frame
          rw [step_of_stepped (.getRearm r rest branch count t hr hc stops ht)]
          simp
  | get i a =>
    cases hg : s.gets[i]? with
    | none => simp [enabled, raises, hg]
    | some g =>
      cases hstep : GetImageSession.step lib g a with
      | none => simp [enabled, raises, hg, hstep]
      | some g' =>
        cases hx : g'.exception <;>
          simp [enabled, raises, step, stepGet, Net.program, reporting, hg, hstep, hx]
  | send i b =>
    cases hp : s.sends[i]? with
    | none => simp [enabled, raises, hp]
    | some p =>
      cases hstep : SendResultSession.step p b with
      | none => simp [enabled, raises, hp, hstep]
      | some p' =>
        cases hx : p'.exception <;>
          simp [enabled, raises, step, stepSend, Net.program, reporting, hp, hstep, hx]

/-- In every reachable state an event that can happen is refused exactly when an exception
leaves its handler. That is the missing header of a response with status 200, or, when the
completion of a frame runs, an exception of the analysis or a target that is no URI. -/
theorem exceptions_of_the_loop (env : Env) (lib : Libraries) (es : List ProgramEvent)
    (s : ProgramState) (run : exec (step env (Net.program lib)) (started env) es = some s)
    (e : ProgramEvent) :
    (enabled env lib s e ∧ step env (Net.program lib) s e = none ↔
      ∃ x, raises env lib s e = some x) ∧
      ∀ x, raises env lib s e = some x ↔ RaisedBy env lib s e x :=
  ⟨refused_iff env lib (exec_sound run) e, raises_iff env lib (exec_sound run) e⟩

/-- A response with status 200 and no header. -/
theorem a_response_without_headers_raises :
    let es : List ProgramEvent :=
      [.expire, .run, .get 0 (.resolved 0 .success), .get 0 (.connected 0 .success),
        .get 0 (.written .success)]
    let e : ProgramEvent := .get 0 (.read .success ⟨200, [], []⟩ .success)
    ∃ s, exec (step .sample (Net.program .sample)) (started .sample) es = some s ∧
      RaisedBy .sample .sample s e .outOfRange ∧
      enabled .sample .sample s e ∧ step .sample (Net.program .sample) s e = none := by
  intro es e
  have raised : (exec (step .sample (Net.program .sample)) (started .sample) es).map
      (fun s => raises .sample .sample s e) = some (some .outOfRange) := by decide +kernel
  obtain ⟨s, run, raised⟩ := Option.map_eq_some_iff.mp raised
  obtain ⟨refused, source⟩ := exceptions_of_the_loop .sample .sample es s run e
  exact ⟨s, run, (source .outOfRange).mp raised, refused.mpr ⟨.outOfRange, raised⟩⟩

end OwlTagProcessor
