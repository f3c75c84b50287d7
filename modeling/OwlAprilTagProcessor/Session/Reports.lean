import OwlAprilTagProcessor.GetImage
import OwlAprilTagProcessor.SendResult

/-!
# How often a session reports

A session should call back exactly once. What a run of a session leaves is determined by
how it ended: still running, ended by a failed operation, or ended by a response. From
that summary follow the exact conditions under which a session does not call back
twice, and does not end without having called back.

Two exits break the rule. A shutdown error after the result was delivered goes through
`fail`, which reports again. A response with status 200 that lacks one of the two
headers makes `fields::at` throw before anything is reported, and so does a target that
`boost::url` does not accept.
-/

namespace Session
open Asio Transition

variable {Res Report : Type}

namespace HttpSession

/-- A session whose name lookup has just been started. -/
structure Fresh (s : HttpSession Report) : Prop where
  outstanding : s.outstanding = some .resolve
  calls : s.calls = []
  exception : s.exception = none

/-- The calls and the exception that the handler of a response leaves. -/
def answer (x : Exchange Res Report) (callback_ : Bool) (res : Res) (shutdown : ErrorCode) :
    List Report × Option Exception :=
  match x.respond res with
  | .error e => ([], some e)
  | .ok r =>
    if !callback_ then
      ([], if badShutdown shutdown then some .badFunctionCall else none)
    else if badShutdown shutdown then ([r, x.failure shutdown], none)
    else ([r], none)

/-- What is known of a session once the completions `es` have been handled. -/
inductive Life (x : Exchange Res Report) (es : List (Completion Res))
    (s : HttpSession Report) : Prop where
  | running : s.outstanding ≠ none → s.calls = [] → s.exception = none →
      (∀ e ∈ es, ¬ e.Ends) → Life x es s
  | failed (ec : ErrorCode) : s.outstanding = none →
      s.calls = (if s.callback_ then [x.failure ec] else []) →
      s.exception = (if s.callback_ then none else some .badFunctionCall) →
      (∃ e ∈ es, e.Ends) → (∀ res shutdown, .read .success res shutdown ∉ es) → Life x es s
  | answered (res : Res) (shutdown : ErrorCode) : s.outstanding = none →
      (s.calls, s.exception) = answer x s.callback_ res shutdown →
      (∀ res' shutdown', .read .success res' shutdown' ∈ es ↔
        res' = res ∧ shutdown' = shutdown) → Life x es s

theorem onRead_answer (x : Exchange Res Report) (s : HttpSession Report) (res : Res)
    (shutdown : ErrorCode) (hc : s.calls = []) (he : s.exception = none) :
    ((s.onRead x .success res shutdown).calls, (s.onRead x .success res shutdown).exception) =
      answer x s.callback_ res shutdown := by
  unfold onRead answer
  cases x.respond res with
  | error e => simp [hc]
  | ok r =>
    cases s.callback_ <;> cases badShutdown shutdown <;> simp [callBack, fail, hc, he]

/-- The summary after a run, by induction on the run: only a running session takes a
step, and the step decides how it ends. -/
theorem life {x : Exchange Res Report} {s t : HttpSession Report}
    {es : List (Completion Res)} (fresh : s.Fresh) (run : exec (step x) s es = some t) :
    Life x es t := by
  refine exec_induction ?_ ?_ run
  · exact .running (by simp [fresh.outstanding]) fresh.calls fresh.exception (by simp)
  · intro es u e v _ ih last
    have live : u.outstanding ≠ none := fun done => by simp [step_of_finished x done] at last
    cases ih with
    | failed ec done => exact absurd done live
    | answered res shutdown done => exact absurd done live
    | running _ calls exception goesOn =>
      have noRead (res : Res) (shutdown : ErrorCode) : .read .success res shutdown ∉ es :=
        fun member => goesOn _ member trivial
      cases step_handled last with
      | resolved now | connected now | written =>
        refine .running (by simp) calls exception fun e member => ?_
        rcases List.mem_append.mp member with old | new
        · exact goesOn e old
        · obtain rfl := List.mem_singleton.mp new
          exact fun bad => bad rfl
      | failed _ _ bad =>
        refine .failed e.ec (by simp) ?_ ?_ ⟨e, by simp, ?_⟩ fun res shutdown => ?_
        · rw [(step_frame last).2.2]
          cases u.callback_ <;> simp [fail, calls]
        · rw [(step_frame last).2.2]
          cases u.callback_ <;> simp [fail, exception]
        · cases e <;> first | exact trivial | exact bad
        · have other : e ≠ .read .success res shutdown := by rintro rfl; exact bad rfl
          simpa [Ne.symm other] using noRead res shutdown
      | read res shutdown =>
        refine .answered res shutdown (by simp) ?_ fun res' shutdown' => ?_
        · rw [(step_frame last).2.2]
          exact onRead_answer x { u with outstanding := none } res shutdown calls exception
        · simp [noRead res' shutdown']

/-- Nor does a run. -/
theorem exec_callback {x : Exchange Res Report} {s t : HttpSession Report}
    {es : List (Completion Res)} (run : exec (step x) s es = some t) :
    t.callback_ = s.callback_ :=
  exec_invariant (I := fun u => u.callback_ = s.callback_) (fun _ => True)
    (fun _ _ _ _ same last => (step_frame last).2.2.trans same) rfl (fun _ _ => trivial) run

/-- The result is delivered and the shutdown then fails. -/
def ReportsTwice (x : Exchange Res Report) (callback_ : Bool)
    (es : List (Completion Res)) : Prop :=
  callback_ = true ∧ ∃ res shutdown, .read .success res shutdown ∈ es ∧
    (∃ r, x.respond res = .ok r) ∧ badShutdown shutdown = true

theorem calls_le_one_iff {x : Exchange Res Report} {s t : HttpSession Report}
    {es : List (Completion Res)} (fresh : s.Fresh) (run : exec (step x) s es = some t) :
    t.calls.length ≤ 1 ↔ ¬ ReportsTwice x t.callback_ es := by
  cases life fresh run with
  | running _ calls _ goesOn =>
    refine iff_of_true (by simp [calls]) ?_
    rintro ⟨-, res, shutdown, member, -⟩
    exact goesOn _ member trivial
  | failed ec _ calls _ _ noRead =>
    cases hcb : t.callback_ <;> simp [calls, ReportsTwice, noRead, hcb]
  | answered res shutdown _ answered reads =>
    have calls : t.calls = (answer x t.callback_ res shutdown).1 :=
      congrArg Prod.fst answered
    have twice : ReportsTwice x t.callback_ es ↔ t.callback_ = true ∧
        (∃ r, x.respond res = .ok r) ∧ badShutdown shutdown = true := by
      simp [ReportsTwice, reads]
    rw [twice, calls]
    cases hr : x.respond res <;> cases hcb : t.callback_ <;>
      cases hsd : badShutdown shutdown <;> simp [answer, hr, hsd]

/-- The session has raised no exception, and has called back if it is over. -/
def NotSilent (s : HttpSession Report) : Prop :=
  s.exception = none ∧ (s.outstanding = none → s.calls ≠ [])

theorem notSilent_iff {x : Exchange Res Report} {s t : HttpSession Report}
    {es : List (Completion Res)} (fresh : s.Fresh) (run : exec (step x) s es = some t) :
    t.NotSilent ↔ (t.callback_ = true ∨ ∀ e ∈ es, ¬ e.Ends) ∧
      ∀ res shutdown, .read .success res shutdown ∈ es → ∃ r, x.respond res = .ok r := by
  cases life fresh run with
  | running live calls exception goesOn =>
    refine iff_of_true ⟨exception, fun done => absurd done live⟩ ⟨.inr goesOn, ?_⟩
    intro res shutdown member
    exact absurd trivial (goesOn _ member)
  | failed ec done calls exception ends noRead =>
    have ended : ¬ ∀ e ∈ es, ¬ e.Ends := fun none =>
      ends.elim fun e he => none e he.1 he.2
    cases hcb : t.callback_ <;> simp [NotSilent, calls, exception, noRead, hcb, done, ended]
  | answered res shutdown done answered reads =>
    have calls : t.calls = (answer x t.callback_ res shutdown).1 :=
      congrArg Prod.fst answered
    have exception : t.exception = (answer x t.callback_ res shutdown).2 :=
      congrArg Prod.snd answered
    have ended : ¬ ∀ e ∈ es, ¬ e.Ends := fun none =>
      none _ ((reads res shutdown).mpr ⟨rfl, rfl⟩) trivial
    have responds : (∀ res' shutdown', .read .success res' shutdown' ∈ es →
        ∃ r, x.respond res' = .ok r) ↔ ∃ r, x.respond res = .ok r := by
      simp [reads]
    rw [NotSilent, responds, calls, exception]
    cases hr : x.respond res <;> cases hcb : t.callback_ <;>
      cases hsd : badShutdown shutdown <;> simp [answer, hr, hsd, done, ended]

end HttpSession

end Session

/-! ## The two session classes -/

namespace OwlGetImage
open Asio Session Transition

/-- Status 200, but without `Content-Type` or without `X-image-format`. -/
def Response.LacksHeader (res_ : Response) : Prop :=
  res_.result = Http.ok ∧ (res_.find .contentType = none ∨ res_.find .xImageFormat = none)

theorem GetImageSession.respond_ok_iff (lib : Libraries) (res_ : Response) :
    (∃ r, respond lib res_ = .ok r) ↔ ¬ Response.LacksHeader res_ := by
  rw [respond_eq, Response.LacksHeader]
  by_cases h200 : res_.result = Http.ok
  · cases hct : res_.find .contentType <;> cases hxf : res_.find .xImageFormat <;> simp [h200]
  · simp [h200]

theorem GetImage.get_fresh (timeoutMs : Int64) (host port target : String) (version : Int32)
    (callback : Bool) : (GetImage.get timeoutMs host port target version callback).Fresh :=
  ⟨rfl, rfl, rfl⟩

end OwlGetImage

namespace OwlSendResult
open Asio Session Transition OwlAprilTagData

theorem SendResultSession.respond_ok (res_ : Response) : ∃ r, respond res_ = .ok r := by
  unfold respond
  split <;> exact ⟨_, rfl⟩

theorem SendResult.send_fresh {lib : Libraries} {target url : String}
    (parsed : lib.url target = some url) (timeoutMs : Int64) (host port : String)
    (version : Int32) (data : AprilTagResultType) (callback : Bool) :
    (SendResult.send lib timeoutMs host port target version data callback).Fresh := by
  constructor <;> simp [send, SendResultSession.run, parsed, HttpSession.make]

theorem SendResult.send_callback (lib : Libraries) (timeoutMs : Int64)
    (host port target : String) (version : Int32) (data : AprilTagResultType)
    (callback : Bool) :
    (SendResult.send lib timeoutMs host port target version data callback).callback_ =
      callback := by
  unfold send SendResultSession.run
  split <;> rfl

/-- With a target that is no URI reference nothing is started, and nothing completes. -/
theorem SendResult.send_rejected {lib : Libraries} {target : String}
    (rejected : lib.url target = none) (timeoutMs : Int64) (host port : String)
    (version : Int32) (data : AprilTagResultType) (callback : Bool)
    {es : List (Completion Response)} {s : SendResultSession}
    (run : exec SendResultSession.step
      (SendResult.send lib timeoutMs host port target version data callback) es = some s) :
    es = [] ∧ s.calls = [] ∧ s.exception = some .invalidUrl := by
  cases es with
  | nil =>
    obtain rfl := Option.some.inj run
    simp [send, SendResultSession.run, rejected, HttpSession.make]
  | cons e es =>
    rw [exec_cons, SendResultSession.step, HttpSession.step_of_finished] at run
    · simp at run
    · simp [send, SendResultSession.run, rejected, HttpSession.make]

end OwlSendResult

/-! ## Results -/

namespace Session
open Asio Transition OwlGetImage OwlSendResult OwlAprilTagData

/-- A session calls back at most once exactly when it is not a session that delivers
the outcome of a response and whose socket then fails to shut down. -/
theorem calls_back_at_most_once_iff (lib : Libraries) :
    (∀ timeoutMs host port target version callback es (s : GetImageSession),
      exec (GetImageSession.step lib)
        (GetImage.get timeoutMs host port target version callback) es = some s →
      (s.calls.length ≤ 1 ↔ ¬ (callback = true ∧ ∃ res shutdown,
        .read .success res shutdown ∈ es ∧ ¬ Response.LacksHeader res ∧
          HttpSession.badShutdown shutdown = true))) ∧
    (∀ timeoutMs host port target version data callback es (s : SendResultSession),
      exec SendResultSession.step
        (SendResult.send lib timeoutMs host port target version data callback) es = some s →
      (s.calls.length ≤ 1 ↔ ¬ (callback = true ∧ ∃ res shutdown,
        .read .success res shutdown ∈ es ∧ HttpSession.badShutdown shutdown = true))) := by
  constructor
  · intro timeoutMs host port target version callback es s run
    have fresh := GetImage.get_fresh timeoutMs host port target version callback
    have same : s.callback_ = callback := HttpSession.exec_callback run
    rw [HttpSession.calls_le_one_iff fresh run, HttpSession.ReportsTwice, same]
    simp only [GetImageSession.exchange, GetImageSession.respond_ok_iff]
  · intro timeoutMs host port target version data callback es s run
    cases parsed : lib.url target with
    | none =>
      obtain ⟨rfl, calls, -⟩ := SendResult.send_rejected parsed timeoutMs host port version
        data callback run
      simp [calls]
    | some url =>
      have fresh := SendResult.send_fresh parsed timeoutMs host port version data callback
      have same : s.callback_ = callback := by
        rw [HttpSession.exec_callback run, SendResult.send_callback]
      rw [HttpSession.calls_le_one_iff fresh run, HttpSession.ReportsTwice, same]
      simp [SendResultSession.exchange, SendResultSession.respond_ok]

/-- An image is fetched, its callback is run, and the shutdown fails with a broken pipe:
the session calls back a second time, with an error. -/
theorem get_session_reports_twice :
    ¬ ∀ s : GetImageSession,
      exec (GetImageSession.step .sample)
        (GetImage.get 1000 "127.0.0.1" "23331" "/1" 11 true)
        [.resolved 0 .success, .connected 1000000 .success, .written .success,
          .read .success ⟨200, [(.contentType, "image/jpeg"), (.xImageFormat, "jpg")],
            [0xff, 0xd8]⟩ (.other 32)] = some s →
      s.calls.length ≤ 1 := by
  intro h
  have := h _ rfl
  revert this
  decide

/-- After a response whose socket is already disconnected, one call. -/
theorem get_session_reports_once :
    let es : List (Completion OwlGetImage.Response) :=
      [.resolved 0 .success, .connected 1000000 .success, .written .success,
        .read .success ⟨404, [], []⟩ .notConnected]
    ∃ s, exec (GetImageSession.step .sample)
      (GetImage.get 1000 "127.0.0.1" "23331" "/1" 11 true) es = some s ∧
      s.calls.length ≤ 1 := by
  intro es
  refine ⟨_, rfl, ((calls_back_at_most_once_iff .sample).1 1000 "127.0.0.1" "23331" "/1" 11
    true es _ rfl).mpr ?_⟩
  rintro ⟨-, res, shutdown, member, -, bad⟩
  simp [es] at member
  obtain ⟨-, rfl⟩ := member
  exact absurd bad (by decide)

/-- A session raises no exception and does not end without having called back, exactly
when its target is a URI reference (only the sending session parses it), it has a callback
once it ends, and no response it reads has status 200 and lacks a header (only the
fetching session looks at them). -/
theorem reports_before_ending_iff (lib : Libraries) :
    (∀ timeoutMs host port target version callback es (s : GetImageSession),
      exec (GetImageSession.step lib)
        (GetImage.get timeoutMs host port target version callback) es = some s →
      (s.NotSilent ↔ (callback = true ∨ ∀ e ∈ es, ¬ e.Ends) ∧ ∀ res shutdown,
        .read .success res shutdown ∈ es → ¬ Response.LacksHeader res)) ∧
    (∀ timeoutMs host port target version data callback es (s : SendResultSession),
      exec SendResultSession.step
        (SendResult.send lib timeoutMs host port target version data callback) es = some s →
      (s.NotSilent ↔ lib.url target ≠ none ∧ (callback = true ∨ ∀ e ∈ es, ¬ e.Ends))) := by
  constructor
  · intro timeoutMs host port target version callback es s run
    have fresh := GetImage.get_fresh timeoutMs host port target version callback
    have same : s.callback_ = callback := HttpSession.exec_callback run
    rw [HttpSession.notSilent_iff fresh run, same]
    simp only [GetImageSession.exchange, GetImageSession.respond_ok_iff]
  · intro timeoutMs host port target version data callback es s run
    cases parsed : lib.url target with
    | none =>
      obtain ⟨-, -, exception⟩ := SendResult.send_rejected parsed timeoutMs host port version
        data callback run
      simp [HttpSession.NotSilent, exception]
    | some url =>
      have fresh := SendResult.send_fresh parsed timeoutMs host port version data callback
      have same : s.callback_ = callback := by
        rw [HttpSession.exec_callback run, SendResult.send_callback]
      rw [HttpSession.notSilent_iff fresh run, same]
      simp [SendResultSession.exchange, SendResultSession.respond_ok]

/-- A reply with status 200 and no header, and a target with a space in it. -/
theorem sessions_end_silently :
    (¬ ∀ s : GetImageSession,
      exec (GetImageSession.step .sample)
        (GetImage.get 1000 "127.0.0.1" "23331" "/1" 11 true)
        [.resolved 0 .success, .connected 1000000 .success, .written .success,
          .read .success ⟨200, [], []⟩ .success] = some s → s.NotSilent) ∧
    ¬ (SendResult.send .sample 1000 "127.0.0.1" "23338" "/a b" 11 {} true).NotSilent := by
  constructor
  · intro h
    have raised := (h _ rfl).1
    revert raised
    decide
  · rintro ⟨raised, -⟩
    revert raised
    decide

/-- After a refused connection the sending session has reported. -/
theorem send_session_reports_before_ending :
    let es : List (Completion OwlSendResult.Response) :=
      [.resolved 0 .success, .connected 1000000 (.other 111)]
    ∃ s, exec SendResultSession.step
      (SendResult.send .sample 1000 "127.0.0.1" "23338" "/cmd" 11 {} true) es = some s ∧
      s.NotSilent := by
  intro es
  exact ⟨_, rfl, ((reports_before_ending_iff .sample).2 1000 "127.0.0.1" "23338" "/cmd" 11 {}
    true es _ rfl).mpr ⟨by decide, .inl rfl⟩⟩

end Session
