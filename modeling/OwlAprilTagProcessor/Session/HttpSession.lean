import OwlAprilTagProcessor.Library.Transition
import OwlAprilTagProcessor.Net.Http

/-!
# One HTTP exchange

`GetImageSession` and `SendResultSession` are two copies of one chain of asynchronous
steps: resolve, connect, write, read, shut the socket down. They differ in the
arguments of their callback and in what `on_read` does with a response; an `Exchange`
holds that difference, and the handlers are written once.

The history `calls` lists the invocations of `callback_`. An exception that escapes a
handler is kept in `exception`; the session has no further step then.
-/

namespace Session
open Asio Transition

/-- The asynchronous operation a session waits for. -/
inductive Operation where
  | resolve | connect | write | read
  deriving DecidableEq, Repr

structure HttpSession (Report : Type) where
  req_ : Http.Request
  timeoutMs_ : Int64
  callback_ : Bool                 -- whether the `std::function` holds a target
  outstanding : Option Operation   -- `none`: no further step to run
  deadline : Option Int            -- the expiry of `stream_`, `none` for never
  calls : List Report
  exception : Option Exception
  deriving DecidableEq, Repr

/-- A session as its constructor leaves it, before `run` starts the first step. -/
def HttpSession.make {Report : Type} (req_ : Http.Request) (timeoutMs_ : Int64)
    (callback_ : Bool) : HttpSession Report :=
  ⟨req_, timeoutMs_, callback_, none, none, [], none⟩

/-- How the outstanding operation completes. `now` is what `expires_after` reads on the
clock in the handler, `shutdown` the result of the final `socket().shutdown`. -/
inductive Completion (Res : Type) where
  | resolved (now : Int) (ec : ErrorCode)
  | connected (now : Int) (ec : ErrorCode)
  | written (ec : ErrorCode)
  | read (ec : ErrorCode) (res : Res) (shutdown : ErrorCode)
  deriving DecidableEq, Repr

def Completion.ec {Res : Type} : Completion Res → ErrorCode
  | .resolved _ ec | .connected _ ec | .written ec | .read ec _ _ => ec

/-- A read ends the session, and so does every failure. -/
def Completion.Ends {Res : Type} : Completion Res → Prop
  | .read _ _ _ => True
  | e => e.ec ≠ .success

/-- What tells the two session classes apart: the callback arguments of `fail`, and the
middle part of `on_read`, from the response to the arguments it calls back with. -/
structure Exchange (Res Report : Type) where
  failure : ErrorCode → Report
  respond : Res → Except Exception Report

variable {Res Report : Type}

namespace HttpSession

/-- `fail` does not check that `callback_` holds a target. -/
def fail (x : Exchange Res Report) (s : HttpSession Report) (ec : ErrorCode) :
    HttpSession Report :=
  if s.callback_ then { s with calls := s.calls ++ [x.failure ec] }
  else { s with exception := some .badFunctionCall }

def onResolve (x : Exchange Res Report) (s : HttpSession Report) (now : Int)
    (ec : ErrorCode) : HttpSession Report :=
  if ec.failed then s.fail x ec
  else { s with
    deadline := expiresAfter now (millisecondTicks s.timeoutMs_)
    outstanding := some .connect }

/-- The timeout of the write and the read is set in seconds. -/
def onConnect (x : Exchange Res Report) (s : HttpSession Report) (now : Int)
    (ec : ErrorCode) : HttpSession Report :=
  if ec.failed then s.fail x ec
  else { s with
    deadline := expiresAfter now (secondTicks s.timeoutMs_)
    outstanding := some .write }

def onWrite (x : Exchange Res Report) (s : HttpSession Report) (ec : ErrorCode) :
    HttpSession Report :=
  if ec.failed then s.fail x ec else { s with outstanding := some .read }

/-- `if (callback_) callback_(...)`. -/
def callBack (s : HttpSession Report) (r : Report) : HttpSession Report :=
  if s.callback_ then { s with calls := s.calls ++ [r] } else s

/-- `if (ec && ec != boost::beast::errc::not_connected)`. -/
def badShutdown (ec : ErrorCode) : Bool := ec.failed && ec != .notConnected

def onRead (x : Exchange Res Report) (s : HttpSession Report) (ec : ErrorCode) (res : Res)
    (shutdown : ErrorCode) : HttpSession Report :=
  if ec.failed then s.fail x ec
  else
    let s := { s with deadline := none }
    match x.respond res with
    | .error e => { s with exception := some e }
    | .ok r =>
      let s := s.callBack r
      if badShutdown shutdown then s.fail x shutdown else s

/-- Run the handler of the outstanding operation; an operation that is not outstanding
does not complete. -/
def step (x : Exchange Res Report) (s : HttpSession Report) (e : Completion Res) :
    Option (HttpSession Report) :=
  let t := { s with outstanding := none }
  match s.outstanding, e with
  | some .resolve, .resolved now ec => some (onResolve x t now ec)
  | some .connect, .connected now ec => some (onConnect x t now ec)
  | some .write, .written ec => some (onWrite x t ec)
  | some .read, .read ec res shutdown => some (onRead x t ec res shutdown)
  | _, _ => none

/-- Everything a handler can do, one constructor for each exit. -/
inductive Handled (x : Exchange Res Report) (s : HttpSession Report) :
    Completion Res → HttpSession Report → Prop where
  | resolved (now : Int) : s.outstanding = some .resolve →
      Handled x s (.resolved now .success)
        { s with
          deadline := expiresAfter now (millisecondTicks s.timeoutMs_)
          outstanding := some .connect }
  | connected (now : Int) : s.outstanding = some .connect →
      Handled x s (.connected now .success)
        { s with
          deadline := expiresAfter now (secondTicks s.timeoutMs_)
          outstanding := some .write }
  | written : s.outstanding = some .write →
      Handled x s (.written .success) { s with outstanding := some .read }
  | failed (e : Completion Res) : s.outstanding ≠ none → e.ec ≠ .success →
      Handled x s e (fail x { s with outstanding := none } e.ec)
  | read (res : Res) (shutdown : ErrorCode) : s.outstanding = some .read →
      Handled x s (.read .success res shutdown)
        (onRead x { s with outstanding := none } .success res shutdown)

theorem step_handled {x : Exchange Res Report} {s t : HttpSession Report} {e : Completion Res}
    (h : step x s e = some t) : Handled x s e t := by
  have failed (ne : s.outstanding ≠ none) (bad : e.ec ≠ .success)
      (ht : fail x { s with outstanding := none } e.ec = t) : Handled x s e t :=
    ht ▸ .failed e ne bad
  cases hop : s.outstanding with
  | none => simp [step, hop] at h
  | some op =>
    cases op <;> cases e <;> simp only [step, hop, Option.some.injEq, reduceCtorEq] at h
    case resolve.resolved now ec =>
      cases hec : ec.failed
      · obtain rfl := ErrorCode.failed_eq_false.mp hec
        exact h ▸ .resolved now hop
      · exact failed (by simp [hop]) (ErrorCode.failed_eq_true.mp hec)
          (by simpa [onResolve, hec, Completion.ec] using h)
    case connect.connected now ec =>
      cases hec : ec.failed
      · obtain rfl := ErrorCode.failed_eq_false.mp hec
        exact h ▸ .connected now hop
      · exact failed (by simp [hop]) (ErrorCode.failed_eq_true.mp hec)
          (by simpa [onConnect, hec, Completion.ec] using h)
    case write.written ec =>
      cases hec : ec.failed
      · obtain rfl := ErrorCode.failed_eq_false.mp hec
        exact h ▸ .written hop
      · exact failed (by simp [hop]) (ErrorCode.failed_eq_true.mp hec)
          (by simpa [onWrite, hec, Completion.ec] using h)
    case read.read ec res shutdown =>
      cases hec : ec.failed
      · obtain rfl := ErrorCode.failed_eq_false.mp hec
        exact h ▸ .read res shutdown hop
      · exact failed (by simp [hop]) (ErrorCode.failed_eq_true.mp hec)
          (by simpa [onRead, hec, Completion.ec] using h)

/-! What a handler may change beside the next operation. -/

theorem fail_eq (x : Exchange Res Report) (s : HttpSession Report) (ec : ErrorCode) :
    s.fail x ec =
      { s with calls := (s.fail x ec).calls, exception := (s.fail x ec).exception } := by
  unfold fail
  split <;> rfl

theorem callBack_eq (s : HttpSession Report) (r : Report) :
    s.callBack r = { s with calls := (s.callBack r).calls } := by
  unfold callBack
  split <;> rfl

theorem onRead_eq (x : Exchange Res Report) (s : HttpSession Report) (ec : ErrorCode)
    (res : Res) (shutdown : ErrorCode) :
    s.onRead x ec res shutdown =
      { s with
        deadline := (s.onRead x ec res shutdown).deadline
        calls := (s.onRead x ec res shutdown).calls
        exception := (s.onRead x ec res shutdown).exception } := by
  unfold onRead
  split
  · rw [fail_eq]
  · cases x.respond res with
    | error e => rfl
    | ok r =>
      dsimp only
      split
      · rw [fail_eq, callBack_eq]
      · rw [callBack_eq]

@[simp] theorem fail_outstanding (x : Exchange Res Report) (s : HttpSession Report)
    (ec : ErrorCode) : (s.fail x ec).outstanding = s.outstanding := by
  rw [fail_eq]

@[simp] theorem onRead_outstanding (x : Exchange Res Report) (s : HttpSession Report)
    (ec : ErrorCode) (res : Res) (shutdown : ErrorCode) :
    (s.onRead x ec res shutdown).outstanding = s.outstanding := by
  rw [onRead_eq]

/-- No handler changes the request, the timeout or the callback. -/
theorem step_frame {x : Exchange Res Report} {s t : HttpSession Report} {e : Completion Res}
    (h : step x s e = some t) :
    t.req_ = s.req_ ∧ t.timeoutMs_ = s.timeoutMs_ ∧ t.callback_ = s.callback_ := by
  cases step_handled h with
  | resolved now | connected now | written => exact ⟨rfl, rfl, rfl⟩
  | failed _ _ _ => rw [fail_eq]; exact ⟨rfl, rfl, rfl⟩
  | read res shutdown _ => rw [onRead_eq]; exact ⟨rfl, rfl, rfl⟩

theorem fail_calls (x : Exchange Res Report) (s : HttpSession Report) (ec : ErrorCode) :
    s.calls <+: (s.fail x ec).calls := by
  unfold fail
  split <;> simp

theorem callBack_calls (s : HttpSession Report) (r : Report) :
    s.calls <+: (s.callBack r).calls := by
  unfold callBack
  split <;> simp

theorem onRead_calls (x : Exchange Res Report) (s : HttpSession Report) (ec : ErrorCode)
    (res : Res) (shutdown : ErrorCode) : s.calls <+: (s.onRead x ec res shutdown).calls := by
  unfold onRead
  split
  · exact fail_calls x s ec
  · cases x.respond res with
    | error e => exact List.prefix_rfl
    | ok r =>
      have delivered := callBack_calls { s with deadline := none } r
      dsimp only
      split
      · exact delivered.trans (fail_calls x _ shutdown)
      · exact delivered

/-- A call once made stays made. -/
theorem step_calls {x : Exchange Res Report} {s t : HttpSession Report} {e : Completion Res}
    (h : step x s e = some t) : s.calls <+: t.calls := by
  cases step_handled h with
  | resolved now | connected now | written => exact List.prefix_rfl
  | failed _ _ _ => exact fail_calls x { s with outstanding := none } e.ec
  | read res shutdown _ =>
    exact onRead_calls x { s with outstanding := none } .success res shutdown

/-- Once a session has nothing outstanding, nothing completes. -/
theorem step_of_finished (x : Exchange Res Report) {s : HttpSession Report}
    (h : s.outstanding = none) (e : Completion Res) : step x s e = none := by
  simp [step, h]

end HttpSession

end Session
