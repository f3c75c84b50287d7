import Mathlib.Tactic.Simps.Basic
import OwlAprilTagProcessor.GetImage
import OwlAprilTagProcessor.SendResult
import OwlAprilTagProcessor.TagProcessor.FpsTracer

/-!
# The polling loop

`TagProcessor` and the `io_context` it runs on. One thread runs the ready handlers in
first-in-first-out order; a handler runs to its end before the next one starts. The
state holds the members of `TagProcessor`, the queue of ready handlers, every session
that was started and the history of what the loop did.

What a session is does not matter to the handlers, so they are written for any network
`Net`: session types, how a session is started and how it goes on. A step that an
exception leaves is no step: `none`.
-/

namespace OwlTagProcessor
open Asio OwlTagConfigLoader OwlAprilTagData

/-! ## The surroundings -/

structure GetRequest where
  host : String
  port : String
  target : String
  version : Int32
  timeoutMs : Int64
  deriving DecidableEq, Repr

structure SendRequest where
  host : String
  port : String
  target : String
  version : Int32
  timeoutMs : Int64
  data : AprilTagResultType
  deriving DecidableEq, Repr

/-- Two session types and their events. A session is refused when its `run` throws, and
a step of a session comes with the callback invocations made in it. -/
structure Net (G S α β : Type) where
  get : GetRequest → Option G
  getStep : G → α → Option (G × List OwlGetImage.Report)
  send : SendRequest → Option S
  sendStep : S → β → Option (S × List OwlSendResult.Report)

/-- The configuration, the clock and the libraries behind the analysis. -/
structure Env where
  config : Config
  clock : SteadyClock
  analysis : Mat → Except Exception AprilTagDataObject
  resultType : AprilTagDataObject → AprilTagResultType

namespace Env

variable (env : Env)

/-! The constants the constructor of `TagProcessor` copies from the configuration. -/

def timeStartMs_ : Int := env.config.configTagProcessor.timeStartMs.toInt
def timeDurationMs_ : Int := env.config.configTagProcessor.timeDurationMs.toInt

/-- `const size_t timeoutCountLimit_`, converted from a `long`. -/
def timeoutCountLimit_ : Nat := env.config.configTagProcessor.timeoutCountLimit.toUInt64.toNat

/-- The arguments of `ptr_GetImage_->get`, with the timeout set just before. -/
def getRequest : GetRequest :=
  let c := env.config.configGetImage
  ⟨c.host, c.port, c.target, c.version, c.timeoutMs⟩

/-- The arguments of `ptr_SendResult_->send`. -/
def sendRequest (o : AprilTagResultType) : SendRequest :=
  let c := env.config.configSendResult
  ⟨c.host, c.port, c.target, c.version, c.timeoutMs, o⟩

end Env

/-! ## The state -/

/-- A ready handler: a wait on the timer, or a lambda posted by a session's callback. -/
inductive Handler where
  | wait (ec : ErrorCode)
  | getDone (r : OwlGetImage.Report)
  | sendDone (r : OwlSendResult.Report)
  deriving DecidableEq, Repr

/-- What a completion handler decides to do. -/
inductive Branch where
  | skip | restart | proceed
  deriving DecidableEq, Repr

/-- One call of `setNextDuration`: the timer it finds, its clock readings and the expiry
it sets. There is no `remainAt` when the schedule was missed. -/
structure Rearm where
  waits : Nat
  expiry : Int
  frameAt : Int
  compareAt : Int
  remainAt : Option Int
  armAt : Int
  next : Int
  deriving DecidableEq, Repr, Inhabited

/-- The history, oldest entry first. -/
inductive Entry where
  | started (expiry : Int)
  | get (req : GetRequest)
  | post (req : SendRequest)
  | rearmed (call : Rearm)
  | aborted (ec : ErrorCode)
  | getCompleted (r : OwlGetImage.Report) (branch : Branch)
  | sendCompleted (r : OwlSendResult.Report) (branch : Branch)
  | flushed (report : FpsReport)
  deriving DecidableEq, Repr

structure State (G S : Type) where
  timer_ : Option SteadyTimer := none
  timeoutCount_ : Nat := 0
  fpsTracer : FpsTracer := {}
  reads : Nat := 0               -- clock readings made so far
  ready : List Handler := []
  gets : List G := []
  sends : List S := []
  history : List Entry := []

variable {G S α β : Type}

@[simps] def State.note (s : State G S) (e : Entry) : State G S :=
  { s with history := s.history ++ [e] }

/-! ## The handlers -/

/-- What `setNextDuration` reads and computes on the timer `t`, when the clock has been
read `n` times. -/
def Env.measure (env : Env) (requestDuration : Int) (t : SteadyTimer) (n : Nat) : Rearm :=
  if t.expiry + requestDuration > env.clock.now (n + 1) then
    { waits := t.waits, expiry := t.expiry
      frameAt := env.clock.now n, compareAt := env.clock.now (n + 1)
      remainAt := some (env.clock.now (n + 2)), armAt := env.clock.now (n + 3)
      next := env.clock.now (n + 3) + (t.expiry + requestDuration - env.clock.now (n + 2)) }
  else
    { waits := t.waits, expiry := t.expiry
      frameAt := env.clock.now n, compareAt := env.clock.now (n + 1)
      remainAt := none, armAt := env.clock.now (n + 2)
      next := env.clock.now (n + 2) +
        milliseconds env.config.configTagProcessor.timeDurationMini.toInt }

/-- How often a call reads the clock. -/
def Rearm.reads (call : Rearm) : Nat := if call.remainAt.isSome then 4 else 3

/-- `expires_from_now` cancels the waits outstanding on the timer. Dereferencing a null
`timer_` is no step. -/
def setNextDuration (env : Env) (requestDuration : Int) (s : State G S) :
    Option (State G S) :=
  s.timer_.map fun t =>
    let call := env.measure requestDuration t s.reads
    { s with
      fpsTracer := s.fpsTracer.frame (toMilliseconds (call.frameAt - t.expiry))
      timer_ := some (t.expiresAt call.next)
      ready := s.ready ++ List.replicate t.waits (.wait .operationAborted)
      reads := s.reads + call.reads
      history := s.history ++ [.rearmed call] }

/-- `timer_->async_wait`. -/
def asyncWait (s : State G S) : State G S :=
  { s with timer_ := s.timer_.map SteadyTimer.asyncWait }

/-- The common body of the three continuations. -/
def rearm (env : Env) (s : State G S) : Option (State G S) :=
  (setNextDuration env (milliseconds env.timeDurationMs_) s).map asyncWait

def skipToNextLoop (env : Env) (s : State G S) : Option (State G S) := rearm env s

/-- The error code is only logged. -/
def restartToNextLoop (env : Env) (_ : ErrorCode) (s : State G S) : Option (State G S) :=
  rearm env s

def nextLoop (env : Env) (s : State G S) : Option (State G S) := rearm env s

/-- The old timer is cancelled and replaced. -/
def start (env : Env) (s : State G S) : State G S :=
  let cancelled := match s.timer_ with
    | some t => List.replicate t.waits (.wait .operationAborted)
    | none => []
  let expiry := env.clock.now s.reads + milliseconds env.timeStartMs_
  { s with
    timer_ := some (SteadyTimer.asyncWait ⟨expiry, 0⟩)
    ready := s.ready ++ cancelled
    reads := s.reads + 1
    history := s.history ++ [.started expiry] }

def toGetImage (env : Env) (net : Net G S α β) (ec : ErrorCode) (s : State G S) :
    Option (State G S) :=
  if ec.failed then some (s.note (.aborted ec))
  else
    (net.get env.getRequest).map fun g =>
      { s with gets := s.gets ++ [g] }.note (.get env.getRequest)

def toSendResult (env : Env) (net : Net G S α β) (o : AprilTagResultType) (s : State G S) :
    Option (State G S) :=
  (net.send (env.sendRequest o)).map fun p =>
    { s with sends := s.sends ++ [p] }.note (.post (env.sendRequest o))

def toAnalysisAprilTag (env : Env) (net : Net G S α β) (img : Mat) (s : State G S) :
    Option (State G S) :=
  match env.analysis img with
  | .error _ => none
  | .ok r => toSendResult env net (env.resultType r) s

/-- The part the two completion handlers share: the branch and the new `timeoutCount_`,
a `size_t`. -/
def complete (limit timeoutCount : Nat) (ec : ErrorCode) (ok : Bool) : Branch × Nat :=
  if ec.failed then
    if ec = .timeout then
      let timeoutCount := (timeoutCount + 1) % UInt64.size
      if timeoutCount > limit then (.restart, limit) else (.skip, timeoutCount)
    else (.restart, timeoutCount)
  else if !ok then (.skip, timeoutCount)
  else (.proceed, 0)

/-- The lambda posted by the callback of `to_get_image`. -/
def getCompleted (env : Env) (net : Net G S α β) (r : OwlGetImage.Report)
    (s : State G S) : Option (State G S) :=
  let (branch, count) := complete env.timeoutCountLimit_ s.timeoutCount_ r.ec r.ok
  let s := { s with timeoutCount_ := count }.note (.getCompleted r branch)
  match branch with
  | .skip => skipToNextLoop env s
  | .restart => restartToNextLoop env r.ec s
  | .proceed => if r.img.empty then skipToNextLoop env s else toAnalysisAprilTag env net r.img s

/-- The lambda posted by the callback of `to_send_result`. -/
def sendCompleted (env : Env) (r : OwlSendResult.Report) (s : State G S) :
    Option (State G S) :=
  let (branch, count) := complete env.timeoutCountLimit_ s.timeoutCount_ r.ec r.ok
  let s := { s with timeoutCount_ := count }.note (.sendCompleted r branch)
  match branch with
  | .skip => skipToNextLoop env s
  | .restart => restartToNextLoop env r.ec s
  | .proceed => nextLoop env s

def runHandler (env : Env) (net : Net G S α β) (s : State G S) :
    Handler → Option (State G S)
  | .wait ec => toGetImage env net ec s
  | .getDone r => getCompleted env net r s
  | .sendDone r => sendCompleted env r s

/-! ## The machine -/

/-- `expire` moves the waits of an expired timer to the queue, `run` runs the first ready
handler, `flush` is the tracer's own timer, `get` and `send` advance a session. -/
inductive Event (α β : Type) where
  | start
  | expire
  | run
  | flush (ec : ErrorCode)
  | get (i : Nat) (a : α)
  | send (i : Nat) (b : β)
  deriving DecidableEq, Repr

def expire (env : Env) (s : State G S) : Option (State G S) :=
  match s.timer_ with
  | none => none
  | some t =>
    if 0 < t.waits ∧ t.expiry ≤ env.clock.now s.reads then
      some { s with
        timer_ := some t.release
        ready := s.ready ++ List.replicate t.waits (.wait .success)
        reads := s.reads + 1 }
    else none

def run (env : Env) (net : Net G S α β) (s : State G S) : Option (State G S) :=
  match s.ready with
  | [] => none
  | h :: rest => runHandler env net { s with ready := rest } h

def flush (ec : ErrorCode) (s : State G S) : State G S :=
  let (fpsTracer, report) := s.fpsTracer.flushFps ec
  { s with fpsTracer, history := s.history ++ (report.map Entry.flushed).toList }

/-- Every callback invocation posts a completion handler. -/
def stepGet (net : Net G S α β) (s : State G S) (i : Nat) (a : α) : Option (State G S) := do
  let g ← s.gets[i]?
  let (g', reports) ← net.getStep g a
  some { s with gets := s.gets.set i g', ready := s.ready ++ reports.map .getDone }

def stepSend (net : Net G S α β) (s : State G S) (i : Nat) (b : β) : Option (State G S) := do
  let p ← s.sends[i]?
  let (p', reports) ← net.sendStep p b
  some { s with sends := s.sends.set i p', ready := s.ready ++ reports.map .sendDone }

def step (env : Env) (net : Net G S α β) (s : State G S) : Event α β → Option (State G S)
  | .start => some (start env s)
  | .expire => expire env s
  | .run => run env net s
  | .flush ec => some (flush ec s)
  | .get i a => stepGet net s i a
  | .send i b => stepSend net s i b

/-- The state `main` leaves to the processing thread. -/
def started (env : Env) : State G S := start env {}

end OwlTagProcessor
