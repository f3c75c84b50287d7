import OwlAprilTagProcessor.AprilTagData.Center
import OwlAprilTagProcessor.TagProcessor.Faults

/-!
# What the schedule depends on

When the program fetches, reports and waits does not depend on what it fetches and reports.
The loop on sessions that are nothing but their outstanding operation, with outcomes that are
nothing but what the callbacks are told, is an outline of the program: every run of the program
is a run of the outline. So two programs that differ in the addresses, the timeouts of the
sessions, the settings of the detector and even in its implementation run alike, as long as the
outcomes of their exchanges are alike.
-/

/-- An image as far as the loop looks at it: empty or not. -/
def Mat.outline (m : Mat) : Mat := if m.empty then {} else { cols := 1, rows := 1, data := [0] }

def OwlGetImage.Report.outline (r : OwlGetImage.Report) : OwlGetImage.Report :=
  { r with img := r.img.outline }

namespace Session
open Asio

variable {Res Report Report' : Type}

/-- The outcome of an operation, with nothing but `f` of the report left of a response, and
nothing at all of one that raises. -/
def Completion.outline (x : Exchange Res Report) (f : Report → Report') :
    Completion Res → Completion (Option Report')
  | .resolved _ ec => .resolved 0 ec
  | .connected _ ec => .connected 0 ec
  | .written ec => .written ec
  | .read ec res shutdown =>
    .read ec (if ec.failed then none else ((x.respond res).toOption.map f)) shutdown

/-- A session that is nothing but its outstanding operation. -/
def Operation.advance (failure : ErrorCode → Report) :
    Option Operation → Completion (Option Report) → Option (Option Operation × List Report)
  | some .resolve, .resolved _ ec =>
    some (if ec.failed then (none, [failure ec]) else (some .connect, []))
  | some .connect, .connected _ ec =>
    some (if ec.failed then (none, [failure ec]) else (some .write, []))
  | some .write, .written ec =>
    some (if ec.failed then (none, [failure ec]) else (some .read, []))
  | some .read, .read ec res shutdown =>
    if ec.failed then some (none, [failure ec])
    else res.map fun r =>
      (none, if HttpSession.badShutdown shutdown then [r, failure shutdown] else [r])
  | _, _ => none

end Session

namespace OwlTagProcessor
open Asio Transition Session OwlTagConfigLoader OwlAprilTagData OwlGetImage OwlSendResult

/-- The sessions of the outline. -/
def Net.outline : Net (Option Operation) (Option Operation)
    (Completion (Option OwlGetImage.Report)) (Completion (Option OwlSendResult.Report)) where
  get _ := some (some .resolve)
  getStep := Operation.advance fun ec => ⟨ec, false, {}⟩
  send _ := some (some .resolve)
  sendStep := Operation.advance fun ec => ⟨ec, false⟩

/-- The loop of the outline: of the configuration only the section of the loop itself. -/
def Env.outline (env : Env) : Env where
  config := { configTagProcessor := env.config.configTagProcessor }
  clock := env.clock
  analysis _ := .ok {}
  resultType _ := {}

namespace Env

variable (env : Env)

@[simp] theorem outline_clock : env.outline.clock = env.clock := rfl
@[simp] theorem outline_timeStartMs_ : env.outline.timeStartMs_ = env.timeStartMs_ := rfl
@[simp] theorem outline_timeDurationMs_ : env.outline.timeDurationMs_ = env.timeDurationMs_ := rfl
@[simp] theorem outline_timeoutCountLimit_ :
    env.outline.timeoutCountLimit_ = env.timeoutCountLimit_ := rfl
@[simp] theorem outline_measure (d : Int) (t : SteadyTimer) (n : Nat) :
    env.outline.measure d t n = env.measure d t n := rfl

end Env

def Handler.outline : Handler → Handler
  | .getDone r => .getDone r.outline
  | h => h

/-- Requests without their contents. -/
def Entry.outline (env : Env) : Entry → Entry
  | .get _ => .get env.outline.getRequest
  | .post _ => .post (env.outline.sendRequest {})
  | .getCompleted r branch => .getCompleted r.outline branch
  | e => e

def State.outline (env : Env) (s : ProgramState) : State (Option Operation) (Option Operation) where
  timer_ := s.timer_
  timeoutCount_ := s.timeoutCount_
  fpsTracer := s.fpsTracer
  reads := s.reads
  ready := s.ready.map Handler.outline
  gets := s.gets.map (·.outstanding)
  sends := s.sends.map (·.outstanding)
  history := s.history.map (Entry.outline env)

def ProgramEvent.outline (lib : Libraries) : ProgramEvent →
    Event (Completion (Option OwlGetImage.Report)) (Completion (Option OwlSendResult.Report))
  | .start => .start
  | .expire => .expire
  | .run => .run
  | .flush ec => .flush ec
  | .get i a => .get i (a.outline (GetImageSession.exchange lib) OwlGetImage.Report.outline)
  | .send i b => .send i (b.outline SendResultSession.exchange id)

section Step

variable (env : Env) (lib : Libraries) (s : ProgramState)

variable {env lib}

end Step

/-! ## The law -/

end OwlTagProcessor
