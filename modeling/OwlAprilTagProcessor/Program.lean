import OwlAprilTagProcessor.TagProcessor.Basic

/-!
# The program

`main` builds the loop from the configuration, the analysis the build selects and the
two session classes, and runs everything on one thread. An exception that leaves a
handler ends the thread, so the sessions refuse the step it comes from.
-/

namespace OwlTagProcessor
open Asio OwlTagConfigLoader OwlAprilTagData OwlGetImage OwlSendResult Session

def Env.program (config : Config) (impl : AprilTagDataImpl) (lib : Libraries)
    (clock : SteadyClock) : Env where
  config
  clock
  analysis := AprilTagData.analysis impl config lib
  resultType := aprilTagDataObject2ResultType lib

/-- The default configuration on a clock that advances by a second with every reading. -/
def Env.sample : Env :=
  .program {} .origin .sample
    { now := fun n => seconds n
      forward := fun _ _ le => seconds_le (Int.ofNat_le.mpr le) }

/-- The step of a session, with the callback invocations made in it. -/
def reporting {Report : Type} (s : HttpSession Report) (after : Option (HttpSession Report)) :
    Option (HttpSession Report × List Report) :=
  match after with
  | none => none
  | some s' => if s'.exception.isSome then none else some (s', s'.calls.drop s.calls.length)

theorem reporting_eq_some {Report : Type} {s s' : HttpSession Report}
    {after : Option (HttpSession Report)} {reports : List Report}
    (h : reporting s after = some (s', reports)) :
    after = some s' ∧ s'.exception = none ∧ reports = s'.calls.drop s.calls.length := by
  cases after with
  | none => simp [reporting] at h
  | some t =>
    cases ht : t.exception with
    | some e => simp [reporting, ht] at h
    | none =>
      simp only [reporting, ht, Option.isSome_none, Bool.false_eq_true, if_false,
        Option.some.injEq, Prod.mk.injEq] at h
      obtain ⟨rfl, rfl⟩ := h
      exact ⟨rfl, ht, rfl⟩

/-- The sessions of the program. Both callers pass a callback. -/
def Net.program (lib : Libraries) :
    Net GetImageSession SendResultSession (Completion OwlGetImage.Response)
      (Completion OwlSendResult.Response) where
  get req := some (GetImage.get req.timeoutMs req.host req.port req.target req.version true)
  getStep g e := reporting g (GetImageSession.step lib g e)
  send req :=
    let p := SendResult.send lib req.timeoutMs req.host req.port req.target req.version
      req.data true
    if p.exception.isSome then none else some p
  sendStep p e := reporting p (SendResultSession.step p e)

abbrev ProgramEvent := Event (Completion OwlGetImage.Response) (Completion OwlSendResult.Response)

abbrev ProgramState := State GetImageSession SendResultSession

end OwlTagProcessor
