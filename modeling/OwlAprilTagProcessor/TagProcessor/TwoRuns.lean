import OwlAprilTagProcessor.Program
import OwlAprilTagProcessor.TagProcessor.Steps

/-!
# Two settings that make no difference

The limit of the timeout counter decides between two branches that do the same, and the
constructor of the detector passes a constant where it could pass the configured number
of bits. Two runs of the program that differ in these settings only are compared through
a view of the state that leaves out the counter and the branch.
-/

namespace OwlTagConfigLoader

/-- The configuration with other values of the two settings. -/
def Config.withSettings (config : Config) (limit : Int64) (bits : Int32) : Config :=
  { config with
    configTagProcessor := { config.configTagProcessor with timeoutCountLimit := limit }
    configAprilTagData :=
      { config.configAprilTagData with aprilTagDetectorMaxHammingBitsCorrected := bits } }

end OwlTagConfigLoader

namespace OwlTagProcessor
open Asio Transition OwlTagConfigLoader OwlAprilTagData

variable {G S α β : Type}

/-! ## What is visible of a run -/

/-- Requests, expiries, failed waits and figures; not which branch a completion took. -/
def Entry.visible : Entry → Option Entry
  | .getCompleted _ _ | .sendCompleted _ _ => none
  | e => some e

/-- Everything but the counter and the branches. -/
def State.view (s : State G S) : State G S :=
  { s with timeoutCount_ := 0, history := s.select Entry.visible }

def Env.withSettings (env : Env) (limit : Int64) (bits : Int32) : Env :=
  { env with config := env.config.withSettings limit bits }

/-- The analysis never looks at them. -/
theorem Env.program_withSettings (config : Config) (impl : AprilTagDataImpl) (lib : Libraries)
    (clock : SteadyClock) (limit : Int64) (bits : Int32) :
    Env.program (config.withSettings limit bits) impl lib clock =
      (Env.program config impl lib clock).withSettings limit bits := by
  cases impl <;> rfl

/-! ## Every operation acts on the view -/

theorem visible_idem (l : List Entry) :
    (l.filterMap Entry.visible).filterMap Entry.visible = l.filterMap Entry.visible := by
  rw [List.filterMap_filterMap]
  congr 1
  funext e
  cases e <;> rfl

section View

variable (env : Env) (net : Net G S α β) (s : State G S)

/-- A completion itself is not visible. -/
theorem view_completed {e : Entry} (hidden : e.visible = none) (count : Nat) :
    ({ s with timeoutCount_ := count }.note e).view = s.view := by
  simp [State.view, State.select, State.note, hidden]

theorem rearm_view : (rearm env s).map State.view = (rearm env s.view).map State.view := by
  cases ht : s.timer_ <;>
    simp [rearm, setNextDuration, asyncWait, State.view, State.select, ht, visible_idem]

theorem toGetImage_view (ec : ErrorCode) :
    (toGetImage env net ec s).map State.view = (toGetImage env net ec s.view).map State.view := by
  unfold toGetImage
  split_ifs
  · simp [State.view, State.select, State.note, visible_idem]
  · cases net.get env.getRequest <;>
      simp [State.view, State.select, State.note, visible_idem]

theorem toSendResult_view (o : AprilTagResultType) :
    (toSendResult env net o s).map State.view = (toSendResult env net o s.view).map State.view := by
  unfold toSendResult
  cases net.send (env.sendRequest o) <;>
    simp [State.view, State.select, State.note, visible_idem]

theorem toAnalysisAprilTag_view (img : Mat) :
    (toAnalysisAprilTag env net img s).map State.view =
      (toAnalysisAprilTag env net img s.view).map State.view := by
  unfold toAnalysisAprilTag
  cases env.analysis img with
  | error e => rfl
  | ok o => exact toSendResult_view env net s (env.resultType o)

theorem start_view : (start env s).view = (start env s.view).view := by
  simp [start, State.view, State.select, visible_idem]

theorem expire_view : (expire env s).map State.view = (expire env s.view).map State.view := by
  cases ht : s.timer_ with
  | none => simp [expire, State.view, ht]
  | some t =>
    by_cases passed : 0 < t.waits ∧ t.expiry ≤ env.clock.now s.reads <;>
      simp [expire, State.view, State.select, ht, passed, visible_idem]

theorem flush_view (ec : ErrorCode) : (flush ec s).view = (flush ec s.view).view := by
  simp [flush, State.view, State.select, visible_idem]

theorem stepGet_view (i : Nat) (a : α) :
    (stepGet net s i a).map State.view = (stepGet net s.view i a).map State.view := by
  cases hg : s.gets[i]? with
  | none => simp [stepGet, State.view, hg]
  | some g =>
    cases hstep : net.getStep g a <;>
      simp [stepGet, State.view, State.select, hg, hstep, visible_idem]

theorem stepSend_view (i : Nat) (b : β) :
    (stepSend net s i b).map State.view = (stepSend net s.view i b).map State.view := by
  cases hp : s.sends[i]? with
  | none => simp [stepSend, State.view, hp]
  | some p =>
    cases hstep : net.sendStep p b <;>
      simp [stepSend, State.view, State.select, hp, hstep, visible_idem]

/-- Whatever the counter and the limit are, a completion does one of two things, and its
arguments alone decide which. -/
theorem getCompleted_view (r : OwlGetImage.Report) :
    (getCompleted env net r s).map State.view =
      if r.ec = .success ∧ r.ok = true ∧ r.img.empty = false then
        (toAnalysisAprilTag env net r.img s.view).map State.view
      else (rearm env s.view).map State.view := by
  have completed (branch : Branch) (count : Nat) :
      ({ s with timeoutCount_ := count }.note (.getCompleted r branch)).view = s.view :=
    view_completed s rfl count
  rcases hc : complete env.timeoutCountLimit_ s.timeoutCount_ r.ec r.ok with ⟨branch, count⟩
  simp only [getCompleted, hc]
  cases branch with
  | skip | restart =>
    have stopped : ¬ (r.ec = .success ∧ r.ok = true ∧ r.img.empty = false) := by
      rintro ⟨hec, hok, -⟩
      rw [hec, hok] at hc
      exact Branch.noConfusion (Prod.mk.inj hc).1
    rw [if_neg stopped, ← completed _ count]
    exact rearm_view ..
  | proceed =>
    obtain ⟨hec, hok, -⟩ := complete_proceed hc
    cases he : r.img.empty with
    | true =>
      simp only [if_true, Bool.true_eq_false, and_false, if_false]
      rw [← completed .proceed count]
      exact rearm_view ..
    | false =>
      simp only [Bool.false_eq_true, if_false]
      rw [if_pos ⟨hec, hok, trivial⟩, ← completed .proceed count]
      exact toAnalysisAprilTag_view ..

theorem sendCompleted_view (r : OwlSendResult.Report) :
    (sendCompleted env r s).map State.view = (rearm env s.view).map State.view := by
  have completed (branch : Branch) (count : Nat) :
      (rearm env ({ s with timeoutCount_ := count }.note (.sendCompleted r branch))).map
        State.view = (rearm env s.view).map State.view := by
    rw [rearm_view, view_completed s rfl]
  rcases hc : complete env.timeoutCountLimit_ s.timeoutCount_ r.ec r.ok with ⟨branch, count⟩
  simp only [sendCompleted, hc]
  cases branch <;> exact completed _ count

/-- The limit may differ between the two sides: no operation but `complete` reads it. -/
theorem runHandler_view (limit : Int64) (bits : Int32) (h : Handler) :
    (runHandler (env.withSettings limit bits) net s h).map State.view =
      (runHandler env net s.view h).map State.view := by
  have idem : s.view.view = s.view := by simp [State.view, State.select, visible_idem]
  cases h with
  | wait ec => exact toGetImage_view env net s ec
  | getDone r =>
    simp only [runHandler, getCompleted_view, idem]
    rfl
  | sendDone r =>
    simp only [runHandler, sendCompleted_view, idem]
    rfl

theorem step_view (limit : Int64) (bits : Int32) (e : Event α β) :
    (step (env.withSettings limit bits) net s e).map State.view =
      (step env net s.view e).map State.view := by
  cases e with
  | start => exact congrArg some (start_view env s)
  | expire => exact expire_view env s
  | run =>
    cases hr : s.ready with
    | nil => simp [step, run, State.view, hr]
    | cons h rest =>
      have popped : ({ s with ready := rest }).view = { s.view with ready := rest } := rfl
      have ran := runHandler_view env net { s with ready := rest } limit bits h
      have hr' : s.view.ready = h :: rest := hr
      simp only [step, run, hr, hr', ran, popped]
  | flush ec => exact congrArg some (flush_view s ec)
  | get i a => exact stepGet_view net s i a
  | send i b => exact stepSend_view net s i b

end View

/-! ## The two-run law -/

/-- Any two runs on the same events, clock and libraries, under configurations that differ
at most in the two settings, are accepted alike and look the same: the same requests, the
same expiries, the same sessions and the same queue. -/
theorem settings_are_unobservable (config : Config) (impl : AprilTagDataImpl) (lib : Libraries)
    (clock : SteadyClock) (net : Net G S α β) (limit : Int64) (bits : Int32) (es : List (Event α β)) :
    let env := Env.program config impl lib clock
    let env' := Env.program (config.withSettings limit bits) impl lib clock
    (exec (step env net) (started env) es).map State.view =
      (exec (step env' net) (started env') es).map State.view := by
  intro env env'
  have changed : env' = env.withSettings limit bits := Env.program_withSettings ..
  have kept (s : State G S) (e : Event α β) :
      (step env net s e).map State.view = (step env net s.view e).map State.view :=
    step_view env net s config.configTagProcessor.timeoutCountLimit
      config.configAprilTagData.aprilTagDetectorMaxHammingBitsCorrected e
  rw [changed]
  refine exec_view_eq State.view State.view ?_ rfl es
  intro s t e same
  rw [kept, step_view, same]

end OwlTagProcessor
