import OwlAprilTagProcessor.Library.Transition
import OwlAprilTagProcessor.TagProcessor.Basic

/-!
# What a step of the loop can do

Every invariant of the loop is proved from `Stepped`, which lists the outcomes of a step
once and for all: no later proof unfolds a handler.
-/

namespace OwlTagProcessor
open Asio

variable {G S α β : Type}

/-! ## The three continuations are one -/

section Measure

variable (env : Env) (d : Int) (t : SteadyTimer) (n : Nat)

@[simp] theorem Env.measure_waits : (env.measure d t n).waits = t.waits := by
  unfold Env.measure; split_ifs <;> rfl
@[simp] theorem Env.measure_expiry : (env.measure d t n).expiry = t.expiry := by
  unfold Env.measure; split_ifs <;> rfl
@[simp] theorem Env.measure_frameAt : (env.measure d t n).frameAt = env.clock.now n := by
  unfold Env.measure; split_ifs <;> rfl

end Measure

/-- The state after `setNextDuration` and `async_wait` on the timer `t`. -/
@[simps] def State.rearmed (env : Env) (t : SteadyTimer) (s : State G S) : State G S :=
  let call := env.measure (milliseconds env.timeDurationMs_) t s.reads
  { s with
    fpsTracer := s.fpsTracer.frame (toMilliseconds (call.frameAt - t.expiry))
    timer_ := some ⟨call.next, 1⟩
    ready := s.ready ++ List.replicate t.waits (.wait .operationAborted)
    reads := s.reads + call.reads
    history := s.history ++ [.rearmed call] }

/-! ## Reading the history -/

section Select

variable {δ : Type} (f : Entry → Option δ) (s : State G S)

/-- The entries of the history that `f` picks out. -/
def State.select : List δ := s.history.filterMap f

@[simp] theorem State.select_note (e : Entry) :
    (s.note e).select f = s.select f ++ (f e).toList := by
  cases h : f e <;> simp [State.select, h]

@[simp] theorem State.select_rearmed (env : Env) (t : SteadyTimer) :
    (s.rearmed env t).select f = s.select f ++
      (f (.rearmed (env.measure (milliseconds env.timeDurationMs_) t s.reads))).toList := by
  cases h : f (.rearmed (env.measure (milliseconds env.timeDurationMs_) t s.reads)) <;>
    simp [State.select, h]

theorem State.select_flush (ec : ErrorCode) (silent : ∀ r, f (.flushed r) = none) :
    (flush ec s).select f = s.select f := by
  simp only [State.select, flush, List.filterMap_append]
  cases (s.fpsTracer.flushFps ec).2 <;> simp [silent]

end Select

def Entry.rearm? : Entry → Option Rearm
  | .rearmed call => some call
  | _ => none

/-- The calls of `setNextDuration` made so far. -/
abbrev State.rearms (s : State G S) : List Rearm := s.select Entry.rearm?

/-! ## Outcomes -/

theorem rearm_eq_some {env : Env} {s s' : State G S} :
    rearm env s = some s' ↔ ∃ t, s.timer_ = some t ∧ s.rearmed env t = s' := by
  cases ht : s.timer_ with
  | none => simp [rearm, setNextDuration, ht]
  | some t =>
    simp [rearm, setNextDuration, asyncWait, ht, State.rearmed, SteadyTimer.expiresAt,
      SteadyTimer.asyncWait]

theorem complete_proceed {limit count : Nat} {ec : ErrorCode} {ok : Bool} {n : Nat}
    (h : complete limit count ec ok = (.proceed, n)) : ec = .success ∧ ok = true ∧ n = 0 := by
  unfold complete at h
  by_cases hf : ec.failed
  · rw [if_pos hf] at h
    dsimp only at h
    split_ifs at h <;> simp at h
  · rw [if_neg hf] at h
    cases ok
    · simp at h
    · refine ⟨ErrorCode.failed_eq_false.mp (by simpa using hf), rfl, ?_⟩
      simpa using h.symm

/-- The outcomes of a step, one constructor for each. -/
inductive Stepped (env : Env) (net : Net G S α β) (s : State G S) :
    Event α β → State G S → Prop where
  | start : Stepped env net s .start (start env s)
  | expire (t : SteadyTimer) : s.timer_ = some t → 0 < t.waits →
      t.expiry ≤ env.clock.now s.reads →
      Stepped env net s .expire
        { s with
          timer_ := some t.release
          ready := s.ready ++ List.replicate t.waits (.wait .success)
          reads := s.reads + 1 }
  | abort (ec : ErrorCode) (rest : List Handler) : s.ready = .wait ec :: rest →
      ec ≠ .success → Stepped env net s .run ({ s with ready := rest }.note (.aborted ec))
  | fetch (rest : List Handler) (g : G) : s.ready = .wait .success :: rest →
      net.get env.getRequest = some g →
      Stepped env net s .run
        ({ s with ready := rest, gets := s.gets ++ [g] }.note (.get env.getRequest))
  | send (r : OwlGetImage.Report) (rest : List Handler)
      (o : OwlAprilTagData.AprilTagDataObject) (p : S) :
      s.ready = .getDone r :: rest → r.ec = .success → r.ok = true → r.img.empty = false →
      env.analysis r.img = .ok o → net.send (env.sendRequest (env.resultType o)) = some p →
      Stepped env net s .run
        (({ s with
            ready := rest, timeoutCount_ := 0, sends := s.sends ++ [p] }.note
            (.getCompleted r .proceed)).note
          (.post (env.sendRequest (env.resultType o))))
  | getRearm (r : OwlGetImage.Report) (rest : List Handler) (branch : Branch) (count : Nat)
      (t : SteadyTimer) :
      s.ready = .getDone r :: rest →
      complete env.timeoutCountLimit_ s.timeoutCount_ r.ec r.ok = (branch, count) →
      (branch = .proceed → r.img.empty = true) → s.timer_ = some t →
      Stepped env net s .run
        (({ s with ready := rest, timeoutCount_ := count }.note
          (.getCompleted r branch)).rearmed env t)
  | sendRearm (r : OwlSendResult.Report) (rest : List Handler) (branch : Branch) (count : Nat)
      (t : SteadyTimer) :
      s.ready = .sendDone r :: rest →
      complete env.timeoutCountLimit_ s.timeoutCount_ r.ec r.ok = (branch, count) →
      s.timer_ = some t →
      Stepped env net s .run
        (({ s with ready := rest, timeoutCount_ := count }.note
          (.sendCompleted r branch)).rearmed env t)
  | flush (ec : ErrorCode) : Stepped env net s (.flush ec) (flush ec s)
  | get (i : Nat) (a : α) (g g' : G) (reports : List OwlGetImage.Report) :
      s.gets[i]? = some g → net.getStep g a = some (g', reports) →
      Stepped env net s (.get i a)
        { s with gets := s.gets.set i g', ready := s.ready ++ reports.map .getDone }
  | sent (i : Nat) (b : β) (p p' : S) (reports : List OwlSendResult.Report) :
      s.sends[i]? = some p → net.sendStep p b = some (p', reports) →
      Stepped env net s (.send i b)
        { s with sends := s.sends.set i p', ready := s.ready ++ reports.map .sendDone }

theorem getCompleted_stepped {env : Env} {net : Net G S α β} {s s' : State G S}
    {r : OwlGetImage.Report} {rest : List Handler} (hr : s.ready = .getDone r :: rest)
    (h : getCompleted env net r { s with ready := rest } = some s') :
    Stepped env net s .run s' := by
  rcases hc : complete env.timeoutCountLimit_ s.timeoutCount_ r.ec r.ok with ⟨branch, count⟩
  simp only [getCompleted, hc] at h
  cases branch with
  | skip | restart =>
    obtain ⟨t, ht, rfl⟩ := rearm_eq_some.mp h
    exact .getRearm r rest _ count t hr hc (by simp) ht
  | proceed =>
    obtain ⟨hec, hok, rfl⟩ := complete_proceed hc
    cases he : r.img.empty with
    | true =>
      rw [he] at h
      obtain ⟨t, ht, rfl⟩ := rearm_eq_some.mp h
      exact .getRearm r rest .proceed 0 t hr hc (fun _ => he) ht
    | false =>
      simp only [he, Bool.false_eq_true, if_false, toAnalysisAprilTag] at h
      cases ho : env.analysis r.img with
      | error e => simp [ho] at h
      | ok o =>
        simp only [ho, toSendResult, Option.map_eq_some_iff] at h
        obtain ⟨p, hp, rfl⟩ := h
        exact .send r rest o p hr hec hok he ho hp

theorem step_stepped {env : Env} {net : Net G S α β} {s s' : State G S} {e : Event α β}
    (h : step env net s e = some s') : Stepped env net s e s' := by
  cases e with
  | start => exact Option.some.inj h ▸ .start
  | expire =>
    simp only [step, expire] at h
    cases ht : s.timer_ with
    | none => simp [ht] at h
    | some t =>
      simp only [ht, Option.ite_none_right_eq_some, Option.some.injEq] at h
      obtain ⟨⟨waiting, passed⟩, rfl⟩ := h
      exact .expire t ht waiting passed
  | run =>
    simp only [step, run] at h
    cases hr : s.ready with
    | nil => simp [hr] at h
    | cons first rest =>
      simp only [hr] at h
      cases first with
      | wait ec =>
        simp only [runHandler, toGetImage] at h
        cases hec : ec.failed with
        | true =>
          simp only [hec, if_true, Option.some.injEq] at h
          exact h ▸ .abort ec rest hr (ErrorCode.failed_eq_true.mp hec)
        | false =>
          obtain rfl := ErrorCode.failed_eq_false.mp hec
          simp only [hec, Bool.false_eq_true, if_false, Option.map_eq_some_iff] at h
          obtain ⟨g, hg, rfl⟩ := h
          exact .fetch rest g hr hg
      | getDone r => exact getCompleted_stepped hr h
      | sendDone r =>
        rcases hc : complete env.timeoutCountLimit_ s.timeoutCount_ r.ec r.ok with
          ⟨branch, count⟩
        have hrearm : rearm env ({ s with ready := rest, timeoutCount_ := count }.note
            (.sendCompleted r branch)) = some s' := by
          simp only [runHandler, sendCompleted, hc] at h
          cases branch <;> exact h
        obtain ⟨t, ht, rfl⟩ := rearm_eq_some.mp hrearm
        exact .sendRearm r rest branch count t hr hc ht
  | flush ec => exact Option.some.inj h ▸ .flush ec
  | get i a =>
    simp only [step, stepGet, Option.bind_eq_bind, Option.bind_eq_some_iff] at h
    obtain ⟨g, hg, ⟨g', reports⟩, hstep, hs⟩ := h
    exact Option.some.inj hs ▸ .get i a g g' reports hg hstep
  | send i b =>
    simp only [step, stepSend, Option.bind_eq_bind, Option.bind_eq_some_iff] at h
    obtain ⟨p, hp, ⟨p', reports⟩, hstep, hs⟩ := h
    exact Option.some.inj hs ▸ .sent i b p p' reports hp hstep

/-- Conversely, each outcome is one. -/
theorem step_of_stepped {env : Env} {net : Net G S α β} {s s' : State G S} {e : Event α β}
    (h : Stepped env net s e s') : step env net s e = some s' := by
  cases h with
  | start | flush ec => rfl
  | expire t ht waiting passed => simp [step, expire, ht, waiting, passed]
  | abort ec rest hr failed =>
    simp [step, run, hr, runHandler, toGetImage, ErrorCode.failed_eq_true.mpr failed]
  | fetch rest g hr hg => simp [step, run, hr, runHandler, toGetImage, hg]
  | send r rest o p hr hec hok himg ho hp =>
    simp [step, run, hr, runHandler, getCompleted, complete, hec, hok, himg,
      toAnalysisAprilTag, ho, toSendResult, hp, State.note]
  | getRearm r rest branch count t hr hc himg ht =>
    have armed : rearm env ({ s with ready := rest, timeoutCount_ := count }.note
        (.getCompleted r branch)) = some _ := rearm_eq_some.mpr ⟨t, ht, rfl⟩
    simp only [step, run, hr, runHandler, getCompleted, hc]
    cases branch with
    | skip | restart => exact armed
    | proceed =>
      rw [if_pos (himg rfl)]
      exact armed
  | sendRearm r rest branch count t hr hc ht =>
    have armed : rearm env ({ s with ready := rest, timeoutCount_ := count }.note
        (.sendCompleted r branch)) = some _ := rearm_eq_some.mpr ⟨t, ht, rfl⟩
    simp only [step, run, hr, runHandler, sendCompleted, hc]
    cases branch <;> exact armed
  | get i a g g' reports hg hstep => simp [step, stepGet, hg, hstep]
  | sent i b p p' reports hp hstep => simp [step, stepSend, hp, hstep]

end OwlTagProcessor
