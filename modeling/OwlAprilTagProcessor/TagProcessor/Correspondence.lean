import OwlAprilTagProcessor.Program
import OwlAprilTagProcessor.TagProcessor.Steps

/-!
# Frames and reports

A frame goes from the response it is read from, through the callback of its session and
the posted completion handler, to the body of a POST. Between the two hops it waits in the
queue of ready handlers. So at any time the accepted frames are those whose completion has
run, followed by those still in the queue, and the POST bodies are the reports of the former.
-/

/-! ## Where a frame is -/

namespace OwlGetImage
open Asio Session

/-- The image of an accepted response: status 200, both headers as expected, and a body that
decodes. -/
def Response.frame? (lib : Libraries) (res : Response) : Option Mat :=
  if res.result = Http.ok ∧ res.find .contentType = some "image/jpeg" ∧
      res.find .xImageFormat = some "jpg" ∧ (lib.imdecode res.body).empty = false then
    some (lib.imdecode res.body)
  else none

/-- The frame a report delivers. -/
def Report.frame? (r : Report) : Option Mat :=
  if r.ec = .success ∧ r.ok = true ∧ r.img.empty = false then some r.img else none

@[simp] theorem frame?_failure (lib : Libraries) {ec : ErrorCode} :
    ((GetImageSession.exchange lib).failure ec).frame? = none := by
  simp [GetImageSession.exchange, Report.frame?]

/-- The session reports a frame exactly for an accepted response. -/
theorem respond_frame {lib : Libraries} {res : Response} {r : Report}
    (h : GetImageSession.respond lib res = .ok r) : r.frame? = res.frame? lib := by
  rw [GetImageSession.respond_eq] at h
  by_cases h200 : res.result = Http.ok
  · cases hct : res.find .contentType <;> cases hxf : res.find .xImageFormat <;>
      simp only [h200, hct, hxf, if_true, reduceCtorEq, Except.ok.injEq] at h
    obtain rfl := h
    unfold Report.frame? Response.frame?
    split_ifs <;> simp_all
  · simp only [h200, if_false, Except.ok.injEq] at h
    obtain rfl := h
    simp [Report.frame?, Response.frame?, h200]

end OwlGetImage

namespace OwlTagProcessor
open Asio Transition OwlGetImage OwlSendResult Session

/-- The frame an event of the program brings: it reads an accepted response. -/
def ProgramEvent.frame? (lib : Libraries) : ProgramEvent → Option Mat
  | .get _ (.read .success res _) => res.frame? lib
  | _ => none

def Handler.frame? : Handler → Option Mat
  | .getDone r => r.frame?
  | _ => none

def Entry.frame? : Entry → Option Mat
  | .getCompleted r _ => r.frame?
  | _ => none

section Frames

variable {G S : Type} (s : State G S)

/-- The frames whose completion handler has run. -/
abbrev State.handledFrames : List Mat := s.select Entry.frame?

/-- The frames whose completion handler waits to run. -/
def State.queuedFrames : List Mat := s.ready.filterMap Handler.frame?

end Frames

/-- The body of the report on a frame. -/
def Env.reportBody (env : Env) (img : Mat) : Except Exception String :=
  (env.analysis img).map fun o => (env.resultType o).body

/-! ## The sessions of the program -/

/-- A session with a callback delivers the frame it reads, once and before anything else,
whatever becomes of its socket. -/
theorem getStep_frames {lib : Libraries} {g g' : GetImageSession}
    {a : Completion OwlGetImage.Response} {reports : List OwlGetImage.Report}
    (callback : g.callback_ = true)
    (h : (Net.program lib).getStep g a = some (g', reports)) (i : Nat) :
    reports.filterMap OwlGetImage.Report.frame? =
      (ProgramEvent.frame? lib (.get i a)).toList ∧
      g'.callback_ = true := by
  obtain ⟨hstep, clean, rfl⟩ := reporting_eq_some h
  refine ⟨?_, (HttpSession.step_frame hstep).2.2.trans callback⟩
  cases HttpSession.step_handled hstep with
  | resolved now | connected now | written => simp [ProgramEvent.frame?]
  | failed _ _ bad =>
    have other : ProgramEvent.frame? lib (.get i a) = none := by
      cases a with
      | read ec res shutdown =>
        cases ec with
        | success => exact absurd rfl bad
        | _ => rfl
      | _ => rfl
    simp [HttpSession.fail, callback, other]
  | read res shutdown =>
    cases hr : (GetImageSession.exchange lib).respond res with
    | error e => simp [HttpSession.onRead, hr] at clean
    | ok r =>
      have calls : (HttpSession.onRead (GetImageSession.exchange lib)
          { g with outstanding := none } .success res shutdown).calls.drop g.calls.length =
          r :: if HttpSession.badShutdown shutdown then
            [(GetImageSession.exchange lib).failure shutdown] else [] := by
        cases hbad : HttpSession.badShutdown shutdown <;>
          simp [HttpSession.onRead, HttpSession.callBack, HttpSession.fail, hr, hbad, callback]
      -- the shutdown error that may follow carries no frame
      rw [calls, ProgramEvent.frame?, ← respond_frame hr]
      cases hf : r.frame? <;> split_ifs <;> simp [hf]

theorem sendStep_body {lib : Libraries} {p p' : SendResultSession}
    {b : Completion OwlSendResult.Response} {reports : List OwlSendResult.Report}
    (h : (Net.program lib).sendStep p b = some (p', reports)) :
    p'.req_.body = p.req_.body := by
  obtain ⟨hstep, -, -⟩ := reporting_eq_some h
  rw [(HttpSession.step_frame hstep).1]

theorem send_body {lib : Libraries} {req : SendRequest} {p : SendResultSession}
    (h : (Net.program lib).send req = some p) : p.req_.body = req.data.body := by
  simp only [Net.program, Option.ite_none_left_eq_some, Option.some.injEq] at h
  obtain ⟨started, rfl⟩ := h
  cases parsed : lib.url req.target with
  | none => simp [SendResult.send, SendResultSession.run, parsed] at started
  | some url => simp [SendResult.send, SendResultSession.run, parsed]

/-! ## The correspondence -/

/-- After the events `es`: the accepted frames, the reports, and the callbacks that are set. -/
structure Corresponds (env : Env) (lib : Libraries) (es : List ProgramEvent)
    (s : ProgramState) : Prop where
  frames : es.filterMap (ProgramEvent.frame? lib) = s.handledFrames ++ s.queuedFrames
  bodies : s.sends.map (fun p => Except.ok p.req_.body) = s.handledFrames.map env.reportBody
  callbacks : ∀ g ∈ s.gets, g.callback_ = true

theorem started_corresponds (env : Env) (lib : Libraries) : Corresponds env lib [] (started env) :=
  ⟨rfl, rfl, by simp [started, start]⟩

theorem frames_replicate_wait (ec : ErrorCode) (n : Nat) :
    (List.replicate n (Handler.wait ec)).filterMap Handler.frame? = [] := by
  simp [List.filterMap_replicate, Handler.frame?]

theorem filterMap_concat {ι κ : Type} (f : ι → Option κ) (l : List ι) (a : ι) :
    (l ++ [a]).filterMap f = l.filterMap f ++ (f a).toList := by
  cases h : f a <;> simp [h]

theorem map_set_of_eq {ι κ : Type} {f : ι → κ} {l : List ι} {i : Nat} {a b : ι}
    (h : l[i]? = some a) (same : f b = f a) : (l.set i b).map f = l.map f := by
  obtain ⟨hi, ha⟩ := List.getElem?_eq_some_iff.mp h
  refine List.ext_getElem? fun j => ?_
  rw [List.getElem?_map, List.getElem?_map, List.getElem?_set]
  by_cases hij : i = j
  · subst hij
    simp [hi, ha, same]
  · simp [hij]

/-- A completion that does not go on delivers no frame. -/
theorem frame_of_rearm {limit count n : Nat} {r : OwlGetImage.Report} {branch : Branch}
    (hc : complete limit count r.ec r.ok = (branch, n))
    (stops : branch = .proceed → r.img.empty = true) : r.frame? = none := by
  refine if_neg ?_
  rintro ⟨hec, hok, nonempty⟩
  rw [hec, hok] at hc
  have empty := stops (Prod.mk.inj hc).1.symm
  rw [nonempty] at empty
  exact Bool.noConfusion empty

section Step

variable {env : Env} {lib : Libraries} {s s' : ProgramState} {es : List ProgramEvent}
  {e : ProgramEvent}

/-- A step that neither reads a frame nor runs the completion of one. -/
theorem Corresponds.of_frame (inv : Corresponds env lib es s) (quiet : e.frame? lib = none)
    (handled : s'.handledFrames = s.handledFrames) (queued : s'.queuedFrames = s.queuedFrames)
    (sends : s'.sends.map (fun p => p.req_.body) = s.sends.map fun p => p.req_.body)
    (gets : ∀ g ∈ s'.gets, g.callback_ = true) : Corresponds env lib (es ++ [e]) s' := by
  refine ⟨?_, ?_, gets⟩
  · rw [handled, queued, ← inv.frames]
    simp [quiet]
  · rw [handled, ← inv.bodies]
    simpa [Function.comp_def] using congrArg (List.map (Except.ok (ε := Exception))) sends

theorem step_corresponds (inv : Corresponds env lib es s)
    (h : step env (Net.program lib) s e = some s') : Corresponds env lib (es ++ [e]) s' := by
  cases step_stepped h with
  | start =>
    refine inv.of_frame rfl ?_ ?_ rfl inv.callbacks
    · simp [start, State.select, Entry.frame?]
    · cases ht : s.timer_ <;> simp [start, ht, State.queuedFrames, frames_replicate_wait]
  | expire t ht waiting expired =>
    refine inv.of_frame rfl rfl ?_ rfl inv.callbacks
    simp [State.queuedFrames, frames_replicate_wait]
  | abort ec rest hr failed =>
    refine inv.of_frame rfl ?_ ?_ rfl inv.callbacks
    · simp [State.select, Entry.frame?]
    · simp [State.queuedFrames, hr, List.filterMap_cons, Handler.frame?]
  | fetch rest g hr hg =>
    refine inv.of_frame rfl ?_ ?_ rfl ?_
    · simp [State.select, Entry.frame?]
    · simp [State.queuedFrames, hr, List.filterMap_cons, Handler.frame?]
    · intro g' hg'
      rcases List.mem_append.mp hg' with old | new
      · exact inv.callbacks g' old
      · obtain rfl := List.mem_singleton.mp new
        obtain rfl := Option.some.inj hg
        rfl
  | send r rest o p hr hec hok himg ho hp =>
    have frame : r.frame? = some r.img := if_pos ⟨hec, hok, himg⟩
    have body : Except.ok p.req_.body = env.reportBody r.img := by
      rw [send_body hp, Env.reportBody, ho]
      rfl
    refine ⟨?_, ?_, inv.callbacks⟩
    · rw [List.filterMap_append, inv.frames]
      simp [State.select, State.queuedFrames, hr, List.filterMap_cons, ProgramEvent.frame?,
        Handler.frame?, Entry.frame?, frame]
    · rw [State.note_sends, State.note_sends, List.map_append, inv.bodies]
      simp [State.select, Entry.frame?, frame, body]
  | getRearm r rest branch count t hr hc himg ht =>
    have frame := frame_of_rearm hc himg
    refine inv.of_frame rfl ?_ ?_ rfl inv.callbacks
    · simp [State.select, Entry.frame?, frame]
    · simp [State.queuedFrames, hr, Handler.frame?, frame, frames_replicate_wait]
  | sendRearm r rest branch count t hr hc ht =>
    refine inv.of_frame rfl ?_ ?_ rfl inv.callbacks
    · simp [State.select, Entry.frame?]
    · simp [State.queuedFrames, hr, List.filterMap_cons, Handler.frame?, frames_replicate_wait]
  | flush ec =>
    exact inv.of_frame rfl (State.select_flush _ _ _ fun _ => rfl) rfl rfl inv.callbacks
  | get i a g g' reports hg hstep =>
    obtain ⟨frames, callback⟩ :=
      getStep_frames (inv.callbacks g (List.mem_of_getElem? hg)) hstep i
    have posted : (reports.map Handler.getDone).filterMap Handler.frame? =
        reports.filterMap OwlGetImage.Report.frame? := List.filterMap_map ..
    refine ⟨?_, inv.bodies, ?_⟩
    · rw [filterMap_concat, inv.frames, State.queuedFrames, State.queuedFrames,
        List.filterMap_append, posted, frames]
      exact List.append_assoc ..
    · intro g₁ hg₁
      rcases List.mem_or_eq_of_mem_set hg₁ with old | rfl
      · exact inv.callbacks g₁ old
      · exact callback
  | sent i b p p' reports hp hstep =>
    refine inv.of_frame rfl rfl ?_ (map_set_of_eq hp (sendStep_body hstep)) inv.callbacks
    have posted : (reports.map Handler.sendDone).filterMap Handler.frame? = [] := by
      simp [Handler.frame?]
    rw [State.queuedFrames, State.queuedFrames, List.filterMap_append, posted, List.append_nil]

end Step

/-- Whatever the sessions do and in whatever order, the POST bodies are the reports on the
accepted frames in the order they were read, up to those whose completion has not run. -/
theorem posts_are_the_reports_on_the_accepted_frames (env : Env) (lib : Libraries)
    (es : List ProgramEvent) (s : ProgramState)
    (run : exec (step env (Net.program lib)) (started env) es = some s) :
    es.filterMap (ProgramEvent.frame? lib) = s.handledFrames ++ s.queuedFrames ∧
      s.sends.map (fun p => Except.ok p.req_.body) = s.handledFrames.map env.reportBody := by
  have inv : Corresponds env lib es s :=
    exec_induction (started_corresponds env lib)
      (fun _ _ _ _ _ inv h => step_corresponds inv h) run
  exact ⟨inv.frames, inv.bodies⟩

/-- One frame whose session also reports a failed shutdown: the second completion re-arms the
timer, and one report has been posted. -/
theorem one_report_for_a_frame_reported_twice :
    let es : List ProgramEvent :=
      [.expire, .run, .get 0 (.resolved 0 .success), .get 0 (.connected 0 .success),
        .get 0 (.written .success),
        .get 0 (.read .success ⟨200, [(.contentType, "image/jpeg"), (.xImageFormat, "jpg")],
          [0xff, 0xd8]⟩ (.other 32)), .run, .run]
    ∃ s, exec (step .sample (Net.program .sample)) (started .sample) es = some s ∧
      s.sends.length = 1 ∧
      es.filterMap (ProgramEvent.frame? .sample) = s.handledFrames ++ s.queuedFrames ∧
      s.sends.map (fun p => Except.ok p.req_.body) =
        s.handledFrames.map (Env.reportBody .sample) := by
  intro es
  have posted : (exec (step .sample (Net.program .sample)) (started .sample) es).map
      (fun s => s.sends.length) = some 1 := by decide +kernel
  obtain ⟨s, run, posted⟩ := Option.map_eq_some_iff.mp posted
  exact ⟨s, run, posted,
    posts_are_the_reports_on_the_accepted_frames .sample .sample es s run⟩

end OwlTagProcessor
