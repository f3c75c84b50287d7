import OwlAprilTagProcessor.TagProcessor.Progress

/-!
# How far cycles overlap

A session whose shutdown fails reports twice, and a second `start` arms a timer beside the
cycle under way. Either adds a chain of events to the loop, and nothing else does. So there are
at most as many requests under way as there were such faults, and one more. Every number of
faults can lead to that many.
-/

namespace Session
open Asio

variable {Res Report : Type}

/-- The shutdown is reported beside the response. -/
def Completion.isRepeated : Completion Res → Bool
  | .read .success _ shutdown => HttpSession.badShutdown shutdown
  | _ => false

/-- An operation is outstanding. -/
def HttpSession.isUnderWay (s : HttpSession Report) : Bool := s.outstanding.isSome

end Session

namespace OwlTagProcessor
open Asio Transition Session OwlGetImage OwlSendResult

def ProgramEvent.isFault : ProgramEvent → Bool
  | .start => true
  | .get _ a => a.isRepeated
  | .send _ b => b.isRepeated
  | _ => false

namespace State

/-- The requests under way. -/
def requests (s : ProgramState) : Nat :=
  s.gets.countP HttpSession.isUnderWay + s.sends.countP HttpSession.isUnderWay

/-- The chains of events that go on: each waits, has a handler ready or a request under way. -/
def chains (s : ProgramState) : Nat :=
  s.pendingWaits + s.ready.countP Handler.isLive + s.requests

end State

/-! ## One step -/

/-- A report takes over from the session that makes it. -/
theorem reporting_chains {Res Report : Type} {x : Exchange Res Report} {s s' : HttpSession Report}
    {e : Completion Res} {reports : List Report}
    (h : reporting s (HttpSession.step x s e) = some (s', reports)) :
    reports.length + s'.isUnderWay.toNat ≤ s.isUnderWay.toNat + e.isRepeated.toNat := by
  obtain ⟨hstep, clean, rfl⟩ := reporting_eq_some h
  cases HttpSession.step_handled hstep with
  | resolved now hop | connected now hop | written hop => simp [HttpSession.isUnderWay, hop]
  | failed _ live _ =>
    have busy : s.isUnderWay = true := Option.isSome_iff_ne_none.mpr live
    rw [busy, HttpSession.isUnderWay, HttpSession.fail_outstanding]
    cases hcall : s.callback_ <;> simp [HttpSession.fail, hcall] at clean ⊢
  | read res shutdown hop =>
    have busy : s.isUnderWay = true := by simp [HttpSession.isUnderWay, hop]
    rw [busy, HttpSession.isUnderWay, HttpSession.onRead_outstanding]
    cases hr : x.respond res with
    | error ex => simp [HttpSession.onRead, hr] at clean
    | ok r =>
      cases hcall : s.callback_ <;> cases hbad : HttpSession.badShutdown shutdown <;>
        simp [HttpSession.onRead, HttpSession.callBack, HttpSession.fail, hr, hcall, hbad,
          Completion.isRepeated] at clean ⊢

theorem isLive_replicate_wait (ec : ErrorCode) (n : Nat) :
    (List.replicate n (Handler.wait ec)).countP Handler.isLive = if ec.failed then 0 else n := by
  cases hec : ec.failed <;> simp [List.countP_replicate, Handler.isLive, hec]

theorem countP_set_add {ι : Type} {p : ι → Bool} {l : List ι} {i : Nat} {a : ι} (b : ι)
    (h : l[i]? = some a) :
    (l.set i b).countP p + (p a).toNat = l.countP p + (p b).toNat := by
  obtain ⟨hi, rfl⟩ := List.getElem?_eq_some_iff.mp h
  have counted : p l[i] = true → 0 < l.countP p := fun hp =>
    List.countP_pos_iff.mpr ⟨_, List.getElem_mem hi, hp⟩
  rw [List.countP_set hi]
  cases hp : p l[i] <;> cases p b <;> grind

section Step

variable {env : Env} {lib : Libraries} {s s' : ProgramState}

/-- A completion that re-arms the timer goes on as the new wait. -/
theorem chains_rearmed {h : Handler} {rest : List Handler} (hr : s.ready = h :: rest)
    (live : h.isLive = true) (count : Nat) (e : Entry) (t : SteadyTimer) :
    (({ s with ready := rest, timeoutCount_ := count }.note e).rearmed env t).chains ≤
      s.chains := by
  simp only [State.chains, State.requests, State.pendingWaits, State.rearmed_timer_,
    State.rearmed_ready, State.rearmed_gets, State.rearmed_sends, State.note_ready,
    State.note_gets, State.note_sends, hr, List.countP_append, List.countP_cons, live,
    isLive_replicate_wait]
  simp [ErrorCode.failed]
  omega

/-- Only a fault begins a chain. -/
theorem step_chains {e : ProgramEvent} (h : step env (Net.program lib) s e = some s') :
    s'.chains ≤ s.chains + e.isFault.toNat := by
  cases step_stepped h with
  | start =>
    cases ht : s.timer_ <;>
      simp [start, ht, State.chains, State.requests, State.pendingWaits, SteadyTimer.asyncWait,
        isLive_replicate_wait, ErrorCode.failed, ProgramEvent.isFault] <;> omega
  | expire t ht waiting expired =>
    simp only [State.chains, State.requests, State.pendingWaits, ht, List.countP_append,
      isLive_replicate_wait]
    simp
    omega
  | abort ec rest hr failed =>
    simp [State.chains, State.requests, State.pendingWaits, hr, Handler.isLive,
      ErrorCode.failed_eq_true.mpr failed]
  | fetch rest g hr hg =>
    have busy : g.isUnderWay = true := Option.some.inj hg ▸ rfl
    simp [State.chains, State.requests, State.pendingWaits, hr, Handler.isLive, busy]
    omega
  | send r rest o p hr hec hok himg ho hp =>
    have busy : p.isUnderWay = true := by simp [HttpSession.isUnderWay, send_outstanding hp]
    have live : (Handler.getDone r).isLive = true := rfl
    simp [State.chains, State.requests, State.pendingWaits, hr, live, busy]
    omega
  | getRearm r rest branch count t hr hc himg ht =>
    exact Nat.le_add_right_of_le (chains_rearmed hr rfl count _ t)
  | sendRearm r rest branch count t hr hc ht =>
    exact Nat.le_add_right_of_le (chains_rearmed hr rfl count _ t)
  | flush ec => exact Nat.le_add_right _ _
  | get i a g g' reports hg hstep =>
    have handed := reporting_chains hstep
    have moved := countP_set_add (p := HttpSession.isUnderWay) g' hg
    have posted : (reports.map Handler.getDone).countP Handler.isLive = reports.length := by
      simp [Handler.isLive]
    simp only [State.chains, State.requests, State.pendingWaits, List.countP_append, posted,
      ProgramEvent.isFault]
    omega
  | sent i b p p' reports hp hstep =>
    have handed := reporting_chains hstep
    have moved := countP_set_add (p := HttpSession.isUnderWay) p' hp
    have posted : (reports.map Handler.sendDone).countP Handler.isLive = reports.length := by
      simp [Handler.isLive]
    simp only [State.chains, State.requests, State.pendingWaits, List.countP_append, posted,
      ProgramEvent.isFault]
    omega

end Step

/-! ## As many as the faults -/

/-- What a GET session does by itself, with the reports it makes. -/
abbrev sessionStep {G S α β : Type} (net : Net G S α β) (p : G × List OwlGetImage.Report) (a : α) :
    Option (G × List OwlGetImage.Report) :=
  (net.getStep p.1 a).map fun q => (q.1, p.2 ++ q.2)

/-- The loop may let one session run to its end. -/
theorem exec_session {G S α β : Type} (env : Env) {net : Net G S α β} {s : State G S} {i : Nat}
    {g g' : G} {as : List α} {reports : List OwlGetImage.Report} (hg : s.gets[i]? = some g)
    (run : exec (sessionStep net) (g, []) as = some (g', reports)) :
    exec (step env net) s (as.map (Event.get i)) = some
      { s with gets := s.gets.set i g', ready := s.ready ++ reports.map .getDone } := by
  obtain ⟨hi, made⟩ := List.getElem?_eq_some_iff.mp hg
  refine exec_induction (P := fun as p =>
    exec (step env net) s (as.map (Event.get i)) = some
      { s with gets := s.gets.set i p.1, ready := s.ready ++ p.2.map .getDone }) ?_ ?_ run
  · simp [← made]
  · intro as p a q _ sofar last
    obtain ⟨⟨g', more⟩, stepped, rfl⟩ := Option.map_eq_some_iff.mp last
    rw [List.map_append, List.map_singleton, exec_concat, sofar, Option.bind_some]
    refine (step_of_stepped (.get i a p.1 g' more ?_ stepped)).trans ?_
    · simp [hi]
    · simp

/-- A frame and a failed shutdown. -/
def forking : List (Completion OwlGetImage.Response) :=
  [.resolved 0 .success, .connected 0 .success, .written .success,
    .read .success ⟨200, [(.contentType, "image/jpeg"), (.xImageFormat, "jpg")], [0xff, 0xd8]⟩
      (.other 32)]

theorem forking_session : ∃ g img o p,
    (Net.program .sample).get Env.sample.getRequest = some g ∧
    (∃ g', exec (sessionStep (Net.program .sample)) (g, []) forking =
      some (g', [⟨.success, true, img⟩, ⟨.other 32, false, {}⟩]) ∧ g'.isUnderWay = false) ∧
    img.empty = false ∧ Env.sample.analysis img = .ok o ∧
    (Net.program .sample).send (Env.sample.sendRequest (Env.sample.resultType o)) = some p := by
  refine ⟨_, _, _, _, rfl, ⟨_, rfl, rfl⟩, rfl, rfl, rfl⟩

/-- A cycle with one fault: its POST stays under way, and the timer is armed again. -/
theorem Waits.fault {n : Nat} {s : ProgramState} (waits : Waits n s)
    (idle : s.gets.countP (·.isUnderWay) = 0) :
    ∃ es t, exec (step .sample (Net.program .sample)) s es = some t ∧ Waits (n + 1) t ∧
      es.countP ProgramEvent.isFault = 1 ∧ .start ∉ es ∧
      t.gets.countP (·.isUnderWay) = 0 ∧
      t.sends.countP (·.isUnderWay) = s.sends.countP (·.isUnderWay) + 1 := by
  obtain ⟨g, img, o, p, starts, ⟨g', forks, ended⟩, frame, analysed, posted⟩ := forking_session
  obtain ⟨s₁, x, fetch, timer₁, expired, reads₁, ready₁, gets₁, sends₁⟩ := waits.fetch starts
  have index : s₁.gets[n]? = some g := by simp [gets₁, ← waits.gets]
  obtain ⟨s₂, session, ready₂, gets₂, sends₂, timer₂, reads₂⟩ :
      ∃ s₂, exec (step .sample (Net.program .sample)) s₁ (forking.map (Event.get n)) = some s₂ ∧
        s₂.ready = [.getDone ⟨.success, true, img⟩, .getDone ⟨.other 32, false, {}⟩] ∧
        s₂.gets = s.gets ++ [g'] ∧ s₂.sends = s.sends ∧ s₂.timer_ = some ⟨x, 0⟩ ∧
        s₂.reads = s.reads + 1 :=
    ⟨_, exec_session .sample index forks, by simp [ready₁], by simp [gets₁, ← waits.gets], sends₁,
      timer₁, reads₁⟩
  obtain ⟨s₃, send, ready₃, gets₃, sends₃, timer₃, reads₃⟩ :
      ∃ s₃, step .sample (Net.program .sample) s₂ .run = some s₃ ∧
        s₃.ready = [.getDone ⟨.other 32, false, {}⟩] ∧ s₃.gets = s.gets ++ [g'] ∧
        s₃.sends = s.sends ++ [p] ∧ s₃.timer_ = some ⟨x, 0⟩ ∧ s₃.reads = s.reads + 1 :=
    ⟨_, step_of_stepped (.send _ _ o p ready₂ rfl rfl frame analysed posted), rfl, gets₂,
      by simp [sends₂], timer₂, reads₂⟩
  obtain ⟨t, rearm, again, gets, sends⟩ :=
    Waits.of_failure ready₃ (by simp) timer₃ expired reads₃
  refine ⟨[.expire, .run] ++ forking.map (Event.get n) ++ [.run, .run], t, ?_, ?_, ?_, ?_, ?_, ?_⟩
  · simp only [exec_append, fetch, session, Option.bind_some, exec_cons, send, rearm, exec_nil]
  · simpa [gets₃, waits.gets] using again
  · rfl
  · simp
  · simp [gets, gets₃, idle, ended]
  · have busy : p.isUnderWay = true := by simp [HttpSession.isUnderWay, send_outstanding posted]
    simp [sends, sends₃, busy]

/-- However many faults there are, all their requests may be under way at once. -/
theorem faults_overlap (n : Nat) :
    ∃ es s, exec (step .sample (Net.program .sample)) (started .sample) es = some s ∧ Waits n s ∧
      es.countP ProgramEvent.isFault = n ∧ .start ∉ es ∧
      s.gets.countP (·.isUnderWay) = 0 ∧ s.sends.countP (·.isUnderWay) = n := by
  induction n with
  | zero => exact ⟨[], _, rfl, ⟨⟨_, rfl, by decide⟩, rfl, rfl⟩, rfl, by simp, rfl, rfl⟩
  | succ n ih =>
    obtain ⟨es, s, run, waits, faults, once, gets, sends⟩ := ih
    obtain ⟨fs, t, cycle, again, fault, once', gets', sends'⟩ := waits.fault gets
    refine ⟨es ++ fs, t, ?_, again, ?_, ?_, gets', ?_⟩
    · rw [exec_append, run]
      exact cycle
    · rw [List.countP_append, faults, fault]
    · simp [once, once']
    · rw [sends', sends]

/-! ## Over a run -/

theorem exec_chains {env : Env} {lib : Libraries} {es : List ProgramEvent} {s : ProgramState}
    (run : exec (step env (Net.program lib)) (started env) es = some s) :
    s.chains ≤ 1 + es.countP ProgramEvent.isFault := by
  refine exec_induction (P := fun es s => s.chains ≤ 1 + es.countP ProgramEvent.isFault)
    le_rfl ?_ run
  intro es s e s' _ sofar last
  have next := step_chains last
  have count : (es ++ [e]).countP ProgramEvent.isFault =
      es.countP ProgramEvent.isFault + e.isFault.toNat := by
    cases he : e.isFault <;> simp [he]
  omega

/-- In every run there are at most as many requests under way, waits pending and live handlers
ready as there have been failed shutdowns and further calls of `start`, and one more. Without
any `start`, any number of failed shutdowns can lead to that many requests at once. -/
theorem overlap_is_bounded_by_faults :
    (∀ (env : Env) (lib : Libraries) (es : List ProgramEvent) (s : ProgramState),
      exec (step env (Net.program lib)) (started env) es = some s →
      s.pendingWaits + s.ready.countP Handler.isLive + s.requests ≤
        1 + es.countP ProgramEvent.isFault) ∧
    ∀ n, ∃ es s, exec (step .sample (Net.program .sample)) (started .sample) es = some s ∧
      .start ∉ es ∧ es.countP ProgramEvent.isFault = n ∧ s.requests = 1 + n := by
  refine ⟨fun env lib es s run => exec_chains run, fun n => ?_⟩
  obtain ⟨es, s, run, waits, faults, once, gets, sends⟩ := faults_overlap n
  obtain ⟨g, -, -, -, starts, -⟩ := forking_session
  obtain ⟨t, x, fetch, -, -, -, -, gets', sends'⟩ := waits.fetch starts
  refine ⟨es ++ [.expire, .run], t, ?_, by simp [once], ?_, ?_⟩
  · rw [exec_append, run]
    exact fetch
  · rw [List.countP_append, faults]
    rfl
  · have busy : g.isUnderWay = true := Option.some.inj starts ▸ rfl
    simp [State.requests, gets', sends', gets, sends, busy]

/-- One failed shutdown: the POST and the next GET are under way together. -/
theorem a_failed_shutdown_overlaps :
    let es : List ProgramEvent :=
      [.expire, .run] ++ forking.map (Event.get 0) ++ [.run, .run, .expire, .run]
    ∃ s, exec (step .sample (Net.program .sample)) (started .sample) es = some s ∧
      s.requests = 2 ∧ s.pendingWaits + s.ready.countP Handler.isLive + s.requests ≤
        1 + es.countP ProgramEvent.isFault := by
  intro es
  have requests : (exec (step .sample (Net.program .sample)) (started .sample) es).map
      State.requests = some 2 := by decide +kernel
  obtain ⟨s, run, requests⟩ := Option.map_eq_some_iff.mp requests
  exact ⟨s, run, requests, overlap_is_bounded_by_faults.1 .sample .sample es s run⟩

end OwlTagProcessor
