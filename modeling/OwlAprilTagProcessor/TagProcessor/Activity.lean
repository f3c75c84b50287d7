import OwlAprilTagProcessor.TagProcessor.Steps

/-!
# Live activities

What keeps the loop going is a wait that will succeed, a session that has still to call
back, or a posted completion. Here a session is only the number of times it has called
back; `Net.reporting` says how often it may.
-/

namespace OwlTagProcessor
open Asio

/-- Sessions that call back with arbitrary arguments, as long as `may` allows it of the
number of calls already made. -/
def Net.reporting (may : Nat → Prop) [DecidablePred may] :
    Net Nat Nat OwlGetImage.Report OwlSendResult.Report where
  get _ := some 0
  getStep n r := if may n then some (n + 1, [r]) else none
  send _ := some 0
  sendStep n r := if may n then some (n + 1, [r]) else none

theorem Net.reporting_get {may : Nat → Prop} [DecidablePred may] {req : GetRequest} {n : Nat}
    (h : (Net.reporting may).get req = some n) : n = 0 := by
  simpa [Net.reporting, eq_comm] using h

theorem Net.reporting_send {may : Nat → Prop} [DecidablePred may] {req : SendRequest} {n : Nat}
    (h : (Net.reporting may).send req = some n) : n = 0 := by
  simpa [Net.reporting, eq_comm] using h

theorem Net.reporting_getStep {may : Nat → Prop} [DecidablePred may] {n n' : Nat}
    {r : OwlGetImage.Report} {reports : List OwlGetImage.Report}
    (h : (Net.reporting may).getStep n r = some (n', reports)) :
    may n ∧ n' = n + 1 ∧ reports = [r] := by
  simpa [Net.reporting, eq_comm] using h

theorem Net.reporting_sendStep {may : Nat → Prop} [DecidablePred may] {n n' : Nat}
    {r : OwlSendResult.Report} {reports : List OwlSendResult.Report}
    (h : (Net.reporting may).sendStep n r = some (n', reports)) :
    may n ∧ n' = n + 1 ∧ reports = [r] := by
  simpa [Net.reporting, eq_comm] using h

/-- Every session calls back exactly once. -/
abbrev Net.once := Net.reporting (· = 0)

/-- Every session calls back as often as it likes. -/
abbrev Net.repeated := Net.reporting fun _ => True

def Handler.isGetDone : Handler → Bool
  | .getDone _ => true
  | _ => false

def Handler.isSendDone : Handler → Bool
  | .sendDone _ => true
  | _ => false

/-- Every handler but a wait that failed. -/
def Handler.isLive : Handler → Bool
  | .wait ec => !ec.failed
  | _ => true

theorem Handler.isLive_of_done {h : Handler} (posted : h.isGetDone ∨ h.isSendDone) :
    h.isLive := by
  cases h with
  | wait ec => simp [isGetDone, isSendDone] at posted
  | getDone r | sendDone r => rfl

namespace State

variable {G S : Type}

/-- The waits pending on the timer, none of them cancelled. -/
def pendingWaits (s : State G S) : Nat := (s.timer_.map SteadyTimer.waits).getD 0

/-- Waits that are pending or have succeeded and are queued. -/
def waiting (s : State G S) : Nat := s.pendingWaits + s.ready.count (.wait .success)

/-- Posted completions of a GET. -/
def fetched (s : State G S) : Nat := s.ready.countP Handler.isGetDone

/-- Posted completions of a POST. -/
def sent (s : State G S) : Nat := s.ready.countP Handler.isSendDone

/-- GET sessions that have not called back. -/
def fetching (s : State Nat Nat) : Nat := s.gets.count 0

/-- POST sessions that have not called back. -/
def sending (s : State Nat Nat) : Nat := s.sends.count 0

def activities (s : State Nat Nat) : Nat :=
  s.waiting + s.fetching + s.fetched + s.sending + s.sent

end State

/-! ## How the counts change -/

section Counts

/-- The first report of a session turns it from a running session into a posted one. -/
theorem count_set_first {l : List Nat} {i : Nat} (h : l[i]? = some 0) :
    (l.set i 1).count 0 + 1 = l.count 0 := by
  obtain ⟨hi, h0⟩ := List.getElem?_eq_some_iff.mp h
  have : 0 < l.count 0 := List.count_pos_iff.mpr (h0 ▸ List.getElem_mem hi)
  rw [List.count_set hi, h0]
  simp
  omega

/-- A later report leaves the running sessions as they are. -/
theorem count_set_later {l : List Nat} {i n : Nat} (h : l[i]? = some (n + 1)) :
    (l.set i (n + 2)).count 0 = l.count 0 := by
  obtain ⟨hi, hn⟩ := List.getElem?_eq_some_iff.mp h
  rw [List.count_set hi, hn]
  simp

/-- Any report: at most one running session less. -/
theorem count_set_le {l : List Nat} {i n : Nat} (h : l[i]? = some n) :
    l.count 0 ≤ (l.set i (n + 1)).count 0 + 1 := by
  cases n with
  | zero => exact (count_set_first h).ge
  | succ n => rw [count_set_later h]; omega

theorem count_replicate_wait {ec : ErrorCode} (n : Nat) :
    (List.replicate n (Handler.wait ec)).count (.wait .success) =
      if ec = .success then n else 0 := by
  simp [List.count_replicate]

theorem getDone_replicate_wait {ec : ErrorCode} (n : Nat) :
    (List.replicate n (Handler.wait ec)).countP Handler.isGetDone = 0 := by
  simp [List.countP_replicate, Handler.isGetDone]

theorem sendDone_replicate_wait {ec : ErrorCode} (n : Nat) :
    (List.replicate n (Handler.wait ec)).countP Handler.isSendDone = 0 := by
  simp [List.countP_replicate, Handler.isSendDone]

end Counts

namespace State

variable {s : State Nat Nat} {t : SteadyTimer}

theorem pendingWaits_of_timer {G S : Type} {s : State G S} (h : s.timer_ = some t) :
    s.pendingWaits = t.waits := by
  simp [pendingWaits, h]

theorem waits_le_activities (h : s.timer_ = some t) : t.waits ≤ s.activities := by
  rw [activities, waiting, pendingWaits_of_timer h]
  omega

@[simp] theorem activities_note (e : Entry) : (s.note e).activities = s.activities := rfl

/-- Where an activity is found. -/
theorem activity (alive : 1 ≤ s.activities) :
    0 < s.pendingWaits ∨ (∃ h ∈ s.ready, h.isLive) ∨ 0 ∈ s.gets ∨ 0 ∈ s.sends := by
  have places : 0 < s.pendingWaits ∨ 0 < s.ready.count (.wait .success) ∨ 0 < s.fetched ∨
      0 < s.sent ∨ 0 < s.fetching ∨ 0 < s.sending := by
    rw [activities, waiting] at alive
    omega
  rcases places with wait | expired | fetched | sent | fetching | sending
  · exact .inl wait
  · exact .inr (.inl ⟨_, List.count_pos_iff.mp expired, rfl⟩)
  · obtain ⟨h, hh, done⟩ := List.countP_pos_iff.mp fetched
    exact .inr (.inl ⟨h, hh, Handler.isLive_of_done (.inl done)⟩)
  · obtain ⟨h, hh, done⟩ := List.countP_pos_iff.mp sent
    exact .inr (.inl ⟨h, hh, Handler.isLive_of_done (.inr done)⟩)
  · exact .inr (.inr (.inl (List.count_pos_iff.mp fetching)))
  · exact .inr (.inr (.inr (List.count_pos_iff.mp sending)))

/-- Taking a handler from the queue gives up its activity, if it is one. -/
theorem activities_pop {h : Handler} {rest : List Handler} (hr : s.ready = h :: rest)
    (count : Nat) :
    { s with ready := rest, timeoutCount_ := count }.activities + h.isLive.toNat =
      s.activities := by
  simp only [activities, waiting, pendingWaits, fetched, sent, fetching, sending, hr]
  cases h with
  | wait ec =>
    cases hec : ec.failed with
    | true =>
      have : ec ≠ .success := ErrorCode.failed_eq_true.mp hec
      simp [Handler.isLive, Handler.isGetDone, Handler.isSendDone, *]
    | false =>
      obtain rfl := ErrorCode.failed_eq_false.mp hec
      simp [Handler.isLive, Handler.isGetDone, Handler.isSendDone]
      omega
  | getDone r | sendDone r =>
    simp [Handler.isLive, Handler.isGetDone, Handler.isSendDone, List.countP_cons]
    omega

/-- Arming the timer cancels the waits outstanding on it and adds one. -/
theorem activities_rearmed (env : Env) (s : State Nat Nat) (ht : s.timer_ = some t) :
    (s.rearmed env t).activities + t.waits = s.activities + 1 := by
  simp only [activities, waiting, pendingWaits, fetched, sent, fetching, sending,
    rearmed_timer_, rearmed_ready, rearmed_gets, rearmed_sends, ht, List.count_append,
    List.countP_append, count_replicate_wait, getDone_replicate_wait, sendDone_replicate_wait]
  simp
  omega

/-- An expired wait stays the same activity in the queue. -/
theorem activities_expire (ht : s.timer_ = some t) :
    { s with
      timer_ := some t.release
      ready := s.ready ++ List.replicate t.waits (Handler.wait .success)
      reads := s.reads + 1 }.activities = s.activities := by
  simp only [activities, waiting, pendingWaits, fetched, sent, fetching, sending, ht,
    List.count_append, List.countP_append, count_replicate_wait, getDone_replicate_wait,
    sendDone_replicate_wait]
  simp
  omega

/-- A successful wait becomes a running GET. -/
theorem activities_fetch {rest : List Handler} (hr : s.ready = .wait .success :: rest)
    (e : Entry) :
    ({ s with ready := rest, gets := s.gets ++ [0] }.note e).activities = s.activities := by
  have popped : State.activities { s with ready := rest } + 1 = s.activities :=
    activities_pop hr s.timeoutCount_
  have fetched : State.activities { s with ready := rest, gets := s.gets ++ [0] } =
      State.activities { s with ready := rest } + 1 := by
    simp only [activities, waiting, pendingWaits, fetched, sent, fetching, sending]
    simp
    omega
  rw [activities_note]
  omega

/-- A completed GET becomes a running POST. -/
theorem activities_send {r : OwlGetImage.Report} {rest : List Handler}
    (hr : s.ready = .getDone r :: rest) (count : Nat) (e e' : Entry) :
    (({ s with ready := rest, timeoutCount_ := count, sends := s.sends ++ [0] }.note e).note
      e').activities = s.activities := by
  have popped : State.activities { s with ready := rest, timeoutCount_ := count } + 1 =
      s.activities := activities_pop hr count
  have posted : State.activities
      { s with ready := rest, timeoutCount_ := count, sends := s.sends ++ [0] } =
      State.activities { s with ready := rest, timeoutCount_ := count } + 1 := by
    simp only [activities, waiting, pendingWaits, fetched, sent, fetching, sending]
    simp
    omega
  rw [activities_note, activities_note]
  omega

/-- What a report of a GET session changes is the running sessions and one posted completion. -/
theorem activities_get (s : State Nat Nat) (i n : Nat) (r : OwlGetImage.Report) :
    { s with gets := s.gets.set i n, ready := s.ready ++ [Handler.getDone r] }.activities +
      s.gets.count 0 = s.activities + (s.gets.set i n).count 0 + 1 := by
  simp only [activities, waiting, pendingWaits, fetched, sent, fetching, sending,
    List.count_append, List.countP_append]
  simp [Handler.isGetDone, Handler.isSendDone]
  omega

theorem activities_sent (s : State Nat Nat) (i n : Nat) (r : OwlSendResult.Report) :
    { s with sends := s.sends.set i n, ready := s.ready ++ [Handler.sendDone r] }.activities +
      s.sends.count 0 = s.activities + (s.sends.set i n).count 0 + 1 := by
  simp only [activities, waiting, pendingWaits, fetched, sent, fetching, sending,
    List.count_append, List.countP_append]
  simp [Handler.isGetDone, Handler.isSendDone]
  omega

/-- A completion that holds the only activity hands it to the wait it arms. -/
theorem activities_completed {env : Env} {h : Handler} {rest : List Handler}
    (one : s.activities = 1) (hr : s.ready = h :: rest) (live : h.isLive = true)
    (ht : s.timer_ = some t) (count : Nat) (e : Entry) :
    (({ s with ready := rest, timeoutCount_ := count }.note e).rearmed env t).activities = 1 := by
  have popped := activities_pop hr count
  have armed := activities_rearmed env
    ({ s with ready := rest, timeoutCount_ := count }.note e) ht
  -- the completion is the only activity, so no wait is pending
  have idle : t.waits ≤ State.activities { s with ready := rest, timeoutCount_ := count } :=
    waits_le_activities (s := { s with ready := rest, timeoutCount_ := count }) ht
  simp only [live, Bool.toNat_true, activities_note] at popped armed
  omega

end State

/-- The only activity stays the only one, as long as nobody calls `start`. -/
theorem step_activities {env : Env} {s s' : State Nat Nat}
    {e : Event OwlGetImage.Report OwlSendResult.Report} (once : e ≠ .start)
    (one : s.activities = 1) (h : step env Net.once s e = some s') : s'.activities = 1 := by
  cases step_stepped h with
  | start => exact absurd rfl once
  | expire t ht => exact (State.activities_expire ht).trans one
  | abort ec rest hr failed =>
    have popped : State.activities { s with ready := rest } + 0 = s.activities := by
      have live : (Handler.wait ec).isLive = false := by
        simp [Handler.isLive, ErrorCode.failed_eq_true.mpr failed]
      simpa [live] using State.activities_pop hr s.timeoutCount_
    rw [State.activities_note]
    omega
  | fetch rest g hr hg =>
    obtain rfl := Net.reporting_get hg
    exact (State.activities_fetch hr _).trans one
  | send r rest o p hr hec hok himg ho hp =>
    obtain rfl := Net.reporting_send hp
    exact (State.activities_send hr 0 _ _).trans one
  | getRearm r rest branch count t hr hc himg ht =>
    exact State.activities_completed one hr rfl ht count _
  | sendRearm r rest branch count t hr hc ht =>
    exact State.activities_completed one hr rfl ht count _
  | flush ec => exact one
  | get i n g g' reports hg hstep =>
    obtain ⟨rfl, rfl, rfl⟩ := Net.reporting_getStep hstep
    have running := count_set_first hg
    have reported := State.activities_get s i 1 n
    simp only [List.map_cons, List.map_nil, Nat.zero_add]
    omega
  | sent i n p p' reports hp hstep =>
    obtain ⟨rfl, rfl, rfl⟩ := Net.reporting_sendStep hstep
    have running := count_set_first hp
    have reported := State.activities_sent s i 1 n
    simp only [List.map_cons, List.map_nil, Nat.zero_add]
    omega

end OwlTagProcessor
