import OwlAprilTagProcessor.TagProcessor.SingleFlight

/-!
# The timeout counter

Both stages of a cycle count their timeouts in `timeoutCount_`, and a success of either
stage resets it. A POST is only reached through a successful GET, so its handler always
starts to count from zero: it never gets past one, whatever came before, and the limit is
out of its reach. The GET stage alone does reach it.
-/

namespace OwlTagProcessor
open Asio Transition

/-- How a request ended, and the branch its completion handler took. -/
abbrev Outcome := ErrorCode × Branch

/-- The last `n` requests all timed out. -/
def TimedOut (n : Nat) (outcomes : List Outcome) : Prop :=
  n ≤ outcomes.length ∧ ∀ o ∈ outcomes.drop (outcomes.length - n), o.1 = .timeout

instance (n : Nat) (outcomes : List Outcome) : Decidable (TimedOut n outcomes) :=
  inferInstanceAs (Decidable (_ ∧ _))

/-- After more timeouts in a row than the limit, the last handler takes the branch for too
many of them. -/
def DetectsTimeouts (limit : Nat) (outcomes : List Outcome) : Prop :=
  TimedOut (limit + 1) outcomes → outcomes.getLast?.map Prod.snd = some .restart

theorem timedOut_concat (n : Nat) (outcomes : List Outcome) (o : Outcome) :
    TimedOut (n + 1) (outcomes ++ [o]) ↔ o.1 = .timeout ∧ TimedOut n outcomes := by
  have from_end : (outcomes ++ [o]).length - (n + 1) = outcomes.length - n := by
    rw [List.length_append, List.length_singleton]
    omega
  have within : outcomes.length - n ≤ outcomes.length := by omega
  rw [TimedOut, TimedOut, from_end, List.drop_append_of_le_length within]
  simp only [List.length_append, List.length_singleton, List.mem_append, List.mem_singleton]
  constructor
  · rintro ⟨enough, timeouts⟩
    exact ⟨timeouts o (.inr rfl), by omega, fun o' ho' => timeouts o' (.inl ho')⟩
  · rintro ⟨last, enough, timeouts⟩
    refine ⟨by omega, ?_⟩
    rintro o' (before | rfl)
    · exact timeouts o' before
    · exact last

/-! ## One completion -/

theorem complete_timeout {limit count : Nat} (ok : Bool) (within : count ≤ limit)
    (small : limit + 1 < UInt64.size) :
    complete limit count .timeout ok =
      if count = limit then (.restart, limit) else (.skip, count + 1) := by
  have exact_count : (count + 1) % UInt64.size = count + 1 := Nat.mod_eq_of_lt (by omega)
  simp only [complete, ErrorCode.failed_timeout, if_true, exact_count]
  by_cases reached : count = limit
  · rw [if_pos reached, if_pos (by omega)]
  · rw [if_neg reached, if_neg (by omega)]

/-- Any other outcome leaves the counter or resets it. -/
theorem complete_of_ne_timeout {limit count n : Nat} {ec : ErrorCode} {ok : Bool}
    {branch : Branch} (other : ec ≠ .timeout)
    (h : complete limit count ec ok = (branch, n)) : n ≤ count := by
  unfold complete at h
  rw [if_neg other] at h
  split_ifs at h <;> simp only [Prod.mk.injEq] at h <;> omega

theorem complete_le {limit count n : Nat} {ec : ErrorCode} {ok : Bool} {branch : Branch}
    (within : count ≤ limit) (small : limit + 1 < UInt64.size)
    (h : complete limit count ec ok = (branch, n)) : n ≤ limit := by
  by_cases timeout : ec = .timeout
  · rw [timeout, complete_timeout ok within small] at h
    split_ifs at h <;> simp only [Prod.mk.injEq] at h <;> omega
  · exact (complete_of_ne_timeout timeout h).trans within

/-- A configured limit that is not negative is kept as it is by the conversion to `size_t`. -/
theorem Env.timeoutCountLimit_eq {env : Env} {limit : Nat}
    (configured : env.config.configTagProcessor.timeoutCountLimit.toInt = limit) :
    env.timeoutCountLimit_ = limit ∧ limit + 1 < UInt64.size := by
  unfold Env.timeoutCountLimit_
  generalize env.config.configTagProcessor.timeoutCountLimit = configuredLimit at configured ⊢
  have nonneg : 0 ≤ configuredLimit := by
    rw [Int64.le_iff_toInt_le]
    simp
    omega
  have small := configuredLimit.toInt_lt
  rw [Int64.toNat_toUInt64_of_le nonneg, Int64.toNatClampNeg, UInt64.size]
  omega

theorem Env.timeoutCountLimit_bounds {env : Env}
    (positive : 1 ≤ env.config.configTagProcessor.timeoutCountLimit.toInt) :
    1 ≤ env.timeoutCountLimit_ ∧ env.timeoutCountLimit_ + 1 < UInt64.size := by
  obtain ⟨limit, configured⟩ := Int.eq_ofNat_of_zero_le (Int.le_trans Int.one_nonneg positive)
  obtain ⟨same, small⟩ := Env.timeoutCountLimit_eq configured
  rw [configured] at positive
  rw [same]
  exact ⟨by omega, small⟩

/-! ## The counter over a run -/

def Entry.getOutcome? : Entry → Option Outcome
  | .getCompleted r branch => some (r.ec, branch)
  | _ => none

def Entry.sendOutcome? : Entry → Option Outcome
  | .sendCompleted r branch => some (r.ec, branch)
  | _ => none

/-- The outcomes of the GET requests, oldest first. -/
abbrev State.getOutcomes {G S : Type} (s : State G S) : List Outcome :=
  s.select Entry.getOutcome?

/-- The outcomes of the POST requests, oldest first. -/
abbrev State.sendOutcomes {G S : Type} (s : State G S) : List Outcome :=
  s.select Entry.sendOutcome?

/-- The counter is bounded by the limit and counts the GET timeouts in a row; while a POST
is on its way it is zero. -/
structure Counting (env : Env) (s : State Nat Nat) : Prop where
  bounded : s.timeoutCount_ ≤ env.timeoutCountLimit_
  reset : 1 ≤ s.sending + s.sent → s.timeoutCount_ = 0
  counted : ∀ n ≤ env.timeoutCountLimit_, TimedOut n s.getOutcomes → n ≤ s.timeoutCount_
  detected : DetectsTimeouts env.timeoutCountLimit_ s.getOutcomes
  missed : ∀ o ∈ s.sendOutcomes, o.1 = .timeout → o.2 = .skip

theorem started_counting (env : Env) : Counting env (started env) := by
  have gets : (started env : State Nat Nat).getOutcomes = [] := rfl
  have sends : (started env : State Nat Nat).sendOutcomes = [] := rfl
  refine ⟨Nat.zero_le _, fun _ => rfl, ?_, ?_, ?_⟩
  · intro n _ timedOut
    rw [gets] at timedOut
    exact timedOut.1
  · intro timedOut
    rw [gets] at timedOut
    exact absurd timedOut.1 (by simp)
  · rw [sends]
    simp

/-- An armed wait is the only activity, so no POST is on its way. -/
theorem SingleFlight.not_posting {env : Env} {s : State Nat Nat} (inv : SingleFlight env s)
    {expiry : Int} (armed : s.timer_ = some ⟨expiry, 1⟩) : s.sending + s.sent = 0 := by
  have one := inv.one
  have pending : s.pendingWaits = 1 := State.pendingWaits_of_timer armed
  rw [State.activities, State.waiting, pending] at one
  omega

namespace Counting

variable {env : Env} {s s' : State Nat Nat}

/-- A step that completes no request. -/
theorem of_frame (inv : Counting env s) (count : s'.timeoutCount_ = s.timeoutCount_)
    (posting : s'.sending + s'.sent ≤ s.sending + s.sent)
    (gets : s'.getOutcomes = s.getOutcomes) (sends : s'.sendOutcomes = s.sendOutcomes) :
    Counting env s' := by
  obtain ⟨bounded, reset, counted, detected, missed⟩ := inv
  refine ⟨by omega, fun h => by rw [count]; exact reset (by omega), ?_, ?_, ?_⟩
  · rw [gets, count]; exact counted
  · rw [gets]; exact detected
  · rw [sends]; exact missed

/-- A GET that ended with `ec`. -/
theorem get (inv : Counting env s) {ec : ErrorCode} {ok : Bool} {branch : Branch}
    (small : env.timeoutCountLimit_ + 1 < UInt64.size)
    (hc : complete env.timeoutCountLimit_ s.timeoutCount_ ec ok = (branch, s'.timeoutCount_))
    (reset : 1 ≤ s'.sending + s'.sent → s'.timeoutCount_ = 0)
    (gets : s'.getOutcomes = s.getOutcomes ++ [(ec, branch)])
    (sends : s'.sendOutcomes = s.sendOutcomes) : Counting env s' := by
  refine ⟨complete_le inv.bounded small hc, reset, ?_, ?_, by rw [sends]; exact inv.missed⟩
  · intro n within timedOut
    cases n with
    | zero => exact Nat.zero_le _
    | succ n =>
      rw [gets, timedOut_concat] at timedOut
      obtain ⟨rfl, before⟩ := timedOut
      have sofar := inv.counted n (by omega) before
      rw [complete_timeout ok inv.bounded small] at hc
      split_ifs at hc <;> simp only [Prod.mk.injEq] at hc <;> omega
  · intro timedOut
    rw [gets, timedOut_concat] at timedOut
    obtain ⟨rfl, before⟩ := timedOut
    have reached : s.timeoutCount_ = env.timeoutCountLimit_ :=
      le_antisymm inv.bounded (inv.counted _ le_rfl before)
    rw [complete_timeout ok inv.bounded small, if_pos reached, Prod.mk.injEq] at hc
    rw [gets, List.getLast?_concat, ← hc.1]
    rfl

/-- A POST that ended with `ec`: its handler counts from zero. -/
theorem send (inv : Counting env s) {ec : ErrorCode} {ok : Bool} {branch : Branch}
    (positive : 1 ≤ env.timeoutCountLimit_) (small : env.timeoutCountLimit_ + 1 < UInt64.size)
    (hc : complete env.timeoutCountLimit_ s.timeoutCount_ ec ok = (branch, s'.timeoutCount_))
    (posting : 1 ≤ s.sending + s.sent) (done : s'.sending + s'.sent = 0)
    (gets : s'.getOutcomes = s.getOutcomes)
    (sends : s'.sendOutcomes = s.sendOutcomes ++ [(ec, branch)]) : Counting env s' := by
  have zero := inv.reset posting
  refine ⟨complete_le inv.bounded small hc, by omega, ?_, by rw [gets]; exact inv.detected, ?_⟩
  · intro n within timedOut
    rw [gets] at timedOut
    have none := inv.counted n within timedOut
    omega
  · intro o ho timeout
    rw [sends, List.mem_append, List.mem_singleton] at ho
    rcases ho with old | rfl
    · exact inv.missed o old timeout
    · obtain rfl : ec = .timeout := timeout
      rw [complete_timeout ok inv.bounded small, if_neg (by omega), Prod.mk.injEq] at hc
      exact hc.1.symm

end Counting

theorem step_counting {env : Env} {s s' : State Nat Nat}
    {e : Event OwlGetImage.Report OwlSendResult.Report}
    (positive : 1 ≤ env.timeoutCountLimit_) (small : env.timeoutCountLimit_ + 1 < UInt64.size)
    (once : e ≠ .start) (flight : SingleFlight env s) (inv : Counting env s)
    (h : step env Net.once s e = some s') : Counting env s' := by
  have flight' := step_singleFlight once flight h
  cases step_stepped h with
  | start => exact absurd rfl once
  | expire t ht waiting expired =>
    refine inv.of_frame rfl ?_ rfl rfl
    simp [State.sending, State.sent, sendDone_replicate_wait]
  | abort ec rest hr failed =>
    refine inv.of_frame rfl ?_ (by simp [State.select, Entry.getOutcome?])
      (by simp [State.select, Entry.sendOutcome?])
    simp [State.sending, State.sent, hr, List.countP_cons]
  | fetch rest g hr hg =>
    refine inv.of_frame rfl ?_ (by simp [State.select, Entry.getOutcome?])
      (by simp [State.select, Entry.sendOutcome?])
    simp [State.sending, State.sent, hr, List.countP_cons]
  | send r rest o p hr hec hok himg ho hp =>
    have hc : complete env.timeoutCountLimit_ s.timeoutCount_ r.ec r.ok = (.proceed, 0) := by
      rw [hec, hok]
      rfl
    refine inv.get small hc (fun _ => rfl) ?_ ?_
    · simp [State.select, Entry.getOutcome?]
    · simp [State.select, Entry.sendOutcome?]
  | getRearm r rest branch count t hr hc himg ht =>
    have done := flight'.not_posting rfl
    refine inv.get small hc (by omega) ?_ ?_
    · simp [State.select, Entry.getOutcome?]
    · simp [State.select, Entry.sendOutcome?]
  | sendRearm r rest branch count t hr hc ht =>
    have done := flight'.not_posting rfl
    refine inv.send positive small hc ?_ done ?_ ?_
    · rw [State.sent, hr, List.countP_cons]
      simp [Handler.isSendDone]
      omega
    · simp [State.select, Entry.getOutcome?]
    · simp [State.select, Entry.sendOutcome?]
  | flush ec =>
    exact inv.of_frame rfl le_rfl (State.select_flush _ _ _ fun _ => rfl)
      (State.select_flush _ _ _ fun _ => rfl)
  | get i r n n' reports hn hstep =>
    obtain ⟨-, rfl, rfl⟩ := Net.reporting_getStep hstep
    refine inv.of_frame rfl ?_ rfl rfl
    simp [State.sending, State.sent, Handler.isSendDone]
  | sent i r n n' reports hn hstep =>
    obtain ⟨rfl, rfl, rfl⟩ := Net.reporting_sendStep hstep
    refine inv.of_frame rfl ?_ rfl rfl
    have running := count_set_first hn
    simp [State.sending, State.sent, Handler.isSendDone]
    omega

/-- With a positive limit, too many POST timeouts in a row never take the branch meant for
them, though as many GET timeouts do. -/
theorem send_timeouts_never_detected (env : Env)
    (positive : 1 ≤ env.config.configTagProcessor.timeoutCountLimit.toInt)
    (es : List (Event OwlGetImage.Report OwlSendResult.Report)) (s : State Nat Nat)
    (once : .start ∉ es) (run : exec (step env Net.once) (started env) es = some s) :
    (DetectsTimeouts env.timeoutCountLimit_ s.sendOutcomes ↔
      ¬ TimedOut (env.timeoutCountLimit_ + 1) s.sendOutcomes) ∧
    DetectsTimeouts env.timeoutCountLimit_ s.getOutcomes := by
  obtain ⟨positive, small⟩ := env.timeoutCountLimit_bounds positive
  have inv : SingleFlight env s ∧ Counting env s :=
    exec_invariant (I := fun s => SingleFlight env s ∧ Counting env s) (· ≠ .start)
      (fun _ _ _ ok inv h => ⟨step_singleFlight ok inv.1 h,
        step_counting positive small ok inv.1 inv.2 h⟩)
      ⟨started_singleFlight env, started_counting env⟩
      (fun e he => by rintro rfl; exact once he) run
  refine ⟨⟨?_, fun other timedOut => absurd timedOut other⟩, inv.2.detected⟩
  intro detects timedOut
  obtain ⟨o, last, restart⟩ := Option.map_eq_some_iff.mp (detects timedOut)
  obtain ⟨init, split⟩ := List.getLast?_eq_some_iff.mp last
  have timeout : o.1 = .timeout := by
    rw [split, timedOut_concat] at timedOut
    exact timedOut.1
  have skip := inv.2.missed o (by simp [split]) timeout
  rw [restart] at skip
  exact Branch.noConfusion skip

/-- The limit is 1, and two cycles in a row fetch a frame but time out when they send it:
the second timeout skips like the first one. -/
theorem two_send_timeouts_undetected :
    let env : Env :=
      { Env.sample with config := { configTagProcessor := { timeoutCountLimit := 1 } } }
    let frame : OwlGetImage.Report := ⟨.success, true, { cols := 1, rows := 1, data := [0] }⟩
    ¬ ∀ s, exec (step env Net.once) (started env)
        [.expire, .run, .get 0 frame, .run, .send 0 ⟨.timeout, false⟩, .run,
          .expire, .run, .get 1 frame, .run, .send 1 ⟨.timeout, false⟩, .run] = some s →
      DetectsTimeouts env.timeoutCountLimit_ s.sendOutcomes := by
  intro env frame h
  have outcomes : (exec (step env Net.once) (started env)
      [.expire, .run, .get 0 frame, .run, .send 0 ⟨.timeout, false⟩, .run,
        .expire, .run, .get 1 frame, .run, .send 1 ⟨.timeout, false⟩, .run]).map
      State.sendOutcomes = some [(.timeout, .skip), (.timeout, .skip)] := by decide +kernel
  obtain ⟨s, run, skips⟩ := Option.map_eq_some_iff.mp outcomes
  have detects := h s run
  rw [skips] at detects
  exact absurd (detects (by decide)) (by decide)

/-- Under the same limit, two GET timeouts in a row are detected. -/
theorem two_get_timeouts_detected :
    let env : Env :=
      { Env.sample with config := { configTagProcessor := { timeoutCountLimit := 1 } } }
    let es : List (Event OwlGetImage.Report OwlSendResult.Report) :=
      [.expire, .run, .get 0 ⟨.timeout, false, {}⟩, .run,
        .expire, .run, .get 1 ⟨.timeout, false, {}⟩, .run]
    ∃ s, exec (step env Net.once) (started env) es = some s ∧
      TimedOut (env.timeoutCountLimit_ + 1) s.getOutcomes ∧
      DetectsTimeouts env.timeoutCountLimit_ s.getOutcomes := by
  intro env es
  have outcomes : (exec (step env Net.once) (started env) es).map State.getOutcomes =
    some [(.timeout, .skip), (.timeout, .restart)] := by decide +kernel
  obtain ⟨s, run, restarts⟩ := Option.map_eq_some_iff.mp outcomes
  refine ⟨s, run, by rw [restarts]; decide, ?_⟩
  exact (send_timeouts_never_detected env (by decide) es s (by simp [es]) run).2

end OwlTagProcessor
