import OwlAprilTagProcessor.TagProcessor.Pacing
import OwlAprilTagProcessor.TagProcessor.Refinement
import OwlAprilTagProcessor.TagProcessor.Throughput

/-!
# What the waste measures

`setNextDuration` hands the tracer the time from the expiry that began the cycle to its end.
Where every shutdown goes well these stretches follow one another: a cycle has ended before
the timer expires again. So the wastes of consecutive cycles add up to no more than the time
they have taken, and what a flush logs is a share of that time.
-/

namespace OwlTagProcessor
open Asio Transition History Linked Session

variable {G S α β : Type}

/-- What a call of `setNextDuration` hands to `frame`. -/
def Rearm.wastMs (call : Rearm) : Int := toMilliseconds (call.frameAt - call.expiry)

/-- From the expiry that began the first of these cycles to the end of the last one. -/
def span : List Rearm → Int
  | [] => 0
  | first :: calls => (calls.getLastD first).frameAt - first.expiry

/-! ## One call -/

theorem milliseconds_le {ticks : Int} (forward : 0 ≤ ticks) :
    milliseconds (toMilliseconds ticks) ≤ ticks := by
  rw [milliseconds, toMilliseconds, Int.tdiv_eq_ediv_of_nonneg forward]
  omega

/-- A cycle has ended before the expiry that is set then. -/
theorem Env.measure_frameAt_le (env : Env) (d : Int) (t : SteadyTimer) (n : Nat)
    (mini : 0 ≤ env.config.configTagProcessor.timeDurationMini.toInt) :
    (env.measure d t n).frameAt ≤ (env.measure d t n).next := by
  unfold Env.measure
  split_ifs with later
  · have compared : env.clock.now n ≤ env.clock.now (n + 1) := env.clock.forward (by omega)
    have armed : env.clock.now (n + 2) ≤ env.clock.now (n + 3) := env.clock.forward (by omega)
    simp only
    omega
  · have armed : env.clock.now n ≤ env.clock.now (n + 2) := env.clock.forward (by omega)
    simp only [milliseconds]
    omega

/-! ## Consecutive calls -/

section Stretch

variable {a b : Int} {calls : List Rearm} {last : Rearm}

theorem span_linked (linked : Path Rearm.expiry Rearm.next a (calls ++ [last]) b) :
    span (calls ++ [last]) = last.frameAt - a := by
  cases calls with
  | nil | cons call calls =>
    obtain ⟨rfl, -⟩ := linked
    simp [span]

/-- The time wasted in linked cycles is part of the time they have taken. -/
theorem wasted_le_span (linked : Path Rearm.expiry Rearm.next a (calls ++ [last]) b)
    (began : ∀ call ∈ calls ++ [last], call.expiry ≤ call.frameAt)
    (ended : ∀ call ∈ calls, call.frameAt ≤ call.next) :
    milliseconds ((calls ++ [last]).map Rearm.wastMs).sum ≤ span (calls ++ [last]) := by
  calc milliseconds ((calls ++ [last]).map Rearm.wastMs).sum
      = ((calls ++ [last]).map fun call => milliseconds call.wastMs).sum := by
        simp only [milliseconds, List.sum_map_mul_right]
    _ ≤ ((calls ++ [last]).map fun call => call.frameAt - call.expiry).sum :=
        List.sum_le_sum fun call hcall => milliseconds_le (sub_nonneg.mpr (began call hcall))
    _ ≤ last.frameAt - a := linked.sum_le ended
    _ = span (calls ++ [last]) := (span_linked linked).symm

/-- Each cycle but the last has lasted for the duration. -/
theorem length_le_span {d : Int} (linked : Path Rearm.expiry Rearm.next a (calls ++ [last]) b)
    (began : last.expiry ≤ last.frameAt) (long : ∀ call ∈ calls, d ≤ call.next - call.expiry) :
    (calls.length : Int) * d ≤ span (calls ++ [last]) := by
  obtain ⟨c, before, next, -⟩ := path_append.mp linked
  have bound := before.nsmul_le long
  rw [nsmul_eq_mul] at bound
  rw [span_linked linked]
  omega

end Stretch

/-! ## What the tracer has been given -/

theorem wastes_eq (s : State G S) :
    wastes s.ticks = s.rearms.map fun call => (call.wastMs : Rat) := by
  simp only [State.ticks, State.rearms, State.select, wastes]
  induction s.history with
  | nil => rfl
  | cons e history ih =>
    cases e <;> simp [List.filterMap_cons, Entry.tick?, Entry.rearm?, Tick.wast?, ih, Rearm.wastMs]

/-- The cycles in the window of a flush with these ticks before it. -/
def windowOf (calls : List Rearm) (before : List Tick) : List Rearm :=
  (calls.take (wastes before).length).rtake averageWindow

theorem windowOf_infix (calls : List Rearm) (before : List Tick) :
    windowOf calls before <:+: calls :=
  (List.drop_suffix _ _).isInfix.trans (List.take_prefix _ _).isInfix

/-- The window of the waste is that of these cycles. -/
theorem windowWaste_eq {s : State G S} {before after : List Tick} {report : FpsReport}
    (split : s.ticks = before ++ .flush report :: after) (reported : Reported before report) :
    averageWindow * report.windowWaste =
      ((windowOf s.rearms before).map fun call => (call.wastMs : Rat)).sum := by
  have sofar : wastes before = (wastes s.ticks).take (wastes before).length := by
    rw [split, wastes, wastes, List.filterMap_append, List.take_left]
  rw [reported.windowWaste, sofar, wastes_eq, windowOf]
  simp only [List.rtake, List.map_take, List.map_drop, List.length_take, List.length_map]

/-! ## Over a run -/

/-- The calls of a run, where every shutdown goes well. -/
structure Wasted (env : Env) (s : State G S) : Prop where
  linked : ∃ a b, Path Rearm.expiry Rearm.next a s.rearms b
  began : ∀ call ∈ s.rearms, call.expiry ≤ call.frameAt
  ended : ∀ call ∈ s.rearms, call.frameAt ≤ call.next
  long : ∀ call ∈ s.rearms, milliseconds env.timeDurationMs_ ≤ call.next - call.expiry

theorem Wasted.wasted_le_span {env : Env} {s : State G S} (wasted : Wasted env s)
    {calls : List Rearm} (part : calls <:+: s.rearms) :
    milliseconds (calls.map Rearm.wastMs).sum ≤ span calls := by
  obtain ⟨a, b, linked⟩ := wasted.linked
  obtain ⟨c, d, inner⟩ := linked.of_infix part
  obtain rfl | ⟨earlier, last, rfl⟩ := List.eq_nil_or_concat' calls
  · exact le_rfl
  · refine OwlTagProcessor.wasted_le_span inner ?_ ?_
    · exact fun call hcall => wasted.began call (part.subset hcall)
    · exact fun call hcall => wasted.ended call (part.subset (List.mem_append_left _ hcall))

theorem Wasted.length_le_span {env : Env} {s : State G S} (wasted : Wasted env s)
    {calls : List Rearm} (part : calls <:+: s.rearms) (some : calls ≠ []) :
    ((calls.length : Int) - 1) * milliseconds env.timeDurationMs_ ≤ span calls := by
  obtain ⟨a, b, linked⟩ := wasted.linked
  obtain ⟨c, d, inner⟩ := linked.of_infix part
  obtain rfl | ⟨earlier, last, rfl⟩ := List.eq_nil_or_concat' calls
  · exact absurd rfl some
  · rw [List.length_append, List.length_singleton, Nat.cast_add, Nat.cast_one,
      add_sub_cancel_right]
    refine OwlTagProcessor.length_le_span inner ?_ ?_
    · exact wasted.began last (part.subset (by simp))
    · exact fun call hcall => wasted.long call (part.subset (List.mem_append_left _ hcall))

theorem program_wasted {env : Env} {lib : Libraries} {es : List ProgramEvent} {s : ProgramState}
    (once : .start ∉ es)
    (shuts : ∀ e ∈ es, ProgramEvent.Shuts (HttpSession.badShutdown · = false) e)
    (mini : 0 ≤ env.config.configTagProcessor.timeDurationMini.toInt)
    (run : exec (step env (Net.program lib)) (started env) es = some s) : Wasted env s := by
  have paced : Paced env s := exec_paced once run
  have single := program_is_single_flight env lib es s once shuts run
  obtain ⟨⟨t, -, linked⟩, -, measured⟩ := paced
  refine ⟨⟨_, t.expiry, linked⟩, fun call hcall => (single.calls call hcall).2, ?_, ?_⟩
  · intro call hcall
    obtain ⟨t, n, rfl⟩ := measured call hcall
    exact env.measure_frameAt_le _ t n mini
  · intro call hcall
    obtain ⟨t, n, rfl⟩ := measured call hcall
    exact env.measure_length _ t n mini

theorem wastMs_nonneg {call : Rearm} (began : call.expiry ≤ call.frameAt) : 0 ≤ call.wastMs := by
  rw [Rearm.wastMs, toMilliseconds, Int.tdiv_eq_ediv_of_nonneg (sub_nonneg.mpr began)]
  omega

/-- Where every shutdown goes well, the waste of a cycle is never negative, that of consecutive
cycles is at most the time they have taken, and of cycles that follow each other every one but
the last takes the duration at least. So what a flush logs lies between 0 and the time its ten
cycles have taken, shared among them. -/
theorem waste_is_a_share_of_the_time (env : Env) (lib : Libraries) (es : List ProgramEvent)
    (s : ProgramState) (once : .start ∉ es)
    (shuts : ∀ e ∈ es, ProgramEvent.Shuts (HttpSession.badShutdown · = false) e)
    (mini : 0 ≤ env.config.configTagProcessor.timeDurationMini.toInt)
    (run : exec (step env (Net.program lib)) (started env) es = some s) :
    (∀ call ∈ s.rearms, 0 ≤ call.wastMs) ∧
    (∀ calls, calls <:+: s.rearms → calls ≠ [] →
      milliseconds (calls.map Rearm.wastMs).sum ≤ span calls ∧
      ((calls.length : Int) - 1) * milliseconds env.timeDurationMs_ ≤ span calls) ∧
    Each (fun before t => ∀ report, t = .flush report →
      0 ≤ report.windowWaste ∧
      10 * report.windowWaste ≤ (span (windowOf s.rearms before) : Rat) / 1000000) s.ticks := by
  have wasted := program_wasted once shuts mini run
  have nonneg (call : Rearm) (hcall : call ∈ s.rearms) : 0 ≤ call.wastMs :=
    wastMs_nonneg (wasted.began call hcall)
  refine ⟨nonneg, fun calls part some =>
    ⟨wasted.wasted_le_span part, wasted.length_le_span part some⟩, ?_⟩
  rintro before _ after split report rfl
  have part := windowOf_infix s.rearms before
  have figure : 10 * report.windowWaste =
      (((windowOf s.rearms before).map Rearm.wastMs).sum : Int) := by
    rw [Int.cast_list_sum, List.map_map]
    exact windowWaste_eq split ((exec_traced run).reports before _ after split report rfl)
  constructor
  · have sum : 0 ≤ ((windowOf s.rearms before).map Rearm.wastMs).sum :=
      List.sum_nonneg (by simpa using fun call hcall => nonneg call (part.subset hcall))
    have scaled : (0 : Rat) ≤ 10 * report.windowWaste := by
      rw [figure]
      exact_mod_cast sum
    linarith
  · have share := wasted.wasted_le_span part
    rw [figure, le_div_iff₀ (by norm_num)]
    exact_mod_cast share

/-- Two fetches that time out and a flush: with the wait between them they have taken five
seconds, almost three of them wasted. -/
theorem two_wastes_are_shared :
    let es : List ProgramEvent :=
      [.expire, .run, .get 0 (.resolved 0 .timeout), .run,
        .expire, .run, .get 1 (.resolved 0 .timeout), .run, .flush .success]
    ∃ s, exec (step .sample (Net.program .sample)) (started .sample) es = some s ∧
      s.rearms.map Rearm.wastMs = [1000, 1970] ∧ span s.rearms = seconds 5 ∧
      milliseconds (s.rearms.map Rearm.wastMs).sum ≤ span s.rearms := by
  intro es
  have seen : (exec (step .sample (Net.program .sample)) (started .sample) es).map
      (fun s => (s.rearms.map Rearm.wastMs, span s.rearms)) =
        some ([1000, 1970], seconds 5) := by
    decide +kernel
  obtain ⟨s, run, seen⟩ := Option.map_eq_some_iff.mp seen
  obtain ⟨wastes, length⟩ := Prod.mk.inj seen
  have shared := (waste_is_a_share_of_the_time .sample .sample es s (by simp [es])
    (by simp [es, ProgramEvent.Shuts, Completion.Shuts]) (by decide) run).2.1
    s.rearms List.infix_rfl (by rintro none; simp [none] at wastes)
  exact ⟨s, run, wastes, length, shared.1⟩

end OwlTagProcessor
