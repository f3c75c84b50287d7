import Mathlib.Data.List.Forall2
import OwlAprilTagProcessor.Program
import OwlAprilTagProcessor.TagProcessor.Activity

/-!
# Who acts after a further start

`start` replaces the timer and cancels the wait on the old one. It does nothing to a wait
that has expired already, to a session that is running or to a completion that has been
posted. To tell whose they are, every pending wait, ready handler and session gets an owner,
the loop before one call of `start` or the loop after it, and hands it on to what it causes.
-/

namespace OwlTagProcessor
open Asio Transition

/-! ## Owners -/

/-- The loop something belongs to, seen from one call of `start`. -/
inductive Owner where
  | old | new
  deriving DecidableEq, Repr

/-- The owners of the pending waits, the ready handlers and the sessions, in their order;
`acts` holds the owner of each request issued and each timer armed since the call. -/
structure Owners where
  timer : List Owner
  ready : List Owner
  gets : List Owner
  sends : List Owner
  acts : List Owner := []
  deriving DecidableEq, Repr

/-- A handler of `owner` has run, and this is the last thing it did. -/
def Owners.ran (o : Owners) (owner : Owner) : Option Entry → Owners
  | some (.get _) => { o with gets := o.gets ++ [owner], acts := o.acts ++ [owner] }
  | some (.post _) => { o with sends := o.sends ++ [owner] }
  | some (.rearmed _) =>
    { o with timer := [owner], ready := o.ready ++ o.timer, acts := o.acts ++ [owner] }
  | _ => o

/-- The owners after a step from `s` to `s'`. -/
def Owners.next {G S α β : Type} (o : Owners) (s s' : State G S) : Event α β → Owners
  | .start => { o with timer := [.new], ready := o.ready ++ o.timer }
  | .expire => { o with timer := [], ready := o.ready ++ o.timer }
  | .run =>
    match o.ready with
    | [] => o
    | owner :: rest => { o with ready := rest }.ran owner s'.history.getLast?
  | .flush _ => o
  | .get i _ =>
    { o with
      ready := o.ready ++ List.replicate (s'.ready.length - s.ready.length) (o.gets.getD i .old) }
  | .send i _ =>
    { o with
      ready := o.ready ++ List.replicate (s'.ready.length - s.ready.length) (o.sends.getD i .old) }

/-- A state with the owners of all that is in it. -/
structure Owned where
  state : State Nat Nat
  owners : Owners

namespace Owned

/-- Before the call, everything belongs to the old loop. -/
def before (s : State Nat Nat) : Owned where
  state := s
  owners :=
    { timer := List.replicate s.pendingWaits .old
      ready := List.replicate s.ready.length .old
      gets := List.replicate s.gets.length .old
      sends := List.replicate s.sends.length .old }

def step (env : Env) (t : Owned) (e : Event OwlGetImage.Report OwlSendResult.Report) :
    Option Owned :=
  (OwlTagProcessor.step env Net.once t.state e).map fun s => ⟨s, t.owners.next t.state s e⟩

/-- Owners change nothing: their runs are the runs of the loop. -/
theorem exec_state (env : Env) (t : Owned)
    (es : List (Event OwlGetImage.Report OwlSendResult.Report)) :
    (exec (step env) t es).map state = exec (OwlTagProcessor.step env Net.once) t.state es := by
  have same : ∀ (t : Owned) (s : State Nat Nat) e, t.state = id s →
      (step env t e).map state = (OwlTagProcessor.step env Net.once s e).map id := by
    rintro t _ e rfl
    simp [step, Function.comp_def]
  simpa using exec_view_eq state id same rfl es

end Owned

/-! ## What is left of the old loop -/

namespace State

/-- The activities a call of `start` does not end. -/
def leftover (s : State Nat Nat) : Nat := s.ready.countP Handler.isLive + s.fetching + s.sending

theorem countP_isLive (hs : List Handler) :
    hs.countP Handler.isLive = hs.count (.wait .success) + hs.countP Handler.isGetDone +
      hs.countP Handler.isSendDone := by
  induction hs with
  | nil => rfl
  | cons h hs ih =>
    cases h with
    | wait ec =>
      cases hec : ec.failed with
      | true =>
        have : ec ≠ .success := ErrorCode.failed_eq_true.mp hec
        simp [Handler.isLive, Handler.isGetDone, Handler.isSendDone, *]
      | false =>
        obtain rfl := ErrorCode.failed_eq_false.mp hec
        simp [Handler.isLive, Handler.isGetDone, Handler.isSendDone, ih]
        omega
    | getDone r | sendDone r =>
      simp [Handler.isLive, Handler.isGetDone, Handler.isSendDone, List.countP_cons, ih]
      omega

theorem activities_eq (s : State Nat Nat) : s.activities = s.pendingWaits + s.leftover := by
  rw [activities, waiting, leftover, countP_isLive, fetched, sent]
  omega

theorem activities_start (env : Env) (s : State Nat Nat) :
    (start env s).activities = s.leftover + 1 := by
  rw [activities_eq]
  have cancelled : ∀ n, (List.replicate n (Handler.wait .operationAborted)).countP
      Handler.isLive = 0 := by
    intro n
    simp [List.countP_replicate, Handler.isLive, ErrorCode.failed]
  cases ht : s.timer_ <;>
    simp [start, pendingWaits, leftover, fetching, sending, ht, cancelled]
  all_goals omega

end State

/-! ## Lists with owners -/

section Forall₂

variable {γ δ : Type} {R : γ → δ → Prop}

theorem forall₂_replicate {a : γ} {bs : List δ} (h : ∀ b ∈ bs, R a b) :
    List.Forall₂ R (List.replicate bs.length a) bs := by
  induction bs with
  | nil => exact .nil
  | cons b bs ih =>
    exact .cons (h b List.mem_cons_self) (ih fun c hc => h c (List.mem_cons_of_mem b hc))

theorem forall₂_replicate_right {as : List γ} {b : δ} (h : ∀ a ∈ as, R a b) :
    List.Forall₂ R as (List.replicate as.length b) :=
  (forall₂_replicate (R := fun b a => R a b) h).flip

theorem forall₂_set {as : List γ} {bs : List δ} (h : List.Forall₂ R as bs) (i : Nat) {a : γ}
    (anyone : ∀ b, R a b) : List.Forall₂ R (as.set i a) bs := by
  induction h generalizing i with
  | nil => exact .nil
  | cons first _ ih =>
    cases i with
    | zero => exact .cons (anyone _) ‹_›
    | succ i => exact .cons first (ih i)

theorem forall₂_getElem? {as : List γ} {bs : List δ} (h : List.Forall₂ R as bs) {i : Nat} {a : γ}
    (found : as[i]? = some a) : ∃ b, bs[i]? = some b ∧ R a b := by
  induction h generalizing i with
  | nil => simp at found
  | cons first _ ih =>
    cases i with
    | zero =>
      obtain rfl : _ = a := by simpa using found
      exact ⟨_, rfl, first⟩
    | succ i => exact ih (by simpa using found)

end Forall₂

/-! ## Only the new loop acts -/

/-- All that is alive belongs to the new loop, and only that loop has acted. -/
structure OnlyNew (t : Owned) : Prop where
  waits : t.state.pendingWaits = t.owners.timer.length
  timer : ∀ o ∈ t.owners.timer, o = .new
  ready : List.Forall₂ (fun h o => h.isLive → o = .new) t.state.ready t.owners.ready
  gets : List.Forall₂ (fun n o => n = 0 → o = .new) t.state.gets t.owners.gets
  sends : List.Forall₂ (fun n o => n = 0 → o = .new) t.state.sends t.owners.sends
  acts : ∀ o ∈ t.owners.acts, o = .new

theorem start_ready (env : Env) (s : State Nat Nat) :
    (start env s).ready =
      s.ready ++ List.replicate s.pendingWaits (.wait .operationAborted) := by
  cases ht : s.timer_ <;> simp [start, State.pendingWaits, ht]

namespace OnlyNew

variable {t : Owned}

/-- The waits on the timer, once they are queued. -/
theorem queued (inv : OnlyNew t) (ec : ErrorCode) :
    List.Forall₂ (fun h o => h.isLive → o = .new)
      (List.replicate t.state.pendingWaits (Handler.wait ec)) t.owners.timer := by
  rw [inv.waits]
  exact forall₂_replicate fun o ho _ => inv.timer o ho

/-- The owner of a live handler at the head of the queue. -/
theorem head (inv : OnlyNew t) {h : Handler} {rest : List Handler} (hr : t.state.ready = h :: rest) :
    ∃ owner owners, t.owners.ready = owner :: owners ∧ (h.isLive → owner = .new) ∧
      List.Forall₂ (fun h o => h.isLive → o = .new) rest owners := by
  have ready := inv.ready
  rw [hr] at ready
  obtain ⟨owner, owners, first, others, eq⟩ := List.forall₂_cons_left_iff.mp ready
  exact ⟨owner, owners, eq, first, others⟩

end OnlyNew

/-- The new loop arms the timer. -/
theorem OnlyNew.rearmed {env : Env} {t : Owned} (inv : OnlyNew t) {h : Handler}
    {rest : List Handler} {timer : SteadyTimer} (hr : t.state.ready = h :: rest)
    (live : h.isLive) (ht : t.state.timer_ = some timer) (count : Nat) (e : Entry) :
    let s' := ({ t.state with ready := rest, timeoutCount_ := count }.note e).rearmed env timer
    OnlyNew ⟨s', t.owners.next t.state s' (.run : Event Unit Unit)⟩ := by
  intro s'
  obtain ⟨owner, owners, eq, mine, others⟩ := inv.head hr
  obtain rfl := mine live
  have next : t.owners.next t.state s' (.run : Event Unit Unit) =
      { t.owners with
        timer := [.new], ready := owners ++ t.owners.timer, acts := t.owners.acts ++ [.new] } := by
    simp [Owners.next, Owners.ran, eq, s']
  rw [next]
  refine ⟨rfl, by simp, ?_, inv.gets, inv.sends, ?_⟩
  · rw [State.rearmed_ready, ← State.pendingWaits_of_timer ht]
    exact List.rel_append others (inv.queued _)
  · simpa [or_imp, forall_and] using inv.acts

theorem step_onlyNew {env : Env} {t u : Owned} {e : Event OwlGetImage.Report OwlSendResult.Report}
    (inv : OnlyNew t) (h : Owned.step env t e = some u) : OnlyNew u := by
  obtain ⟨s', hs, rfl⟩ := Option.map_eq_some_iff.mp h
  cases step_stepped hs with
  | start =>
    refine ⟨rfl, by simp [Owners.next], ?_, inv.gets, inv.sends, inv.acts⟩
    rw [start_ready]
    exact List.rel_append inv.ready (inv.queued _)
  | expire timer ht waiting expired =>
    refine ⟨rfl, by simp [Owners.next], ?_, inv.gets, inv.sends, inv.acts⟩
    rw [← State.pendingWaits_of_timer ht]
    exact List.rel_append inv.ready (inv.queued _)
  | abort ec rest hr failed =>
    obtain ⟨owner, owners, eq, -, others⟩ := inv.head hr
    simp only [Owners.next, Owners.ran, eq, State.note_history, List.getLast?_concat]
    exact ⟨inv.waits, inv.timer, others, inv.gets, inv.sends, inv.acts⟩
  | fetch rest g hr hg =>
    obtain ⟨owner, owners, eq, live, others⟩ := inv.head hr
    obtain rfl := live rfl
    simp only [Owners.next, Owners.ran, eq, State.note_history, List.getLast?_concat]
    refine ⟨inv.waits, inv.timer, others, ?_, inv.sends, ?_⟩
    · exact List.rel_append inv.gets (.cons (fun _ => rfl) .nil)
    · simpa [or_imp, forall_and] using inv.acts
  | send r rest o p hr hec hok himg ho hp =>
    obtain ⟨owner, owners, eq, live, others⟩ := inv.head hr
    obtain rfl := live rfl
    simp only [Owners.next, Owners.ran, eq, State.note_history, List.getLast?_concat]
    refine ⟨inv.waits, inv.timer, others, inv.gets, ?_, inv.acts⟩
    exact List.rel_append inv.sends (.cons (fun _ => rfl) .nil)
  | getRearm r rest branch count timer hr hc himg ht => exact inv.rearmed hr rfl ht count _
  | sendRearm r rest branch count timer hr hc ht => exact inv.rearmed hr rfl ht count _
  | flush ec => exact ⟨inv.waits, inv.timer, inv.ready, inv.gets, inv.sends, inv.acts⟩
  | get i n g g' reports hg hstep =>
    obtain ⟨rfl, rfl, rfl⟩ := Net.reporting_getStep hstep
    obtain ⟨owner, found, live⟩ := forall₂_getElem? inv.gets hg
    obtain rfl := live rfl
    refine ⟨inv.waits, inv.timer, ?_, forall₂_set inv.gets i (by simp), inv.sends, inv.acts⟩
    have reported := List.rel_append inv.ready
      (.cons (fun _ => rfl) .nil : List.Forall₂ _ [Handler.getDone n] [Owner.new])
    simpa [Owners.next, found] using reported
  | sent i n p p' reports hp hstep =>
    obtain ⟨rfl, rfl, rfl⟩ := Net.reporting_sendStep hstep
    obtain ⟨owner, found, live⟩ := forall₂_getElem? inv.sends hp
    obtain rfl := live rfl
    refine ⟨inv.waits, inv.timer, ?_, inv.gets, forall₂_set inv.sends i (by simp), inv.acts⟩
    have reported := List.rel_append inv.ready
      (.cons (fun _ => rfl) .nil : List.Forall₂ _ [Handler.sendDone n] [Owner.new])
    simpa [Owners.next, found] using reported

/-- When `start` leaves nothing of the old loop, all that is alive after it is new. -/
theorem restarted_onlyNew {env : Env} {s : State Nat Nat} {t : Owned} (quiet : s.leftover = 0)
    (h : Owned.step env (.before s) .start = some t) : OnlyNew t := by
  obtain rfl := Option.some.inj h
  have none_left : s.ready.countP Handler.isLive = 0 ∧ s.fetching = 0 ∧ s.sending = 0 := by
    rw [State.leftover] at quiet
    omega
  obtain ⟨ready, fetching, sending⟩ := none_left
  refine ⟨rfl, by simp [Owners.next], ?_, ?_, ?_, by simp [Owners.next, Owned.before]⟩
  · have dead : (start env s).ready.countP Handler.isLive = 0 := by
      simp [start_ready, List.countP_replicate, Handler.isLive, ErrorCode.failed, ready]
    have owners : List.replicate s.ready.length Owner.old ++ List.replicate s.pendingWaits .old =
        List.replicate (start env s).ready.length .old := by
      simp [start_ready]
    simp only [Owners.next, Owned.before, owners]
    exact forall₂_replicate_right fun h hh live => absurd live (List.countP_eq_zero.mp dead h hh)
  · refine forall₂_replicate_right fun n hn zero => ?_
    exact absurd (zero ▸ hn) (List.count_eq_zero.mp fetching)
  · refine forall₂_replicate_right fun n hn zero => ?_
    exact absurd (zero ▸ hn) (List.count_eq_zero.mp sending)

/-! ## Otherwise the old loop acts -/

/-- The old loop owns all that is in the state but the timer. -/
structure AllOld (t : Owned) : Prop where
  timer : t.state.timer_.isSome
  ready : t.owners.ready = List.replicate t.state.ready.length .old
  gets : t.owners.gets = List.replicate t.state.gets.length .old
  sends : t.owners.sends = List.replicate t.state.sends.length .old

/-- Some continuation in which nobody calls `start` lets the old loop act. -/
def OldActs (env : Env) (t : Owned) : Prop :=
  ∃ fs u, .start ∉ fs ∧ exec (Owned.step env) t fs = some u ∧ .old ∈ u.owners.acts

theorem OldActs.cons {env : Env} {t u : Owned}
    {e : Event OwlGetImage.Report OwlSendResult.Report} (once : e ≠ .start)
    (h : Owned.step env t e = some u) (later : OldActs env u) : OldActs env t := by
  obtain ⟨fs, v, none_started, run, acts⟩ := later
  exact ⟨e :: fs, v, by simp [once.symm, none_started], by simp [h, run], acts⟩

theorem OldActs.now {env : Env} {t u : Owned}
    {e : Event OwlGetImage.Report OwlSendResult.Report} (once : e ≠ .start)
    (h : Owned.step env t e = some u) (acts : .old ∈ u.owners.acts) : OldActs env t :=
  .cons once h ⟨[], u, by simp, rfl, acts⟩

namespace AllOld

variable {env : Env} {t : Owned} {h : Handler} {rest : List Handler}

theorem head (inv : AllOld t) (hr : t.state.ready = h :: rest) :
    t.owners.ready = .old :: List.replicate rest.length .old := by
  rw [inv.ready, hr, List.length_cons, List.replicate_succ]

/-- A completion at the head of the queue that arms the timer. -/
theorem completed (inv : AllOld t) (hr : t.state.ready = h :: rest) {count : Nat} {e : Entry}
    {timer : SteadyTimer}
    (armed : OwlTagProcessor.step env Net.once t.state .run =
      some (({ t.state with ready := rest, timeoutCount_ := count }.note e).rearmed env timer)) :
    OldActs env t := by
  refine .now (by simp) (Option.map_eq_some_iff.mpr ⟨_, armed, rfl⟩) ?_
  simp [Owners.next, Owners.ran, inv.head hr]

/-- The completion of a GET that does not go on to the analysis. -/
theorem getDone (inv : AllOld t) (r : OwlGetImage.Report) (rest : List Handler)
    (hr : t.state.ready = .getDone r :: rest)
    (back : (complete env.timeoutCountLimit_ t.state.timeoutCount_ r.ec r.ok).1 = .proceed →
      r.img.empty = true) : OldActs env t := by
  obtain ⟨timer, ht⟩ := Option.isSome_iff_exists.mp inv.timer
  exact inv.completed hr (step_of_stepped (.getRearm r rest _ _ timer hr rfl back ht))

theorem sendDone (inv : AllOld t) (r : OwlSendResult.Report) (rest : List Handler)
    (hr : t.state.ready = .sendDone r :: rest) : OldActs env t := by
  obtain ⟨timer, ht⟩ := Option.isSome_iff_exists.mp inv.timer
  exact inv.completed hr (step_of_stepped (.sendRearm r rest _ _ timer hr rfl ht))

theorem getD_replicate_old (n i : Nat) :
    (List.replicate n Owner.old)[i]?.getD .old = .old := by
  rw [List.getElem?_replicate]
  split <;> rfl

/-- A running GET reports a timeout, and its completion arms the timer. -/
theorem fetching (inv : AllOld t) (idle : t.state.ready = []) (running : 0 ∈ t.state.gets) :
    OldActs env t := by
  obtain ⟨i, hi⟩ := List.mem_iff_getElem?.mp running
  let r : OwlGetImage.Report := ⟨.timeout, false, {}⟩
  have reported := step_of_stepped
    (.get i r 0 1 [r] hi rfl : Stepped env Net.once t.state (.get i r) _)
  refine .cons (by simp) (Option.map_eq_some_iff.mpr ⟨_, reported, rfl⟩) ?_
  refine getDone ⟨inv.timer, ?_, ?_, inv.sends⟩ r [] (by simp [idle]) fun _ => rfl
  · have owner : t.owners.gets[i]?.getD .old = .old := inv.gets ▸ getD_replicate_old _ i
    simp [Owners.next, inv.ready, idle, owner]
  · simp [Owners.next, inv.gets]

theorem sending (inv : AllOld t) (idle : t.state.ready = []) (running : 0 ∈ t.state.sends) :
    OldActs env t := by
  obtain ⟨i, hi⟩ := List.mem_iff_getElem?.mp running
  let r : OwlSendResult.Report := ⟨.timeout, false⟩
  have reported := step_of_stepped
    (.sent i r 0 1 [r] hi rfl : Stepped env Net.once t.state (.send i r) _)
  refine .cons (by simp) (Option.map_eq_some_iff.mpr ⟨_, reported, rfl⟩) ?_
  refine sendDone ⟨inv.timer, ?_, inv.gets, ?_⟩ r [] (by simp [idle])
  · have owner : t.owners.sends[i]?.getD .old = .old := inv.sends ▸ getD_replicate_old _ i
    simp [Owners.next, inv.ready, idle, owner]
  · simp [Owners.next, inv.sends]

end AllOld

/-- Whatever is left of the old loop acts in some continuation, if the analysis never throws.
The queue is run from its head; a handler that does not act only hands its turn on. -/
theorem oldActs_of_leftover {env : Env} (total : ∀ img, ∃ o, env.analysis img = .ok o) {t : Owned}
    (inv : AllOld t) (some_left : 0 < t.state.leftover) : OldActs env t := by
  induction hn : t.state.ready.length generalizing t with
  | zero =>
    have idle : t.state.ready = [] := List.eq_nil_of_length_eq_zero hn
    simp only [State.leftover, idle, List.countP_nil, Nat.zero_add] at some_left
    rcases Nat.eq_zero_or_pos t.state.fetching with no_get | running
    · exact inv.sending idle (List.count_pos_iff.mp (by rw [State.sending] at some_left; omega))
    · exact inv.fetching idle (List.count_pos_iff.mp running)
  | succ n ih =>
    obtain ⟨h, rest, hr⟩ := List.exists_cons_of_length_eq_add_one hn
    have shorter : rest.length = n := by simpa [hr] using hn
    cases h with
    | wait ec =>
      by_cases ok : ec = .success
      · subst ok
        have fetched := step_of_stepped (.fetch rest 0 hr rfl : Stepped env Net.once _ _ _)
        refine .now (by simp) (Option.map_eq_some_iff.mpr ⟨_, fetched, rfl⟩) ?_
        simp [Owners.next, Owners.ran, inv.head hr]
      · have aborted := step_of_stepped (.abort ec rest hr ok : Stepped env Net.once _ _ _)
        refine .cons (by simp) (Option.map_eq_some_iff.mpr ⟨_, aborted, rfl⟩) ?_
        refine ih ?_ ?_ shorter
        · refine ⟨inv.timer, ?_, ?_, ?_⟩ <;>
            simp [Owners.next, Owners.ran, inv.head hr, inv.gets, inv.sends]
        · simpa [State.leftover, State.fetching, State.sending, hr, Handler.isLive,
            ErrorCode.failed_eq_true.mpr ok] using some_left
    | getDone r =>
      by_cases back : (complete env.timeoutCountLimit_ t.state.timeoutCount_ r.ec r.ok).1 =
          .proceed → r.img.empty = true
      · exact inv.getDone r rest hr back
      · rcases hc : complete env.timeoutCountLimit_ t.state.timeoutCount_ r.ec r.ok with
          ⟨branch, count⟩
        simp only [hc, Classical.not_imp, Bool.not_eq_true] at back
        obtain ⟨rfl, seen⟩ := back
        obtain ⟨hec, hok, rfl⟩ := complete_proceed hc
        obtain ⟨o, ho⟩ := total r.img
        have posted := step_of_stepped
          (.send r rest o 0 hr hec hok seen ho rfl : Stepped env Net.once _ _ _)
        refine .cons (by simp) (Option.map_eq_some_iff.mpr ⟨_, posted, rfl⟩) ?_
        refine ih ?_ ?_ shorter
        · refine ⟨inv.timer, ?_, ?_, ?_⟩ <;>
            simp [Owners.next, Owners.ran, inv.head hr, inv.gets, inv.sends,
              List.replicate_succ']
        · have running : 0 < (t.state.sends ++ [0]).count 0 := List.count_pos_iff.mpr (by simp)
          exact Nat.lt_of_lt_of_le running (Nat.le_add_left ..)
    | sendDone r => exact inv.sendDone r rest hr

/-! ## One call of start -/

/-- From now on only the new loop acts. -/
def OnlyNewActs (env : Env) (s : State Nat Nat) : Prop :=
  ∀ fs t, exec (Owned.step env) (.before s) (.start :: fs) = some t →
    ∀ o ∈ t.owners.acts, o = .new

/-- There is one loop, until somebody calls `start` again. -/
def OneLoop (env : Env) (s : State Nat Nat) : Prop :=
  ∀ fs t, .start ∉ fs → exec (step env Net.once) (start env s) fs = some t → t.activities = 1

theorem onlyNewActs_of_quiet (env : Env) {s : State Nat Nat} (quiet : s.leftover = 0) :
    OnlyNewActs env s := by
  intro fs t run
  obtain ⟨u, first, later⟩ := Option.bind_eq_some_iff.mp run
  exact (exec_invariant (fun _ => True) (fun _ _ _ _ inv h => step_onlyNew inv h)
    (restarted_onlyNew quiet first) (fun _ _ => trivial) later).acts

theorem oneLoop_iff (env : Env) (s : State Nat Nat) : OneLoop env s ↔ s.leftover = 0 := by
  constructor
  · intro one
    have first : (start env s).activities = 1 := one [] _ (by simp) rfl
    rw [State.activities_start] at first
    omega
  · intro quiet fs t once run
    refine exec_invariant (· ≠ .start) (fun _ _ _ ok one h => step_activities ok one h) ?_ ?_ run
    · rw [State.activities_start, quiet]
    · rintro e he rfl
      exact once he

theorem leftover_of_onlyNewActs {env : Env} (total : ∀ img, ∃ o, env.analysis img = .ok o)
    {s : State Nat Nat} (only : OnlyNewActs env s) : s.leftover = 0 := by
  by_contra some_left
  have started : Owned.step env (.before s) .start =
      some ⟨start env s, (Owned.before s).owners.next s (start env s) (.start : Event Unit Unit)⟩ :=
    rfl
  have inv : AllOld ⟨start env s,
      (Owned.before s).owners.next s (start env s) (.start : Event Unit Unit)⟩ := by
    refine ⟨rfl, ?_, rfl, rfl⟩
    simp [Owners.next, Owned.before, start_ready]
  have left : (start env s).leftover = s.leftover := by
    have both := State.activities_start env s
    rw [State.activities_eq, show (start env s).pendingWaits = 1 from rfl] at both
    omega
  obtain ⟨fs, u, -, run, acts⟩ := oldActs_of_leftover total inv (by rw [left]; omega)
  have new := only fs u (by rw [exec_cons, started]; exact run) .old acts
  contradiction

/-- A further `start` leaves one loop exactly when nothing of the old one has got past its wait:
no expired wait or completion is queued and no session is running. Then the old loop never acts
again; and if the analysis never throws, it is only then that it never does. The owners that
tell the two loops apart change nothing. -/
theorem start_supersedes_iff (env : Env) (s : State Nat Nat) :
    ((OneLoop env s ∧ OnlyNewActs env s) ↔ s.leftover = 0) ∧
      ((∀ img, ∃ o, env.analysis img = .ok o) → (OnlyNewActs env s ↔ s.leftover = 0)) ∧
      ∀ es, (exec (Owned.step env) (.before s) es).map Owned.state =
        exec (step env Net.once) s es := by
  refine ⟨⟨?_, ?_⟩, ?_, Owned.exec_state env (.before s)⟩
  · rintro ⟨one, -⟩
    exact (oneLoop_iff env s).mp one
  · intro quiet
    exact ⟨(oneLoop_iff env s).mpr quiet, onlyNewActs_of_quiet env quiet⟩
  · intro total
    exact ⟨leftover_of_onlyNewActs total, onlyNewActs_of_quiet env⟩

/-- On a loop that is waiting the call leaves one loop; on one with a GET running it does not. -/
theorem a_waiting_loop_is_superseded :
    let env := { Env.sample with analysis := fun _ => .ok {} }
    (OneLoop env (started env) ∧ OnlyNewActs env (started env)) ∧
      ∃ s, exec (step env Net.once) (started env) [.expire, .run] = some s ∧
        ¬ OnlyNewActs env s := by
  intro env
  refine ⟨(start_supersedes_iff env _).1.mpr rfl, ?_⟩
  have fetching : (exec (step env Net.once) (started env) [.expire, .run]).map State.leftover =
      some 1 := by decide +kernel
  obtain ⟨s, run, left⟩ := Option.map_eq_some_iff.mp fetching
  refine ⟨s, run, ?_⟩
  intro only
  have quiet := ((start_supersedes_iff env s).2.1 fun _ => ⟨_, rfl⟩).mp only
  omega

/-- A GET is running at the call. It times out, and its completion arms the new timer. -/
theorem running_get_arms_the_new_timer :
    ¬ ∀ es s, exec (step .sample Net.once) (started .sample) es = some s →
      OneLoop .sample s ∧ OnlyNewActs .sample s := by
  intro h
  have later := (h [.expire, .run] _ rfl).2 [.get 0 ⟨.timeout, false, {}⟩, .run] _ rfl
  exact absurd (later .old (by decide)) (by decide)

end OwlTagProcessor
