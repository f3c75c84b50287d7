import OwlAprilTagProcessor.Session.Reports

/-!
# The deadlines of a session

`timeoutMs` should bound the connect phase, which `on_resolve` starts, and the phase of
the write and the read, which `on_connect` starts. The first deadline is set in
milliseconds, the second one in seconds, so a session that connects keeps the bound only
where the seconds overflow to so few ticks that they come out within the milliseconds.
-/

namespace Session
open Asio Transition

variable {Res Report : Type}

/-- The clock reading at which a completion starts a phase. -/
def Completion.phaseStart : Completion Res → Option Int
  | .resolved now _ | .connected now _ => some now
  | .written _ | .read _ _ _ => none

def Completion.resolvedAt : Completion Res → Option Int
  | .resolved now _ => some now
  | _ => none

namespace HttpSession

/-- While a connect, a write or a read is outstanding, the stream has a deadline, at most
`timeoutMs` after the phase began and at most twice that after the name was resolved. -/
def DeadlineBounded (es : List (Completion Res)) (s : HttpSession Report) : Prop :=
  ∀ op, s.outstanding = some op → op ≠ .resolve →
    ∃ deadline began resolved, s.deadline = some deadline ∧
      (es.filterMap Completion.phaseStart).getLast? = some began ∧
      (es.filterMap Completion.resolvedAt).getLast? = some resolved ∧
      deadline ≤ began + milliseconds s.timeoutMs_.toInt ∧
      deadline ≤ resolved + 2 * milliseconds s.timeoutMs_.toInt

/-- What has completed so far, and the deadline, for each outstanding operation. -/
structure Phase (timeoutMs : Int64) (es : List (Completion Res)) (s : HttpSession Report) :
    Prop where
  timeout : s.timeoutMs_ = timeoutMs
  resolving : s.outstanding = some .resolve → es = []
  connecting : s.outstanding = some .connect → ∃ now, es = [.resolved now .success] ∧
    s.deadline = expiresAfter now (millisecondTicks timeoutMs)
  writing : s.outstanding = some .write → ∃ before now,
    es = [.resolved before .success, .connected now .success] ∧
    s.deadline = expiresAfter now (secondTicks timeoutMs)
  reading : s.outstanding = some .read → ∃ before now,
    es = [.resolved before .success, .connected now .success, .written .success] ∧
    s.deadline = expiresAfter now (secondTicks timeoutMs)

theorem phase {x : Exchange Res Report} {s t : HttpSession Report}
    {es : List (Completion Res)} (fresh : s.Fresh) (run : exec (step x) s es = some t) :
    Phase s.timeoutMs_ es t := by
  refine exec_induction ?_ ?_ run
  · exact ⟨rfl, fun _ => rfl, by simp [fresh.outstanding], by simp [fresh.outstanding],
      by simp [fresh.outstanding]⟩
  · intro es u e v _ ih last
    have timeout : v.timeoutMs_ = s.timeoutMs_ := (step_frame last).2.1.trans ih.timeout
    cases step_handled last with
    | resolved now resolving =>
      exact ⟨timeout, by simp, fun _ => ⟨now, by simp [ih.resolving resolving],
        by simp [ih.timeout]⟩, by simp, by simp⟩
    | connected now connecting =>
      obtain ⟨before, rfl, -⟩ := ih.connecting connecting
      exact ⟨timeout, by simp, by simp, fun _ => ⟨before, now, rfl, by simp [ih.timeout]⟩,
        by simp⟩
    | written writing =>
      obtain ⟨before, now, rfl, deadline⟩ := ih.writing writing
      exact ⟨timeout, by simp, by simp, by simp, fun _ => ⟨before, now, rfl, deadline⟩⟩
    | failed _ _ _ | read res shutdown _ =>
      -- nothing is outstanding any more
      exact ⟨timeout, by simp, by simp, by simp, by simp⟩

/-- The bound as a condition on what was configured and on when the name was resolved and
the peer connected: the stream has a deadline in both phases, the deadline of the second
one, in seconds, is within the milliseconds, and it is not too long after the lookup. -/
structure KeepsBound (timeoutMs : Int64) (es : List (Completion Res)) : Prop where
  connect : ∀ resolved, .resolved resolved .success ∈ es →
    resolved + (millisecondTicks timeoutMs).toInt < timePointMax
  transfer : ∀ connected, .connected connected .success ∈ es →
    connected + (secondTicks timeoutMs).toInt < timePointMax ∧
      (secondTicks timeoutMs).toInt ≤ milliseconds timeoutMs.toInt
  total : ∀ resolved connected, .resolved resolved .success ∈ es →
    .connected connected .success ∈ es →
    connected + (secondTicks timeoutMs).toInt ≤ resolved + 2 * milliseconds timeoutMs.toInt

theorem KeepsBound.initial {timeoutMs : Int64} {es fs : List (Completion Res)}
    (keeps : KeepsBound timeoutMs es) (initial : fs <+: es) : KeepsBound timeoutMs fs where
  connect resolved member := keeps.connect resolved (initial.subset member)
  transfer connected member := keeps.transfer connected (initial.subset member)
  total resolved connected first second :=
    keeps.total resolved connected (initial.subset first) (initial.subset second)

/-- Where the seconds do not overflow, a session that keeps its bound has not connected. -/
theorem keepsBound_iff_of_fits {timeoutMs : Int64} (positive : 0 < timeoutMs.toInt)
    (fits : timeoutMs.toInt ≤ 9223372036) (es : List (Completion Res)) :
    KeepsBound timeoutMs es ↔
      (∀ resolved, .resolved resolved .success ∈ es →
        resolved + (millisecondTicks timeoutMs).toInt < timePointMax) ∧
      ∀ connected, .connected connected .success ∉ es := by
  have exact := secondTicks_eq (by omega) fits
  constructor
  · intro keeps
    refine ⟨keeps.connect, fun connected member => ?_⟩
    have within := (keeps.transfer connected member).2
    rw [exact, seconds, milliseconds] at within
    omega
  · rintro ⟨connect, apart⟩
    exact ⟨connect, fun connected member => absurd member (apart connected),
      fun _ connected _ member => absurd member (apart connected)⟩

/-- The write and the read keep the bound alike: both run on the deadline of `on_connect`. -/
theorem KeepsBound.bounded_of_connected {timeoutMs : Int64} {s : HttpSession Report}
    {before now : Int} {rest : List (Completion Res)}
    (keeps : KeepsBound timeoutMs
      (.resolved before .success :: .connected now .success :: rest))
    (later : rest = [] ∨ rest = [.written .success])
    (timeout : s.timeoutMs_ = timeoutMs)
    (deadline : s.deadline = expiresAfter now (secondTicks timeoutMs)) :
    s.DeadlineBounded (.resolved before .success :: .connected now .success :: rest) := by
  obtain ⟨finite, within⟩ := keeps.transfer now (by simp)
  have total := keeps.total before now (by simp) (by simp)
  have some := deadline.trans (expiresAfter_eq_some.mpr ⟨finite, rfl⟩)
  intro op _ _
  obtain rfl | rfl := later <;>
    exact ⟨_, now, before, some, rfl, rfl, by rw [timeout]; omega, by rw [timeout]; exact total⟩

theorem KeepsBound.bounded {x : Exchange Res Report} {s t : HttpSession Report}
    {es : List (Completion Res)} (positive : 0 < s.timeoutMs_.toInt) (fresh : s.Fresh)
    (run : exec (step x) s es = some t) (keeps : KeepsBound s.timeoutMs_ es) :
    t.DeadlineBounded es := by
  have ph := phase fresh run
  intro op outstanding later
  cases op with
  | resolve => exact absurd rfl later
  | connect =>
    obtain ⟨now, rfl, deadline⟩ := ph.connecting outstanding
    have finite := keeps.connect now (by simp)
    have within := millisecondTicks_le (n := s.timeoutMs_) (by omega)
    have bound : 0 ≤ milliseconds s.timeoutMs_.toInt := by
      rw [milliseconds]
      omega
    refine ⟨_, now, now, deadline.trans (expiresAfter_eq_some.mpr ⟨finite, rfl⟩), rfl, rfl,
      ?_, ?_⟩ <;> rw [ph.timeout] <;> omega
  | write =>
    obtain ⟨before, now, rfl, deadline⟩ := ph.writing outstanding
    exact keeps.bounded_of_connected (.inl rfl) ph.timeout deadline .write outstanding later
  | read =>
    obtain ⟨before, now, rfl, deadline⟩ := ph.reading outstanding
    exact keeps.bounded_of_connected (.inr rfl) ph.timeout deadline .read outstanding later

theorem step_resolved {x : Exchange Res Report} {s t : HttpSession Report} {now : Int}
    (h : step x s (.resolved now .success) = some t) : t.outstanding = some .connect := by
  cases step_handled h with
  | resolved => rfl
  | failed _ _ bad => exact absurd rfl bad

theorem step_connected {x : Exchange Res Report} {s t : HttpSession Report} {now : Int}
    (h : step x s (.connected now .success) = some t) : t.outstanding = some .write := by
  cases step_handled h with
  | connected => rfl
  | failed _ _ bad => exact absurd rfl bad

/-- A name that is found was looked up first of all, and the connect starts. -/
theorem connecting_of_resolved {x : Exchange Res Report} {s t : HttpSession Report}
    {es : List (Completion Res)} {now : Int} (fresh : s.Fresh)
    (run : exec (step x) s es = some t) (member : .resolved now .success ∈ es) :
    ∃ rest u, es = .resolved now .success :: rest ∧
      exec (step x) s [.resolved now .success] = some u ∧ u.outstanding = some .connect := by
  obtain ⟨fs, rest, v, u, rfl, last, start⟩ := exec_of_mem run member
  have connecting := step_resolved last
  obtain ⟨now', only, -⟩ := (phase fresh start).connecting connecting
  have last : fs ++ [_] = [] ++ [_] := only
  obtain ⟨rfl, -⟩ := List.append_inj' last rfl
  exact ⟨rest, u, rfl, start, connecting⟩

/-- A peer that is connected was connected right after that, and the write starts. -/
theorem writing_of_connected {x : Exchange Res Report} {s t : HttpSession Report}
    {es : List (Completion Res)} {now : Int} (fresh : s.Fresh)
    (run : exec (step x) s es = some t) (member : .connected now .success ∈ es) :
    ∃ before rest u, es = .resolved before .success :: .connected now .success :: rest ∧
      exec (step x) s [.resolved before .success, .connected now .success] = some u ∧
      u.outstanding = some .write := by
  obtain ⟨fs, rest, v, u, rfl, last, start⟩ := exec_of_mem run member
  have writing := step_connected last
  obtain ⟨before, now', only, -⟩ := (phase fresh start).writing writing
  have last : fs ++ [_] = [.resolved before .success] ++ [_] := only
  obtain ⟨rfl, -⟩ := List.append_inj' last rfl
  exact ⟨before, rest, u, rfl, start, writing⟩

section Bounded

variable {x : Exchange Res Report} {s t : HttpSession Report} {es : List (Completion Res)}

/-- A session that connects within the bound shows what its second deadline is. -/
theorem transfer_of_bounded (fresh : s.Fresh) (run : exec (step x) s es = some t)
    (bounded : ∀ fs u, fs <+: es → exec (step x) s fs = some u → u.DeadlineBounded fs)
    {connected : Int} (member : .connected connected .success ∈ es) :
    (connected + (secondTicks s.timeoutMs_).toInt < timePointMax ∧
      (secondTicks s.timeoutMs_).toInt ≤ milliseconds s.timeoutMs_.toInt) ∧
    ∀ resolved, .resolved resolved .success ∈ es →
      connected + (secondTicks s.timeoutMs_).toInt ≤
        resolved + 2 * milliseconds s.timeoutMs_.toInt := by
  obtain ⟨before, rest, u, rfl, start, writing⟩ := writing_of_connected fresh run member
  have ph := phase fresh start
  obtain ⟨before', now, only, deadline⟩ := ph.writing writing
  obtain ⟨d, began, resolved, hd, hbegan, hresolved, le, le'⟩ :=
    bounded _ u ⟨rest, rfl⟩ start .write writing (by decide)
  obtain ⟨finite, rfl⟩ := expiresAfter_eq_some.mp (deadline.symm.trans hd)
  obtain ⟨rfl, rfl⟩ : before = before' ∧ connected = now := by simpa using only
  obtain rfl : connected = began := by simpa [Completion.phaseStart] using hbegan
  obtain rfl : before = resolved := Option.some.inj hresolved
  rw [ph.timeout] at le le'
  refine ⟨⟨finite, by omega⟩, fun resolved first => ?_⟩
  -- the name was looked up once
  obtain ⟨_, -, same, -⟩ := connecting_of_resolved fresh run first
  obtain ⟨rfl, -⟩ : before = resolved ∧ _ := by simpa using same
  exact le'

/-- A run that goes through bounded states only keeps the bound. -/
theorem keepsBound_of_bounded (fresh : s.Fresh) (run : exec (step x) s es = some t)
    (bounded : ∀ fs u, fs <+: es → exec (step x) s fs = some u → u.DeadlineBounded fs) :
    KeepsBound s.timeoutMs_ es where
  connect resolved member := by
    obtain ⟨rest, u, rfl, start, connecting⟩ := connecting_of_resolved fresh run member
    obtain ⟨now, only, deadline⟩ := (phase fresh start).connecting connecting
    obtain ⟨d, -, -, hd, -⟩ := bounded _ u ⟨rest, rfl⟩ start .connect connecting (by decide)
    obtain rfl : resolved = now := by simpa using only
    exact (expiresAfter_eq_some.mp (deadline.symm.trans hd)).1
  transfer connected member := (transfer_of_bounded fresh run bounded member).1
  total resolved connected first second :=
    (transfer_of_bounded fresh run bounded second).2 resolved first

theorem deadlineBounded_iff (positive : 0 < s.timeoutMs_.toInt) (fresh : s.Fresh)
    (run : exec (step x) s es = some t) :
    (∀ fs u, fs <+: es → exec (step x) s fs = some u → u.DeadlineBounded fs) ↔
      KeepsBound s.timeoutMs_ es :=
  ⟨keepsBound_of_bounded fresh run, fun keeps _ _ initial start =>
    (keeps.initial initial).bounded positive fresh start⟩

end Bounded

end HttpSession

open OwlGetImage OwlSendResult OwlAprilTagData

/-- In every state a session goes through, the deadline keeps the configured bound, exactly
when the configured value and the times of the lookup and of the connect do. -/
theorem timeoutMs_bounds_every_phase_iff (lib : Libraries) (timeoutMs : Int64)
    (positive : 0 < timeoutMs.toInt) :
    (∀ host port target version callback es (s : GetImageSession),
      exec (GetImageSession.step lib)
        (GetImage.get timeoutMs host port target version callback) es = some s →
      ((∀ fs u, fs <+: es → exec (GetImageSession.step lib)
          (GetImage.get timeoutMs host port target version callback) fs = some u →
          u.DeadlineBounded fs) ↔
        HttpSession.KeepsBound timeoutMs es)) ∧
    (∀ host port target version data callback es (s : SendResultSession),
      exec SendResultSession.step
        (SendResult.send lib timeoutMs host port target version data callback) es = some s →
      ((∀ fs u, fs <+: es → exec SendResultSession.step
          (SendResult.send lib timeoutMs host port target version data callback) fs = some u →
          u.DeadlineBounded fs) ↔
        HttpSession.KeepsBound timeoutMs es)) := by
  constructor
  · intro host port target version callback es s run
    exact HttpSession.deadlineBounded_iff positive
      (GetImage.get_fresh timeoutMs host port target version callback) run
  · intro host port target version data callback es s run
    cases parsed : lib.url target with
    | none =>
      obtain ⟨rfl, -, -⟩ := SendResult.send_rejected parsed timeoutMs host port version
        data callback run
      refine iff_of_true ?_ ⟨by simp, by simp, by simp⟩
      intro fs u initial start op outstanding
      obtain rfl := List.prefix_nil.mp initial
      obtain rfl := Option.some.inj start
      simp [SendResult.send, SendResultSession.run, parsed, HttpSession.make] at outstanding
    | some url =>
      have timeout : (SendResult.send lib timeoutMs host port target version data
          callback).timeoutMs_ = timeoutMs := by
        simp [SendResult.send, SendResultSession.run, parsed, HttpSession.make]
      have bounded_iff := HttpSession.deadlineBounded_iff (by rwa [timeout])
        (SendResult.send_fresh parsed timeoutMs host port version data callback) run
      rwa [timeout] at bounded_iff

/-- With a timeout of one second, a session that has connected may wait for its peer for
a thousand seconds. -/
theorem get_deadline_exceeds_bound :
    let es : List (Completion OwlGetImage.Response) :=
      [.resolved 0 .success, .connected 1000000 .success]
    ¬ ∀ s, exec (GetImageSession.step .sample)
        (GetImage.get 1000 "127.0.0.1" "23331" "/1" 11 true) es = some s →
      s.DeadlineBounded es := by
  intro es h
  obtain ⟨d, began, -, hd, hbegan, -, le, -⟩ := h _ rfl .write rfl (by decide)
  obtain rfl : (1000001000000 : Int) = d := Option.some.inj hd
  obtain rfl : (1000000 : Int) = began := Option.some.inj hbegan
  exact absurd le (by decide)

/-- A session that is refused the connection keeps its bound throughout, and so does one
whose timeout is so long that its seconds overflow, to less than one second. -/
theorem get_deadline_kept :
    (∀ fs u, fs <+: [.resolved 0 .success, .connected 1000000 (.other 111)] →
      exec (GetImageSession.step .sample)
        (GetImage.get 1000 "127.0.0.1" "23331" "/1" 11 true) fs = some u →
      u.DeadlineBounded fs) ∧
    (∀ fs u, fs <+: [.resolved 0 .success, .connected 1000000 .success, .written .success] →
      exec (GetImageSession.step .sample)
        (GetImage.get 18446744074 "127.0.0.1" "23331" "/1" 11 true) fs = some u →
      u.DeadlineBounded fs) := by
  constructor
  · refine ((timeoutMs_bounds_every_phase_iff .sample 1000 (by decide)).1 "127.0.0.1" "23331"
      "/1" 11 true _ _ rfl).mpr ?_
    refine (HttpSession.keepsBound_iff_of_fits (by decide) (by decide) _).mpr ⟨?_, by simp⟩
    intro resolved member
    obtain rfl : resolved = 0 := by simpa using member
    decide
  · refine ((timeoutMs_bounds_every_phase_iff .sample 18446744074 (by decide)).1 "127.0.0.1"
      "23331" "/1" 11 true _ _ rfl).mpr ⟨?_, ?_, ?_⟩
    · intro resolved member
      obtain rfl : resolved = 0 := by simpa using member
      decide
    · intro connected member
      obtain rfl : connected = 1000000 := by simpa using member
      decide
    · intro resolved connected first second
      obtain rfl : resolved = 0 := by simpa using first
      obtain rfl : connected = 1000000 := by simpa using second
      decide

end Session
