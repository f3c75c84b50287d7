import Mathlib.Algebra.BigOperators.Group.List.Basic
import Mathlib.Algebra.Order.Monoid.Defs
import Mathlib.Data.List.Induction

/-!
# Runs of partial transition functions

A system is a state type, an event type and a partial step: `none` means that the
event cannot happen in that state. `exec` runs a list of events. The rules below
carry a fact from one step to a whole run: an invariant, an invariant that also
speaks about the events consumed so far, a potential that pays for the events, a
lockstep comparison of two systems through what is visible of them, and a refinement
that answers each event of the concrete system by a list of events of the abstract one.
A recurrence rule says what comes again and again in a run without end.
-/

namespace Transition

variable {σ τ ε δ υ : Type*}

/-- Run the events from left to right; a refused event refuses the whole run. -/
def exec (step : σ → ε → Option σ) : σ → List ε → Option σ
  | s, [] => some s
  | s, e :: es => (step s e).bind fun t => exec step t es

@[simp] theorem exec_nil (step : σ → ε → Option σ) (s : σ) : exec step s [] = some s := rfl

@[simp] theorem exec_cons (step : σ → ε → Option σ) (s : σ) (e : ε) (es : List ε) :
    exec step s (e :: es) = (step s e).bind fun t => exec step t es := rfl

theorem exec_append (step : σ → ε → Option σ) (s : σ) (es fs : List ε) :
    exec step s (es ++ fs) = (exec step s es).bind fun t => exec step t fs := by
  induction es generalizing s with
  | nil => rfl
  | cons e es ih =>
    cases he : step s e with
    | none => simp [he]
    | some t => simp [he, ih t]

/-- A run that ends with the event `e` is a run followed by one step. -/
theorem exec_concat (step : σ → ε → Option σ) (s : σ) (es : List ε) (e : ε) :
    exec step s (es ++ [e]) = (exec step s es).bind fun t => step t e := by
  simp [exec_append]

theorem exec_append_some {step : σ → ε → Option σ} {s u : σ} {es fs : List ε}
    (run : exec step s (es ++ fs) = some u) :
    ∃ t, exec step s es = some t ∧ exec step t fs = some u := by
  rw [exec_append] at run
  exact Option.bind_eq_some_iff.mp run

/-- Every event of a run is the step that ends an initial part of it. -/
theorem exec_of_mem {step : σ → ε → Option σ} {s u : σ} {es : List ε} {e : ε}
    (run : exec step s es = some u) (member : e ∈ es) :
    ∃ before after v w, es = before ++ e :: after ∧ step v e = some w ∧
      exec step s (before ++ [e]) = some w := by
  obtain ⟨before, after, rfl⟩ := List.append_of_mem member
  rw [List.append_cons] at run
  obtain ⟨w, start, -⟩ := exec_append_some run
  have last := start
  rw [exec_concat] at last
  obtain ⟨v, -, last⟩ := Option.bind_eq_some_iff.mp last
  exact ⟨before, after, v, w, rfl, last, start⟩

/-- A run in closed form: `after` says where each further event leads. -/
theorem exec_map (step : σ → ε → Option σ) (event : δ → ε) (after : List δ → σ) {ds : List δ}
    (next : ∀ before d, before ++ [d] <+: ds →
      step (after before) (event d) = some (after (before ++ [d]))) :
    exec step (after []) (ds.map event) = some (after ds) := by
  induction ds using List.reverseRecOn with
  | nil => rfl
  | append_singleton ds d ih =>
    have run := ih fun before d' initial => next before d' (initial.trans (List.prefix_append _ _))
    rw [List.map_append, List.map_singleton, exec_concat, run]
    exact next ds d List.prefix_rfl

/-- The run rule with history: `P` relates the events consumed so far to the state
they lead to. -/
theorem exec_induction {step : σ → ε → Option σ} {s : σ} {P : List ε → σ → Prop}
    (base : P [] s)
    (next : ∀ es t e u, exec step s es = some t → P es t → step t e = some u → P (es ++ [e]) u)
    {es : List ε} {t : σ} (run : exec step s es = some t) : P es t := by
  induction es using List.reverseRecOn generalizing t with
  | nil =>
    obtain rfl : s = t := by simpa using run
    exact base
  | append_singleton es e ih =>
    rw [exec_concat] at run
    obtain ⟨u, before, last⟩ := Option.bind_eq_some_iff.mp run
    exact next es u e t before (ih before) last

/-- The invariant rule. `A` restricts the events the environment may choose. -/
theorem exec_invariant {step : σ → ε → Option σ} {I : σ → Prop} (A : ε → Prop)
    (preserve : ∀ s e t, A e → I s → step s e = some t → I t)
    {s t : σ} {es : List ε} (init : I s) (allowed : ∀ e ∈ es, A e)
    (run : exec step s es = some t) : I t := by
  refine exec_induction (P := fun fs u => (∀ e ∈ fs, A e) → I u) (fun _ => init) ?_ run allowed
  intro fs u e v _ ih last ok
  exact preserve u e v (ok e (by simp)) (ih fun f hf => ok f (by simp [hf])) last

/-- The accounting rule: where every step is paid for by what it takes from the potential,
so is every run. -/
theorem exec_potential {M : Type*} [AddCommMonoid M] [PartialOrder M] [IsOrderedAddMonoid M]
    {step : σ → ε → Option σ} {charge : ε → M} {potential : σ → M}
    (pays : ∀ s e t, step s e = some t → charge e + potential t ≤ potential s)
    {s t : σ} {es : List ε} (run : exec step s es = some t) :
    (es.map charge).sum + potential t ≤ potential s := by
  induction es generalizing s with
  | nil =>
    obtain rfl : s = t := by simpa using run
    simp
  | cons e es ih =>
    obtain ⟨u, first, rest⟩ := Option.bind_eq_some_iff.mp run
    calc ((e :: es).map charge).sum + potential t
        = charge e + ((es.map charge).sum + potential t) := by simp [add_assoc]
      _ ≤ charge e + potential u := by gcongr; exact ih rest
      _ ≤ potential s := pays s e u first

/-- Two systems that agree on what is visible of their states, and whose steps keep
that agreement, agree after every run: neither accepts a run the other refuses. -/
theorem exec_view_eq {step : σ → ε → Option σ} {step' : τ → ε → Option τ}
    (view : σ → υ) (view' : τ → υ)
    (same : ∀ s t e, view s = view' t → (step s e).map view = (step' t e).map view')
    {s : σ} {t : τ} (start : view s = view' t) (es : List ε) :
    (exec step s es).map view = (exec step' t es).map view' := by
  induction es generalizing s t with
  | nil => simpa using start
  | cons e es ih =>
    have one := same s t e start
    cases hs : step s e with
    | none =>
      cases ht : step' t e with
      | none => simp [hs, ht]
      | some v => simp [hs, ht] at one
    | some u =>
      cases ht : step' t e with
      | none => simp [hs, ht] at one
      | some v =>
        rw [hs, ht] at one
        simpa [hs, ht] using ih (by simpa using one)

/-- Some run of events allowed by `A` leads from `s` to `t`. -/
def Reaches (step : σ → ε → Option σ) (A : ε → Prop) (s t : σ) : Prop :=
  ∃ es, (∀ e ∈ es, A e) ∧ exec step s es = some t

namespace Reaches

variable {step : σ → ε → Option σ} {A : ε → Prop} {s t u : σ} {e : ε}

theorem refl (s : σ) : Reaches step A s s := ⟨[], by simp, rfl⟩

theorem single (allowed : A e) (h : step s e = some t) : Reaches step A s t :=
  ⟨[e], by simpa using allowed, by simp [h]⟩

theorem trans (first : Reaches step A s t) (second : Reaches step A t u) :
    Reaches step A s u := by
  obtain ⟨es, allowed, run⟩ := first
  obtain ⟨fs, allowed', run'⟩ := second
  refine ⟨es ++ fs, ?_, by rw [exec_append, run]; exact run'⟩
  intro e he
  exact (List.mem_append.mp he).elim (allowed e) (allowed' e)

end Reaches

/-- Refinement under an abstraction function: if every concrete step is answered by an
abstract run, then so is every concrete run. `A` restricts the concrete events, `B` the
abstract ones. -/
theorem exec_refines {step : σ → ε → Option σ} {abstract : τ → δ → Option τ} (f : σ → τ)
    {I : σ → Prop} (A : ε → Prop) (B : δ → Prop)
    (answer : ∀ s e t, A e → I s → step s e = some t →
      I t ∧ Reaches abstract B (f s) (f t))
    {s t : σ} {es : List ε} (init : I s) (allowed : ∀ e ∈ es, A e)
    (run : exec step s es = some t) : I t ∧ Reaches abstract B (f s) (f t) := by
  refine exec_invariant (I := fun u => I u ∧ Reaches abstract B (f s) (f u)) A ?_
    ⟨init, .refl _⟩ allowed run
  rintro u e v ok ⟨inv, sofar⟩ last
  obtain ⟨inv', more⟩ := answer u e v ok inv last
  exact ⟨inv', sofar.trans more⟩

/-! ## Endless runs -/

section Endless

variable {step : σ → ε → Option σ} {s : σ} {f : Nat → ε}

/-- The first `n` events of an endless sequence. -/
def firstEvents (f : Nat → ε) (n : Nat) : List ε := (List.range n).map f

theorem firstEvents_succ (f : Nat → ε) (n : Nat) :
    firstEvents f (n + 1) = firstEvents f n ++ [f n] := by
  simp [firstEvents, List.range_succ]

theorem firstEvents_initial (f : Nat → ε) {m n : Nat} (le : m ≤ n) :
    firstEvents f m <+: firstEvents f n := by
  induction le with
  | refl => exact List.prefix_rfl
  | step _ ih =>
    rw [firstEvents_succ]
    exact ih.trans (List.prefix_append _ _)

theorem forall_mem_firstEvents {A : ε → Prop} (always : ∀ n, A (f n)) (n : Nat) :
    ∀ e ∈ firstEvents f n, A e := by
  simp [firstEvents, always]

/-- An endless sequence of events each initial part of which is a run. -/
def Endless (step : σ → ε → Option σ) (s : σ) (f : Nat → ε) : Prop :=
  ∀ n, ∃ t, exec step s (firstEvents f n) = some t

/-- Runs of any length are enough. -/
theorem Endless.of_long (long : ∀ n, ∃ m, n ≤ m ∧ ∃ t, exec step s (firstEvents f m) = some t) :
    Endless step s f := by
  intro n
  obtain ⟨m, later, t, run⟩ := long n
  obtain ⟨rest, split⟩ := firstEvents_initial f later
  rw [← split] at run
  obtain ⟨u, first, -⟩ := exec_append_some run
  exact ⟨u, first⟩

/-- Events that come again and again come any number of times. -/
theorem countP_firstEvents {p : ε → Bool} (often : ∀ n, ∃ m, n ≤ m ∧ p (f m)) (n : Nat) :
    ∃ k, n ≤ (firstEvents f k).countP p := by
  induction n with
  | zero => exact ⟨0, Nat.zero_le _⟩
  | succ n ih =>
    obtain ⟨k, counted⟩ := ih
    obtain ⟨m, later, again⟩ := often k
    have before := (firstEvents_initial f later).sublist.countP_le (p := p)
    refine ⟨m + 1, ?_⟩
    rw [firstEvents_succ, List.countP_append]
    simp [again]
    omega

/-- The recurrence rule: where every run has paid for its work with the goals it reached, a run
that works for ever reaches any number of them. -/
theorem Endless.recurs (endless : Endless step s f) {A : ε → Prop} (always : ∀ n, A (f n))
    {work : ε → Bool} {goals : σ → Nat} (budget price : Nat)
    (pays : ∀ es t, (∀ e ∈ es, A e) → exec step s es = some t →
      es.countP work ≤ budget + price * goals t)
    (often : ∀ n, ∃ m, n ≤ m ∧ work (f m)) (n : Nat) :
    ∃ k t, exec step s (firstEvents f k) = some t ∧ n ≤ goals t := by
  obtain ⟨k, long⟩ := countP_firstEvents often (budget + price * n + 1)
  obtain ⟨t, run⟩ := endless k
  refine ⟨k, t, run, ?_⟩
  have paid := pays _ t (forall_mem_firstEvents always k) run
  by_contra! few
  have cheaper : price * goals t ≤ price * n := Nat.mul_le_mul_left _ few.le
  omega

end Endless

end Transition
