import Mathlib.Logic.Function.Basic
import ZeusPower.Library.Machine

/-! The lock of a job (`JOB_LOCKS` in `server/router.py`).

The endpoints of a job share a lock, which the table makes when it is first asked for. It is
an `asyncio.Lock`: whoever has waited longest is next. A delete takes the lock out of the
table when it is done, also when others wait for it; they get the old lock, and the next to
arrive a new one.

`exclusive_iff` says that this is the only way for two requests of a job to be inside at
once: the requests of a job come one after the other exactly as long as no delete leaves
anybody waiting. -/
namespace ZeusPower.Reference.BatchSize.JobLocks
open Library

inductive Endpoint where
  | deleteJob
  | endTrial
  | predict
  | report
  deriving DecidableEq, Repr

/-- The locks made for a job so far, each with who is inside and then who waits, and the one
in the table. -/
structure State where
  made : ℕ
  queues : ℕ → List Endpoint
  entry : Option ℕ

def State.empty : State := ⟨0, fun _ => [], none⟩

/-- A request comes to its `async with`, or whoever is inside with a lock comes out. -/
inductive Event where
  | arrive (call : Endpoint)
  | leave (lock : ℕ)
  deriving DecidableEq, Repr

inductive Outcome where
  | queued (lock : ℕ)
  | left
  | keyError
  | nobody
  deriving DecidableEq, Repr

/-- `job_locks[job_id]`, and its `acquire`. -/
def arrive (s : State) (call : Endpoint) : Outcome × State :=
  match s.entry with
  | none => (.queued s.made, ⟨s.made + 1, Function.update s.queues s.made [call], some s.made⟩)
  | some lock => (.queued lock, { s with queues := Function.update s.queues lock (s.queues lock ++ [call]) })

/-- `job_locks.pop(job_id)` at the end of a delete, and the `release`. -/
def leave (s : State) (lock : ℕ) : Outcome × State :=
  match s.queues lock with
  | [] => (.nobody, s)
  | call :: waiting =>
    let queues := Function.update s.queues lock waiting
    if call = .deleteJob then (if s.entry.isNone then .keyError else .left, { s with queues, entry := none })
    else (.left, { s with queues })

def machine : Machine State Event Outcome where
  step s
    | .arrive call => arrive s call
    | .leave lock => leave s lock

/-- Who is inside with a lock. -/
def State.holder (s : State) (lock : ℕ) : Option Endpoint := (s.queues lock).head?

/-- At most one request is inside. -/
def State.Exclusive (s : State) : Prop :=
  ∀ lock lock', s.holder lock ≠ none → s.holder lock' ≠ none → lock = lock'

/-- A delete that comes out while others wait for its lock. -/
def Orphans (x : Entry State Event Outcome) : Prop :=
  ∃ lock call waiting, x.event = .leave lock ∧ x.before.queues lock = .deleteJob :: call :: waiting

/-! ### Exclusion -/

section Exclusion
variable {s : State} {events : List Event}

/-- Locks that have not been made are free. -/
def Fresh (s : State) : Prop := (∀ lock, s.made ≤ lock → s.queues lock = []) ∧ ∀ lock ∈ s.entry, lock < s.made

/-- All are at the lock in the table. -/
def Gathered (s : State) : Prop := ∀ lock, s.queues lock ≠ [] → s.entry = some lock

theorem Gathered.exclusive (h : Gathered s) : s.Exclusive := by
  have hheld : ∀ lock, s.holder lock ≠ none → s.entry = some lock := fun lock hlock =>
    h lock fun hempty => hlock (by rw [State.holder, hempty]; rfl)
  intro lock lock' hlock hlock'
  exact Option.some.inj ((hheld lock hlock).symm.trans (hheld lock' hlock'))

theorem Fresh.next (h : Fresh s) (e : Event) : Fresh (machine.next s e) := by
  obtain ⟨hfree, hentry⟩ := h
  cases e with
  | arrive call =>
    show Fresh (arrive s call).2
    unfold arrive
    cases htable : s.entry with
    | none =>
      refine ⟨fun lock hlock => ?_, fun lock hlock => ?_⟩
      · have hne : lock ≠ s.made := by
          rintro rfl
          exact absurd hlock (Nat.not_succ_le_self _)
        exact (Function.update_of_ne hne _ _).trans (hfree lock (Nat.le_of_succ_le hlock))
      · obtain rfl := Option.some.inj hlock
        exact Nat.lt_succ_self _
    | some taken =>
      rw [htable] at hentry
      refine ⟨fun lock hlock => ?_, hentry⟩
      have hne : lock ≠ taken := by
        rintro rfl
        exact absurd (hentry lock rfl) (Nat.not_lt.mpr hlock)
      exact (Function.update_of_ne hne _ _).trans (hfree lock hlock)
  | leave lock =>
    show Fresh (leave s lock).2
    unfold leave
    cases hqueue : s.queues lock with
    | nil => exact ⟨hfree, hentry⟩
    | cons call waiting =>
      have hfree' : ∀ other, s.made ≤ other → Function.update s.queues lock waiting other = [] := by
        intro other hother
        have hne : other ≠ lock := by
          rintro rfl
          rw [hfree other hother] at hqueue
          cases hqueue
        exact (Function.update_of_ne hne _ _).trans (hfree other hother)
      dsimp only
      split
      · refine ⟨hfree', fun other hother => ?_⟩
        cases hother
      · exact ⟨hfree', hentry⟩

theorem Gathered.next (h : Gathered s) (e : Event) (hkept : ¬Orphans ⟨s, e, machine.answer s e⟩) :
    Gathered (machine.next s e) := by
  cases e with
  | arrive call =>
    show Gathered (arrive s call).2
    unfold arrive
    cases htable : s.entry with
    | none =>
      intro lock hlock
      dsimp only at hlock
      by_cases heq : lock = s.made
      · rw [heq]
      · have hbefore := h lock (by rwa [Function.update_of_ne heq] at hlock)
        cases htable.symm.trans hbefore
    | some taken =>
      intro lock hlock
      dsimp only at hlock
      by_cases heq : lock = taken
      · rw [heq]
      · exact htable.symm.trans (h lock (by rwa [Function.update_of_ne heq] at hlock))
  | leave lock =>
    show Gathered (leave s lock).2
    unfold leave
    cases hqueue : s.queues lock with
    | nil => exact h
    | cons call waiting =>
      have htable : s.entry = some lock := h lock (by rw [hqueue]; exact List.cons_ne_nil _ _)
      have hother : ∀ other, Function.update s.queues lock waiting other ≠ [] → other = lock ∧ waiting ≠ [] := by
        intro other hheld
        by_cases heq : other = lock
        · rw [heq, Function.update_self] at hheld
          exact ⟨heq, hheld⟩
        · rw [Function.update_of_ne heq] at hheld
          exact absurd (Option.some.inj ((h other hheld).symm.trans htable)) heq
      dsimp only
      split
      · next hdelete =>
        intro other hheld
        obtain ⟨-, hwaiting⟩ := hother other hheld
        obtain ⟨next, rest, rfl⟩ := List.exists_cons_of_ne_nil hwaiting
        exact absurd ⟨lock, next, rest, rfl, by rw [hqueue, hdelete]⟩ hkept
      · intro other hheld
        rw [(hother other hheld).1]
        exact htable

theorem fresh_run (h : Fresh s) : Fresh (machine.run s events) := by
  induction events generalizing s with
  | nil => exact h
  | cons e rest ih => exact ih (h.next e)

theorem gathered_run (h : Gathered s) (hkept : ∀ x ∈ machine.trace s events, ¬Orphans x) :
    Gathered (machine.run s events) := by
  induction events generalizing s with
  | nil => exact h
  | cons e rest ih =>
    exact ih (h.next e (hkept _ List.mem_cons_self)) fun x hx => hkept x (List.mem_cons_of_mem _ hx)

/-- Whoever waited behind a delete is inside with the old lock, and the next to arrive with a
new one. -/
theorem overlap (h : Fresh s) {lock : ℕ} {call : Endpoint} {waiting : List Endpoint}
    (hqueue : s.queues lock = .deleteJob :: call :: waiting) (next : Endpoint) :
    ¬(machine.run s [.leave lock, .arrive next]).Exclusive := by
  have hmade : lock < s.made := by
    by_contra hnot
    rw [h.1 lock (Nat.not_lt.mp hnot)] at hqueue
    cases hqueue
  have hstate : machine.run s [.leave lock, .arrive next] =
      ⟨s.made + 1, Function.update (Function.update s.queues lock (call :: waiting)) s.made [next], some s.made⟩ := by
    show (arrive (leave s lock).2 next).2 = _
    unfold leave
    rw [hqueue]
    rfl
  have hne : lock ≠ s.made := Nat.ne_of_lt hmade
  intro hexclusive
  have hsame := hexclusive lock s.made
  rw [hstate] at hsame
  refine hne (hsame ?_ ?_)
  · show (Function.update (Function.update s.queues lock (call :: waiting)) s.made [next] lock).head? ≠ none
    rw [Function.update_of_ne hne, Function.update_self]
    exact Option.some_ne_none _
  · show (Function.update (Function.update s.queues lock (call :: waiting)) s.made [next] s.made).head? ≠ none
    rw [Function.update_self]
    exact Option.some_ne_none _

/-- **Requests of a job exclude each other exactly until a delete leaves others waiting**:
then, and only then, another that arrives is inside beside one of them. -/
theorem exclusive_iff (events : List Event) :
    (∀ pre call, pre <+: events → (machine.run .empty (pre ++ [.arrive call])).Exclusive) ↔
      ∀ x ∈ machine.trace .empty events, ¬Orphans x := by
  have hempty : Fresh .empty := ⟨fun _ _ => rfl, fun lock hlock => by cases hlock⟩
  have hnobody : Gathered .empty := fun lock hlock => absurd rfl hlock
  constructor
  · intro hexclusive x hx horphans
    obtain ⟨lock, call, waiting, hevent, hqueue⟩ := horphans
    obtain ⟨before, after, hsplit⟩ := List.append_of_mem hx
    obtain ⟨-, hstate, -⟩ := machine.trace_split hsplit
    have hevents := machine.events_trace .empty events
    rw [hsplit, List.map_append, List.map_cons, hevent, List.append_cons] at hevents
    have hfresh : Fresh x.before := by
      rw [hstate]
      exact fresh_run hempty
    refine overlap hfresh hqueue .predict ?_
    have hinside := hexclusive (before.map Entry.event ++ [.leave lock]) .predict ⟨_, hevents⟩
    rw [List.append_assoc, Machine.run_append, ← hstate] at hinside
    exact hinside
  · intro hkept pre call hprefix
    obtain ⟨post, rfl⟩ := hprefix
    rw [Machine.run_append]
    refine Gathered.exclusive (Gathered.next (gathered_run hnobody fun x hx => hkept x ?_) _ ?_)
    · rw [Machine.trace_append]
      exact List.mem_append_left _ hx
    · rintro ⟨lock, first, waiting, hevent, -⟩
      cases hevent

end Exclusion

end ZeusPower.Reference.BatchSize.JobLocks
