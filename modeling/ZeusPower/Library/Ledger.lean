import Mathlib.Algebra.BigOperators.Group.Finset.Piecewise

/-! Ledgers of references.

A log says in which order references are acquired, used and given back. `run` replays it
over the references held: it stops at the use of a reference that is not there and at the
return of one that is not held, so a log that runs to its end has no use after a return
and no second return, and what it ends with is what it has not given back (`run_count`).

An event does the same beside references it does not know of (`step_frame`), and references
that a log never gives back can be lent to it instead (`run_lend`). So the logs of threads
that each run over their own references, and borrow the rest, run in any order of their
events (`run_interleaved`).

A program that can fail writes its log as it goes (`Logged`). What it leaves is a
statement about its result and the references held at its end (`Leaves`), and has one
rule for each way to build a program. -/
namespace ZeusPower.Library.Ledger

inductive Event (ρ : Type*) where
  | acquire (r : ρ)
  | use (r : ρ)
  | release (r : ρ)
  deriving DecidableEq, Repr

variable {ρ : Type*} [DecidableEq ρ]

/-- One event, over the references `held`. Those `lent` may be used, not given back. -/
def step (lent held : Multiset ρ) : Event ρ → Option (Multiset ρ)
  | .acquire r => some (r ::ₘ held)
  | .use r => if r ∈ lent + held then some held else none
  | .release r => if r ∈ held then some (held.erase r) else none

def run (lent held : Multiset ρ) : List (Event ρ) → Option (Multiset ρ)
  | [] => some held
  | e :: log => (step lent held e).bind fun held => run lent held log

theorem run_append (lent held : Multiset ρ) (a b : List (Event ρ)) :
    run lent held (a ++ b) = (run lent held a).bind fun held => run lent held b := by
  induction a generalizing held with
  | nil => rfl
  | cons e a ih => simp only [List.cons_append, run, ih, Option.bind_assoc]

/-- Two logs one after the other. -/
theorem run_trans {lent held middle rest : Multiset ρ} {a b : List (Event ρ)}
    (ha : run lent held a = some middle) (hb : run lent middle b = some rest) :
    run lent held (a ++ b) = some rest := by
  rw [run_append, ha, Option.bind_some, hb]

theorem run_cons_iff {lent held rest : Multiset ρ} {e : Event ρ} {log : List (Event ρ)} :
    run lent held (e :: log) = some rest ↔
      ∃ middle, step lent held e = some middle ∧ run lent middle log = some rest :=
  Option.bind_eq_some_iff

/-! ### Counting -/

def acquired (r : ρ) (log : List (Event ρ)) : ℕ := log.count (.acquire r)

def released (r : ρ) (log : List (Event ρ)) : ℕ := log.count (.release r)

theorem step_count {lent held rest : Multiset ρ} {e : Event ρ} (h : step lent held e = some rest)
    (r : ρ) : held.count r + acquired r [e] = rest.count r + released r [e] := by
  cases e with
  | acquire r' =>
    obtain rfl := Option.some.inj h
    by_cases hr : r' = r
    · subst hr
      simp [acquired, released]
    · simp [acquired, released, hr, Ne.symm hr]
  | use r' =>
    by_cases hmem : r' ∈ lent + held
    · rw [step, if_pos hmem] at h
      obtain rfl := Option.some.inj h
      simp [acquired, released]
    · rw [step, if_neg hmem] at h
      cases h
  | release r' =>
    by_cases hmem : r' ∈ held
    · rw [step, if_pos hmem] at h
      obtain rfl := Option.some.inj h
      by_cases hr : r' = r
      · subst hr
        have hpos := Multiset.count_pos.mpr hmem
        simp only [acquired, released, Multiset.count_erase_self]
        simp
        omega
      · simp [acquired, released, Multiset.count_erase_of_ne (Ne.symm hr), hr]
    · rw [step, if_neg hmem] at h
      cases h

/-- A reference is given back as often as it was there or acquired, less the times it is
still held. -/
theorem run_count {lent held rest : Multiset ρ} {log : List (Event ρ)}
    (h : run lent held log = some rest) (r : ρ) :
    held.count r + acquired r log = rest.count r + released r log := by
  induction log generalizing held with
  | nil =>
    obtain rfl := Option.some.inj h
    rfl
  | cons e log ih =>
    obtain ⟨middle, hstep, hlog⟩ := run_cons_iff.mp h
    have hone := step_count hstep r
    have hmany := ih hlog
    have hacquired : acquired r (e :: log) = acquired r [e] + acquired r log := by
      rw [acquired, ← List.singleton_append, List.count_append]
      rfl
    have hreleased : released r (e :: log) = released r [e] + released r log := by
      rw [released, ← List.singleton_append, List.count_append]
      rfl
    omega

/-! ### Frame -/

theorem step_frame {lent held rest : Multiset ρ} {e : Event ρ} (h : step lent held e = some rest)
    (others : Multiset ρ) : step lent (held + others) e = some (rest + others) := by
  cases e with
  | acquire r =>
    obtain rfl := Option.some.inj h
    rw [step, Multiset.cons_add]
  | use r =>
    by_cases hmem : r ∈ lent + held
    · rw [step, if_pos hmem] at h
      obtain rfl := Option.some.inj h
      rw [step, if_pos]
      rw [← add_assoc]
      exact Multiset.mem_add.mpr (Or.inl hmem)
    · rw [step, if_neg hmem] at h
      cases h
  | release r =>
    by_cases hmem : r ∈ held
    · rw [step, if_pos hmem] at h
      obtain rfl := Option.some.inj h
      rw [step, if_pos (Multiset.mem_add.mpr (Or.inl hmem)), Multiset.erase_add_left_pos _ hmem]
    · rw [step, if_neg hmem] at h
      cases h

theorem step_lend {lent others held rest : Multiset ρ} {e : Event ρ}
    (h : step (lent + others) held e = some rest) :
    step lent (held + others) e = some (rest + others) := by
  cases e with
  | acquire r =>
    have hown : step lent held (.acquire r) = some rest := h
    exact step_frame hown others
  | release r =>
    have hown : step lent held (.release r) = some rest := h
    exact step_frame hown others
  | use r =>
    by_cases hmem : r ∈ lent + others + held
    · rw [step, if_pos hmem] at h
      obtain rfl := Option.some.inj h
      rw [step, if_pos]
      rw [add_comm held, ← add_assoc]
      exact hmem
    · rw [step, if_neg hmem] at h
      cases h

/-- What was lent to a log is there when it has run. -/
theorem run_lend {lent others held rest : Multiset ρ} {log : List (Event ρ)}
    (h : run (lent + others) held log = some rest) :
    run lent (held + others) log = some (rest + others) := by
  induction log generalizing held with
  | nil =>
    obtain rfl := Option.some.inj h
    rfl
  | cons e log ih =>
    obtain ⟨middle, hstep, hlog⟩ := run_cons_iff.mp h
    exact run_cons_iff.mpr ⟨middle + others, step_lend hstep, ih hlog⟩

/-! ### Threads -/

section Threads
variable {θ : Type*} [DecidableEq θ]

/-- The events of one thread, in order. -/
def ofThread {α : Type*} (t : θ) (shuffled : List (θ × α)) : List α :=
  (shuffled.filter fun e => decide (e.1 = t)).map Prod.snd

theorem ofThread_self {α : Type*} (t : θ) (a : α) (shuffled : List (θ × α)) :
    ofThread t ((t, a) :: shuffled) = a :: ofThread t shuffled := by
  simp [ofThread]

theorem ofThread_other {α : Type*} {t t' : θ} (h : t' ≠ t) (a : α) (shuffled : List (θ × α)) :
    ofThread t ((t', a) :: shuffled) = ofThread t shuffled := by
  simp [ofThread, h]

variable [Fintype θ]

/-- Logs that each run over references of their own run over all of them, in any order of
their events. -/
theorem run_interleaved {lent : Multiset ρ} {held rest : θ → Multiset ρ}
    {shuffled : List (θ × Event ρ)}
    (h : ∀ t, run lent (held t) (ofThread t shuffled) = some (rest t)) :
    run lent (∑ t, held t) (shuffled.map Prod.snd) = some (∑ t, rest t) := by
  induction shuffled generalizing held with
  | nil =>
    have hsame : held = rest := funext fun t => Option.some.inj (h t)
    rw [hsame]
    rfl
  | cons e shuffled ih =>
    obtain ⟨t, e⟩ := e
    have ht := h t
    rw [ofThread_self] at ht
    obtain ⟨middle, hstep, hlog⟩ := run_cons_iff.mp ht
    refine run_cons_iff.mpr ⟨∑ t', Function.update held t middle t', ?_, ih ?_⟩
    · rw [Finset.sum_update_of_mem (Finset.mem_univ t), ← Finset.add_sum_erase _ _ (Finset.mem_univ t),
        Finset.sdiff_singleton_eq_erase]
      exact step_frame hstep _
    · intro t'
      by_cases hsame : t' = t
      · subst hsame
        rw [Function.update_self]
        exact hlog
      · rw [Function.update_of_ne hsame]
        have hother := h t'
        rw [ofThread_other (Ne.symm hsame)] at hother
        exact hother

end Threads

/-! ### Programs -/

/-- A program that returns or throws, and the log it has written until then. -/
structure Logged (ε ρ α : Type) where
  result : Except ε α
  log : List (Event ρ)

namespace Logged
variable {ε ρ α β : Type}

instance : Monad (Logged ε ρ) where
  pure a := ⟨.ok a, []⟩
  bind f g :=
    match f.result with
    | .ok a => ⟨(g a).result, f.log ++ (g a).log⟩
    | .error e => ⟨.error e, f.log⟩

instance : MonadExceptOf ε (Logged ε ρ) where
  throw e := ⟨.error e, []⟩
  tryCatch f handler :=
    match f.result with
    | .ok _ => f
    | .error e => ⟨(handler e).result, f.log ++ (handler e).log⟩

def note (e : Event ρ) : Logged ε ρ PUnit := ⟨.ok ⟨⟩, [e]⟩

theorem result_bind (f : Logged ε ρ α) (g : α → Logged ε ρ β) :
    (f >>= g).result = f.result >>= fun a => (g a).result := by
  obtain ⟨result, log⟩ := f
  cases result <;> rfl

theorem result_ok_bind {f : Logged ε ρ α} {a : α} (h : f.result = .ok a) (g : α → Logged ε ρ β) :
    (f >>= g).result = (g a).result := by
  rw [result_bind, h]
  rfl

theorem result_tryCatch (f : Logged ε ρ α) (handler : ε → Logged ε ρ α) :
    (tryCatch f handler).result =
      match f.result with
      | .ok a => .ok a
      | .error e => (handler e).result := by
  obtain ⟨result, log⟩ := f
  cases result <;> rfl

theorem log_ok_bind {f : Logged ε ρ α} {a : α} (h : f.result = .ok a) (g : α → Logged ε ρ β) :
    (f >>= g).log = f.log ++ (g a).log := by
  obtain ⟨result, log⟩ := f
  obtain rfl : result = .ok a := h
  rfl

theorem log_error_bind {f : Logged ε ρ α} {e : ε} (h : f.result = .error e) (g : α → Logged ε ρ β) :
    (f >>= g).log = f.log := by
  obtain ⟨result, log⟩ := f
  obtain rfl : result = .error e := h
  rfl

theorem tryCatch_ok {f : Logged ε ρ α} {a : α} (h : f.result = .ok a) (handler : ε → Logged ε ρ α) :
    tryCatch f handler = f := by
  obtain ⟨result, log⟩ := f
  obtain rfl : result = .ok a := h
  rfl

theorem tryCatch_error {f : Logged ε ρ α} {e : ε} (h : f.result = .error e)
    (handler : ε → Logged ε ρ α) :
    tryCatch f handler = ⟨(handler e).result, f.log ++ (handler e).log⟩ := by
  obtain ⟨result, log⟩ := f
  obtain rfl : result = .error e := h
  rfl

@[simp] theorem result_pure (a : α) : (pure a : Logged ε ρ α).result = .ok a := rfl

@[simp] theorem result_throw (e : ε) : (throw e : Logged ε ρ α).result = .error e := rfl

@[simp] theorem result_note_bind (e : Event ρ) (g : PUnit → Logged ε ρ β) :
    (note e >>= g).result = (g ⟨⟩).result := rfl

end Logged

section Leaves
variable {ε ρ α β : Type} [DecidableEq ρ] {lent held : Multiset ρ}

/-- The log runs to its end, and the result and what is held then satisfy `Q`. -/
def Leaves (lent held : Multiset ρ) (f : Logged ε ρ α) (Q : Except ε α → Multiset ρ → Prop) : Prop :=
  ∃ rest, run lent held f.log = some rest ∧ Q f.result rest

theorem Leaves.mono {f : Logged ε ρ α} {Q Q' : Except ε α → Multiset ρ → Prop}
    (h : Leaves lent held f Q) (hQ : ∀ r rest, Q r rest → Q' r rest) : Leaves lent held f Q' := by
  obtain ⟨rest, hrun, hrest⟩ := h
  exact ⟨rest, hrun, hQ _ _ hrest⟩

theorem leaves_pure {a : α} {Q : Except ε α → Multiset ρ → Prop} (h : Q (.ok a) held) :
    Leaves lent held (pure a) Q :=
  ⟨held, rfl, h⟩

theorem leaves_throw {e : ε} {Q : Except ε α → Multiset ρ → Prop} (h : Q (.error e) held) :
    Leaves lent held (throw e) Q :=
  ⟨held, rfl, h⟩

/-- In a sequence the second part starts from what the first leaves, unless that throws. -/
theorem leaves_bind {f : Logged ε ρ α} {g : α → Logged ε ρ β} {Q : Except ε β → Multiset ρ → Prop}
    (h : Leaves lent held f fun r middle =>
      match r with
      | .ok a => Leaves lent middle (g a) Q
      | .error e => Q (.error e) middle) : Leaves lent held (f >>= g) Q := by
  obtain ⟨result, log⟩ := f
  obtain ⟨middle, hrun, h⟩ := h
  cases result with
  | ok a =>
    obtain ⟨rest, hrest, hQ⟩ := h
    exact ⟨rest, run_trans hrun hrest, hQ⟩
  | error e => exact ⟨middle, hrun, h⟩

theorem leaves_acquire {r : ρ} {g : PUnit → Logged ε ρ β} {Q : Except ε β → Multiset ρ → Prop}
    (h : Leaves lent (r ::ₘ held) (g ⟨⟩) Q) : Leaves lent held (Logged.note (.acquire r) >>= g) Q :=
  leaves_bind ⟨_, rfl, h⟩

theorem leaves_use {r : ρ} {g : PUnit → Logged ε ρ β} {Q : Except ε β → Multiset ρ → Prop}
    (hmem : r ∈ lent + held) (h : Leaves lent held (g ⟨⟩) Q) :
    Leaves lent held (Logged.note (.use r) >>= g) Q := by
  refine leaves_bind ⟨held, ?_, h⟩
  exact run_cons_iff.mpr ⟨held, if_pos hmem, rfl⟩

theorem leaves_release {r : ρ} {rest : Multiset ρ} {g : PUnit → Logged ε ρ β}
    {Q : Except ε β → Multiset ρ → Prop} (hheld : held = r ::ₘ rest)
    (h : Leaves lent rest (g ⟨⟩) Q) : Leaves lent held (Logged.note (.release r) >>= g) Q := by
  refine leaves_bind ⟨rest, ?_, h⟩
  subst hheld
  refine run_cons_iff.mpr ⟨rest, ?_, rfl⟩
  rw [step, if_pos (Multiset.mem_cons_self r rest), Multiset.erase_cons_head]

/-- A handler starts from what the part that threw leaves. -/
theorem leaves_tryCatch {f : Logged ε ρ α} {handler : ε → Logged ε ρ α}
    {Q : Except ε α → Multiset ρ → Prop}
    (h : Leaves lent held f fun r middle =>
      match r with
      | .ok a => Q (.ok a) middle
      | .error e => Leaves lent middle (handler e) Q) : Leaves lent held (tryCatch f handler) Q := by
  obtain ⟨result, log⟩ := f
  obtain ⟨middle, hrun, h⟩ := h
  cases result with
  | ok a => exact ⟨middle, hrun, h⟩
  | error e =>
    obtain ⟨rest, hrest, hQ⟩ := h
    exact ⟨rest, run_trans hrun hrest, hQ⟩

end Leaves

end ZeusPower.Library.Ledger
