import Mathlib.Data.List.Basic

/-! Machines that answer events, and what holds over their runs.

A machine takes an event and gives an outcome and a next state. A run keeps, for
every event, the state it met and the outcome it got (`Entry`), so that a property
of a whole history is a property of a list of entries.

Seven things follow from one step and are proved here once: an invariant of the
step holds at every entry (`Preserved.trace`); a measure that one party's turns make
smaller is small after enough of them (`measure_run`); two machines that answer alike from
related states answer alike all along a feed (`simulation`); a machine each of whose steps
is a step of another machine, or none, runs as that one does (`refines`); a part of the
state that changes only when an entry writes it holds what the last writing entry wrote
(`Register.view_run`); a machine whose rejected events change nothing runs the same with
those events deleted (`erase_rejected`); and an observer who cannot tell what some events
have changed sees the same without them (`erase_invisible`). -/
namespace ZeusPower.Library

structure Machine (σ ε ω : Type*) where
  step : σ → ε → ω × σ

/-- One event of a run: the state it met and the outcome it got. -/
structure Entry (σ ε ω : Type*) where
  before : σ
  event : ε
  outcome : ω

namespace Machine
variable {σ ε ω : Type*} (m : Machine σ ε ω)

def next (s : σ) (e : ε) : σ := (m.step s e).2

def answer (s : σ) (e : ε) : ω := (m.step s e).1

def run (s : σ) : List ε → σ
  | [] => s
  | e :: rest => run (m.next s e) rest

def trace (s : σ) : List ε → List (Entry σ ε ω)
  | [] => []
  | e :: rest => ⟨s, e, m.answer s e⟩ :: trace (m.next s e) rest

theorem run_append (s : σ) (a b : List ε) : m.run s (a ++ b) = m.run (m.run s a) b := by
  induction a generalizing s with
  | nil => rfl
  | cons e rest ih => exact ih _

theorem trace_append (s : σ) (a b : List ε) :
    m.trace s (a ++ b) = m.trace s a ++ m.trace (m.run s a) b := by
  induction a generalizing s with
  | nil => rfl
  | cons e rest ih => simp only [List.cons_append, trace, run, ih]

theorem events_trace (s : σ) (es : List ε) : (m.trace s es).map Entry.event = es := by
  induction es generalizing s with
  | nil => rfl
  | cons e rest ih => simp only [trace, List.map_cons, ih]

/-- The entry at place `i`: its event met the state the events before it left. -/
theorem getElem?_trace (s : σ) (es : List ε) (i : ℕ) :
    (m.trace s es)[i]? = es[i]?.map fun e =>
      ⟨m.run s (es.take i), e, m.answer (m.run s (es.take i)) e⟩ := by
  induction es generalizing s i with
  | nil => rfl
  | cons e rest ih =>
    cases i with
    | zero => rfl
    | succ i => exact ih (m.next s e) i

/-- An entry of a trace cuts the run there: what comes before it is a run to the
state it met, its outcome is the machine's, and what follows starts after it. -/
theorem trace_split {s : σ} {es : List ε} {pre post : List (Entry σ ε ω)} {x : Entry σ ε ω}
    (h : m.trace s es = pre ++ x :: post) :
    pre = m.trace s (pre.map Entry.event) ∧ x.before = m.run s (pre.map Entry.event) ∧
      x.outcome = m.answer x.before x.event ∧
      post = m.trace (m.next x.before x.event) (post.map Entry.event) := by
  induction pre generalizing s es with
  | nil =>
    cases es with
    | nil => simp [trace] at h
    | cons e rest =>
      simp only [trace, List.nil_append, List.cons.injEq] at h
      obtain ⟨rfl, rfl⟩ := h
      simp [trace, run, events_trace]
  | cons y pre ih =>
    cases es with
    | nil => simp [trace] at h
    | cons e rest =>
      simp only [trace, List.cons_append, List.cons.injEq] at h
      obtain ⟨rfl, h⟩ := h
      obtain ⟨hpre, hbefore, houtcome, hpost⟩ := ih h
      simp only [List.map_cons, trace, run]
      exact ⟨by rw [← hpre], hbefore, houtcome, hpost⟩

theorem mem_trace {s : σ} {es : List ε} {x : Entry σ ε ω} (h : x ∈ m.trace s es) :
    x.outcome = m.answer x.before x.event ∧ x.event ∈ es := by
  have hevent : x.event ∈ (m.trace s es).map Entry.event := List.mem_map_of_mem h
  rw [events_trace] at hevent
  obtain ⟨pre, post, hsplit⟩ := List.append_of_mem h
  exact ⟨(m.trace_split hsplit).2.2.1, hevent⟩

/-! ### Invariants -/

/-- One step keeps `Inv`, when its event satisfies `Rule`. -/
def Preserved (Rule : ε → Prop) (Inv : σ → Prop) : Prop :=
  ∀ s e, Rule e → Inv s → Inv (m.next s e)

variable {m}

theorem Preserved.run {Rule : ε → Prop} {Inv : σ → Prop} (hp : m.Preserved Rule Inv) {s : σ}
    (hs : Inv s) {es : List ε} (hr : ∀ e ∈ es, Rule e) : Inv (m.run s es) := by
  induction es generalizing s with
  | nil => exact hs
  | cons e rest ih =>
    exact ih (hp s e (hr e List.mem_cons_self) hs) fun e he => hr e (List.mem_cons_of_mem _ he)

theorem Preserved.trace {Rule : ε → Prop} {Inv : σ → Prop} (hp : m.Preserved Rule Inv) {s : σ}
    (hs : Inv s) {es : List ε} (hr : ∀ e ∈ es, Rule e) : ∀ x ∈ m.trace s es, Inv x.before := by
  intro x hx
  obtain ⟨pre, post, hsplit⟩ := List.append_of_mem hx
  rw [(m.trace_split hsplit).2.1]
  refine hp.run hs fun e he => hr e ?_
  have hes := m.events_trace s es
  rw [hsplit, List.map_append] at hes
  rw [← hes]
  exact List.mem_append_left _ he

/-- What one step keeps, when its outcome satisfies `Good` too, a run keeps in which all
outcomes do. -/
theorem run_while (Rule : ε → Prop) (Good : ω → Prop) (Inv : σ → Prop)
    (hstep : ∀ s e, Rule e → Good (m.answer s e) → Inv s → Inv (m.next s e)) {s : σ} (hs : Inv s)
    {es : List ε} (hr : ∀ e ∈ es, Rule e) (hgood : ∀ x ∈ m.trace s es, Good x.outcome) :
    Inv (m.run s es) := by
  induction es generalizing s with
  | nil => exact hs
  | cons e rest ih =>
    have hfirst := hgood ⟨s, e, m.answer s e⟩ List.mem_cons_self
    exact ih (hstep s e (hr e List.mem_cons_self) hfirst hs)
      (fun e he => hr e (List.mem_cons_of_mem _ he)) fun x hx => hgood x (List.mem_cons_of_mem _ hx)

/-- A function of the state that no step changes is the same along a run. -/
theorem constant_run {α : Type*} {f : σ → α} (hf : ∀ s e, f (m.next s e) = f s) (s : σ)
    (es : List ε) : f (m.run s es) = f s := by
  induction es generalizing s with
  | nil => rfl
  | cons e rest ih => exact (ih _).trans (hf s e)

/-- The same where an invariant holds that every step keeps. -/
theorem constant_while {α : Type*} {f : σ → α} {I : σ → Prop}
    (hstep : ∀ s, I s → ∀ e, I (m.next s e) ∧ f (m.next s e) = f s) {s : σ} (hs : I s) (es : List ε) :
    f (m.run s es) = f s := by
  induction es generalizing s with
  | nil => rfl
  | cons e rest ih =>
    obtain ⟨hnext, hsame⟩ := hstep s hs e
    exact (ih hnext).trans hsame

theorem constant_trace {α : Type*} {f : σ → α} (hf : ∀ s e, f (m.next s e) = f s) {s : σ}
    {es : List ε} {x : Entry σ ε ω} (hx : x ∈ m.trace s es) : f x.before = f s := by
  obtain ⟨pre, post, hsplit⟩ := List.append_of_mem hx
  rw [(m.trace_split hsplit).2.1, constant_run hf]

/-- A relation that every step extends relates every two states of a run. -/
theorem related_run {R : σ → σ → Prop} (hrefl : ∀ s, R s s)
    (htrans : ∀ {s s' s''}, R s s' → R s' s'' → R s s'') (hstep : ∀ s e, R s (m.next s e)) (s : σ)
    (es : List ε) : R s (m.run s es) := by
  induction es generalizing s with
  | nil => exact hrefl s
  | cons e rest ih => exact htrans (hstep s e) (ih _)

theorem related_end {R : σ → σ → Prop} (hrefl : ∀ s, R s s)
    (htrans : ∀ {s s' s''}, R s s' → R s' s'' → R s s'') (hstep : ∀ s e, R s (m.next s e)) {s : σ}
    {es : List ε} {x : Entry σ ε ω} (hx : x ∈ m.trace s es) : R x.before (m.run s es) := by
  obtain ⟨pre, post, hsplit⟩ := List.append_of_mem hx
  have hevents := m.events_trace s es
  rw [hsplit, List.map_append] at hevents
  rw [← hevents, run_append, ← (m.trace_split hsplit).2.1]
  exact related_run hrefl htrans hstep _ _

theorem related_trace {R : σ → σ → Prop} (hrefl : ∀ s, R s s)
    (htrans : ∀ {s s' s''}, R s s' → R s' s'' → R s s'') (hstep : ∀ s e, R s (m.next s e)) (s : σ)
    (es : List ε) {i j : ℕ} {x y : Entry σ ε ω} (hij : i ≤ j) (hx : (m.trace s es)[i]? = some x)
    (hy : (m.trace s es)[j]? = some y) : R x.before y.before := by
  induction es generalizing s i j with
  | nil => cases hx
  | cons e rest ih =>
    cases j with
    | zero =>
      obtain rfl : i = 0 := by omega
      obtain rfl : x = y := Option.some.inj (hx.symm.trans hy)
      exact hrefl _
    | succ j =>
      cases i with
      | zero =>
        obtain rfl := Option.some.inj hx
        obtain ⟨pre, post, hsplit⟩ := List.append_of_mem (List.mem_of_getElem? hy)
        rw [(m.trace_split hsplit).2.1]
        exact related_run hrefl htrans hstep _ _
      | succ i => exact ih (m.next s e) (by omega) hx hy

/-! ### Progress -/

/-- Where a turn of one party makes a measure smaller until it is zero, and nothing else
makes it larger, a run makes it smaller by as many turns as the party had. -/
theorem measure_run (mine : ε → Bool) (μ : σ → ℕ) {Rule : ε → Prop} {Inv : σ → Prop}
    (hinv : m.Preserved Rule Inv)
    (hmine : ∀ s e, Rule e → Inv s → mine e = true → μ (m.next s e) ≤ μ s - 1)
    (hother : ∀ s e, Rule e → Inv s → mine e = false → μ (m.next s e) ≤ μ s) {s : σ}
    (hs : Inv s) (es : List ε) (hr : ∀ e ∈ es, Rule e) :
    μ (m.run s es) ≤ μ s - es.countP mine := by
  induction es generalizing s with
  | nil => exact Nat.le_refl _
  | cons e rest ih =>
    have he := hr e List.mem_cons_self
    have hrest := ih (hinv s e he hs) fun e he => hr e (List.mem_cons_of_mem _ he)
    rw [run]
    cases hturn : mine e with
    | true =>
      have hless := hmine s e he hs hturn
      rw [List.countP_cons_of_pos hturn]
      omega
    | false =>
      have hsame := hother s e he hs hturn
      rw [List.countP_cons_of_neg (by rw [hturn]; exact Bool.false_ne_true)]
      omega

/-! ### Two machines on one feed -/

section Simulation
variable {σ₁ ε₁ ω₁ σ₂ ε₂ ω₂ φ : Type*} {m₁ : Machine σ₁ ε₁ ω₁} {m₂ : Machine σ₂ ε₂ ω₂}
  {event₁ : φ → ε₁} {event₂ : φ → ε₂} {Rule : List φ → Prop} {R : List φ → σ₁ → σ₂ → Prop}
  {Agree : List φ → φ → ω₁ → ω₂ → Prop}

/-- Two machines take each entry of a feed as an event of their own. If their states are
related after a feed, and the next entry finds agreeing answers and keeps the states
related, then the answers agree at every place of a run. -/
theorem simulation
    (hstep : ∀ pre f s₁ s₂, Rule (pre ++ [f]) → R pre s₁ s₂ →
      Agree pre f (m₁.answer s₁ (event₁ f)) (m₂.answer s₂ (event₂ f)) ∧
        R (pre ++ [f]) (m₁.next s₁ (event₁ f)) (m₂.next s₂ (event₂ f)))
    (feed pre : List φ) {s₁ : σ₁} {s₂ : σ₂} (hrule : ∀ l, l <+: pre ++ feed → Rule l) (h : R pre s₁ s₂)
    {i : ℕ} {f : φ} {x₁ : Entry σ₁ ε₁ ω₁} {x₂ : Entry σ₂ ε₂ ω₂} (hf : feed[i]? = some f)
    (hx₁ : (m₁.trace s₁ (feed.map event₁))[i]? = some x₁)
    (hx₂ : (m₂.trace s₂ (feed.map event₂))[i]? = some x₂) :
    Agree (pre ++ feed.take i) f x₁.outcome x₂.outcome := by
  induction feed generalizing pre s₁ s₂ i with
  | nil => cases hf
  | cons g feed ih =>
    have hsplit : pre ++ g :: feed = (pre ++ [g]) ++ feed := by
      rw [List.append_assoc, List.singleton_append]
    rw [hsplit] at hrule
    obtain ⟨hagree, hnext⟩ := hstep pre g s₁ s₂ (hrule _ (List.prefix_append _ _)) h
    cases i with
    | zero =>
      obtain rfl := Option.some.inj hf
      obtain rfl := Option.some.inj hx₁
      obtain rfl := Option.some.inj hx₂
      rw [List.take_zero, List.append_nil]
      exact hagree
    | succ i =>
      have hlater := ih (pre ++ [g]) hrule hnext hf hx₁ hx₂
      rw [List.append_assoc, List.singleton_append] at hlater
      exact hlater

end Simulation

/-! ### Steps that are steps of another machine -/

/-- What a step answers in the name of another machine, and what that machine does there. -/
def Does {σ' ε' ω' : Type*} (m' : Machine σ' ε' ω') (s' : σ') : Option (ε' × ω') → σ' → Prop
  | none, after => after = s'
  | some (e', o), after => m'.step s' e' = (o, after)

/-- Every step is one of another machine's on a part of the state, or leaves that part alone:
so in a run that part ends where the other machine does, with the same answers. -/
theorem refines {σ' ε' ω' : Type*} {m : Machine σ ε (Option (ε' × ω'))} {m' : Machine σ' ε' ω'}
    {part : σ → σ'} {Inv : σ → Prop} {Rule : Entry σ ε (Option (ε' × ω')) → Prop}
    (hstep : ∀ s e, Rule ⟨s, e, m.answer s e⟩ → Inv s →
      Inv (m.next s e) ∧ Does m' (part s) (m.answer s e) (part (m.next s e)))
    {s : σ} (hs : Inv s) {es : List ε} (hrule : ∀ x ∈ m.trace s es, Rule x) :
    m'.run (part s) (((m.trace s es).filterMap Entry.outcome).map Prod.fst) = part (m.run s es) ∧
      (m'.trace (part s) (((m.trace s es).filterMap Entry.outcome).map Prod.fst)).map
          (fun x => (x.event, x.outcome)) =
        (m.trace s es).filterMap Entry.outcome := by
  induction es generalizing s with
  | nil => exact ⟨rfl, rfl⟩
  | cons e rest ih =>
    obtain ⟨hnext, hdoes⟩ := hstep s e (hrule _ List.mem_cons_self) hs
    have hrest := ih hnext fun x hx => hrule x (List.mem_cons_of_mem _ hx)
    cases houtcome : m.answer s e with
    | none =>
      rw [houtcome] at hdoes
      rw [show part (m.next s e) = part s from hdoes] at hrest
      simp only [trace, List.filterMap_cons, houtcome, run]
      exact hrest
    | some served =>
      obtain ⟨e', o⟩ := served
      rw [houtcome] at hdoes
      have hnext' : m'.next (part s) e' = part (m.next s e) := congrArg Prod.snd hdoes
      have hanswer : m'.answer (part s) e' = o := congrArg Prod.fst hdoes
      simp only [trace, List.filterMap_cons, houtcome, List.map_cons, run, hnext', hanswer]
      exact ⟨hrest.1, congrArg _ hrest.2⟩

/-! ### Registers -/

variable (m) in
/-- A part of the state that an entry either writes or leaves alone. -/
structure Register (α : Type*) where
  view : σ → α
  write : Entry σ ε ω → Option α
  step : ∀ s e, view (m.next s e) = (write ⟨s, e, m.answer s e⟩).getD (view s)

/-- After a run, a register holds what the last writing entry wrote. -/
theorem Register.view_run {α : Type*} (r : m.Register α) (s : σ) (es : List ε) :
    r.view (m.run s es) = (((m.trace s es).filterMap r.write).getLast?).getD (r.view s) := by
  induction es generalizing s with
  | nil => rfl
  | cons e rest ih =>
    rw [run, ih, r.step, trace, List.filterMap_cons]
    cases hw : r.write ⟨s, e, m.answer s e⟩ with
    | none => simp
    | some a => simp [List.getLast?_cons]

/-- The last writing entry of a history, with nothing written after it. -/
theorem last_write {α β : Type*} (write : β → Option α) (l : List β) {a : α}
    (h : (l.filterMap write).getLast? = some a) :
    ∃ pre x post, l = pre ++ x :: post ∧ write x = some a ∧ ∀ y ∈ post, write y = none := by
  induction l with
  | nil => simp at h
  | cons y rest ih =>
    by_cases hrest : rest.filterMap write = []
    · refine ⟨[], y, rest, rfl, ?_, List.filterMap_eq_nil_iff.mp hrest⟩
      cases hy : write y with
      | none => simp [hy, hrest] at h
      | some b => simpa [List.filterMap_cons, hy, hrest] using h
    · have hlast : (rest.filterMap write).getLast? = some a := by
        cases hy : write y with
        | none => simpa [List.filterMap_cons, hy] using h
        | some b => simpa [List.filterMap_cons, hy, List.getLast?_cons_of_ne_nil hrest] using h
      obtain ⟨pre, x, post, rfl, hx, hpost⟩ := ih hlast
      exact ⟨y :: pre, x, post, rfl, hx, hpost⟩

theorem last_write_eq {α β : Type*} (write : β → Option α) {pre post : List β} {x : β} {a : α}
    (hx : write x = some a) (hpost : ∀ y ∈ post, write y = none) :
    ((pre ++ x :: post).filterMap write).getLast? = some a := by
  rw [List.filterMap_append, List.filterMap_cons, hx, List.filterMap_eq_nil_iff.mpr hpost]
  simp

/-! ### Rejected events -/

/-- The entries of a run whose event was not rejected. -/
def kept (rejected : ω → Bool) (t : List (Entry σ ε ω)) : List (Entry σ ε ω) :=
  t.filter fun x => !rejected x.outcome

/-- Where a rejected event changes nothing, deleting the rejected events of a run
leaves every other entry, and the state the run ends in, as they were. -/
theorem erase_rejected {rejected : ω → Bool}
    (h : ∀ s e, rejected (m.answer s e) = true → m.next s e = s) (s : σ) (es : List ε) :
    m.trace s ((kept rejected (m.trace s es)).map Entry.event) = kept rejected (m.trace s es) ∧
      m.run s ((kept rejected (m.trace s es)).map Entry.event) = m.run s es := by
  induction es generalizing s with
  | nil => exact ⟨rfl, rfl⟩
  | cons e rest ih =>
    obtain ⟨htrace, hrun⟩ := ih (m.next s e)
    cases hr : rejected (m.answer s e) with
    | false =>
      simp only [trace, kept, List.filter_cons, hr, Bool.not_false, if_true, List.map_cons, run]
      exact ⟨by rw [kept] at htrace; rw [htrace], by rw [kept] at hrun; exact hrun⟩
    | true =>
      have hsame : m.next s e = s := h s e hr
      rw [hsame] at htrace hrun
      simp only [trace, kept, List.filter_cons, hr, Bool.not_true, Bool.false_eq_true, if_false,
        run, hsame]
      exact ⟨htrace, hrun⟩

/-! ### Noninterference -/

/-- What an observer of some of the events sees of a run: those events and their outcomes. -/
def observed (visible : ε → Bool) (t : List (Entry σ ε ω)) : List (ε × ω) :=
  (t.filter fun x => visible x.event).map fun x => (x.event, x.outcome)

/-- Where a visible event finds the same answer in two states that look alike and keeps them
alike, and any other event keeps its state like the one it met, an observer of the visible
events sees the same with the others deleted. -/
theorem erase_invisible {visible : ε → Bool} {Alike : σ → σ → Prop}
    (hvisible : ∀ s s' e, visible e = true → Alike s s' →
      m.answer s e = m.answer s' e ∧ Alike (m.next s e) (m.next s' e))
    (hother : ∀ s s' e, visible e = false → Alike s s' → Alike (m.next s e) s') {s s' : σ}
    (h : Alike s s') (es : List ε) :
    observed visible (m.trace s es) = observed visible (m.trace s' (es.filter visible)) ∧
      Alike (m.run s es) (m.run s' (es.filter visible)) := by
  induction es generalizing s s' with
  | nil => exact ⟨rfl, h⟩
  | cons e rest ih =>
    cases hsees : visible e with
    | true =>
      obtain ⟨hanswer, hnext⟩ := hvisible s s' e hsees h
      obtain ⟨hrest, hrun⟩ := ih hnext
      rw [List.filter_cons_of_pos hsees]
      refine ⟨?_, hrun⟩
      unfold observed at hrest ⊢
      simp only [trace, List.filter_cons, hsees, if_true, List.map_cons, hrest, hanswer]
    | false =>
      obtain ⟨hrest, hrun⟩ := ih (hother s s' e hsees h)
      have hblind : ¬ visible e = true := by
        rw [hsees]
        exact Bool.false_ne_true
      rw [List.filter_cons_of_neg hblind]
      refine ⟨?_, hrun⟩
      unfold observed at hrest ⊢
      simp only [trace, List.filter_cons, hsees, Bool.false_eq_true, if_false]
      exact hrest

end Machine

end ZeusPower.Library
