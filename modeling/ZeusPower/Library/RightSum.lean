import Mathlib.Algebra.BigOperators.Group.Finset.Basic
import Mathlib.Algebra.Order.BigOperators.Group.List
import Mathlib.Algebra.Order.Field.Basic
import Mathlib.Data.List.Basic
import Mathlib.Tactic.Linarith
import Mathlib.Tactic.Ring
import ZeusPower.Library.Rounding

/-! Right-endpoint sums.

A round is a time and a reading, or no reading. `total` charges every reading for the
whole time since the round before it, and a round without a reading for nothing. A run
of rounds splits anywhere (`total_append`); the sum over a schedule is a sum over its
indices (`total_range`); between readings of `lo` and `hi` it is between the two
rectangles (`total_bounds`); and readings that are all equal miss exactly the time of
the rounds that have none (`total_constant`). `accumulated` is the loop of a program that
adds the charges to a sum in rounded arithmetic. -/
namespace ZeusPower.Library.RightSum

/-! ### The times of the rounds -/

section Times
variable {K : Type*}

/-- The time of the last round. -/
def lastTime (start : K) : List (K × Option K) → K
  | [] => start
  | p :: rest => lastTime p.1 rest

theorem lastTime_append (start : K) (xs ys : List (K × Option K)) :
    lastTime start (xs ++ ys) = lastTime (lastTime start xs) ys := by
  induction xs generalizing start with
  | nil => rfl
  | cons p xs ih => exact ih p.1

theorem lastTime_range (t : ℕ → K) (reading : ℕ → Option K) (n : ℕ) :
    lastTime (t 0) ((List.range n).map fun i => (t (i + 1), reading i)) = t n := by
  cases n with
  | zero => rfl
  | succ n =>
    rw [List.range_succ, List.map_append, lastTime_append]
    rfl

variable [LinearOrder K]

/-- Times that do not go back, from `start` on. -/
def Steady (start : K) : List (K × Option K) → Prop
  | [] => True
  | p :: rest => start ≤ p.1 ∧ Steady p.1 rest

/-- Times that go forward, from `start` on. -/
def Advancing (start : K) : List (K × Option K) → Prop
  | [] => True
  | p :: rest => start < p.1 ∧ Advancing p.1 rest

theorem Advancing.steady {start : K} {l : List (K × Option K)} (h : Advancing start l) :
    Steady start l := by
  induction l generalizing start with
  | nil => trivial
  | cons p rest ih => exact ⟨h.1.le, ih h.2⟩

theorem Steady.append {start : K} {xs ys : List (K × Option K)} (h : Steady start (xs ++ ys)) :
    Steady start xs ∧ Steady (lastTime start xs) ys := by
  induction xs generalizing start with
  | nil => exact ⟨trivial, h⟩
  | cons p xs ih =>
    obtain ⟨hxs, hys⟩ := ih h.2
    exact ⟨⟨h.1, hxs⟩, hys⟩

end Times

/-! ### Sums -/

section Sums
variable {K : Type*} [Field K]

def total (start : K) : List (K × Option K) → K
  | [] => 0
  | p :: rest => p.2.getD 0 * (p.1 - start) + total p.1 rest

/-- The time charged to rounds without a reading. -/
def missed (start : K) : List (K × Option K) → K
  | [] => 0
  | p :: rest => (if p.2 = none then p.1 - start else 0) + missed p.1 rest

/-- Each round with the time since the round before it, in place of its own time. -/
def steps (start : K) : List (K × Option K) → List (K × Option K)
  | [] => []
  | p :: rest => (p.1 - start, p.2) :: steps p.1 rest

theorem total_append (start : K) (xs ys : List (K × Option K)) :
    total start (xs ++ ys) = total start xs + total (lastTime start xs) ys := by
  induction xs generalizing start with
  | nil => simp only [List.nil_append, total, lastTime, zero_add]
  | cons p xs ih => simp only [List.cons_append, total, lastTime, ih, add_assoc]

/-- The first `n` rounds of a schedule, as one sum. -/
theorem total_range (t : ℕ → K) (reading : ℕ → Option K) (n : ℕ) :
    total (t 0) ((List.range n).map fun i => (t (i + 1), reading i)) =
      ∑ i ∈ Finset.range n, (reading i).getD 0 * (t (i + 1) - t i) := by
  induction n with
  | zero => rfl
  | succ n ih =>
    rw [List.range_succ, List.map_append, total_append, ih, lastTime_range, Finset.sum_range_succ,
      List.map_singleton, total, total, add_zero]

/-- Readings that are all `c` are charged for the time that was not missed. -/
theorem total_constant {c : K} (start : K) {l : List (K × Option K)}
    (h : ∀ p ∈ l, ∀ v, p.2 = some v → v = c) :
    total start l = c * (lastTime start l - start - missed start l) := by
  induction l generalizing start with
  | nil =>
    show (0 : K) = c * (start - start - 0)
    ring
  | cons p rest ih =>
    have hrest := ih p.1 fun q hq => h q (List.mem_cons_of_mem p hq)
    rw [total, lastTime, missed, hrest]
    cases hv : p.2 with
    | none =>
      rw [if_pos rfl, Option.getD_none]
      ring
    | some v =>
      rw [if_neg (Option.some_ne_none v), Option.getD_some, h p List.mem_cons_self v hv]
      ring

end Sums

/-! ### Bounds -/

section Bounds
variable {K : Type*} [Field K] [LinearOrder K] [IsStrictOrderedRing K]

/-- Readings between `lo` and `hi`, in every round. -/
theorem total_bounds {lo hi start : K} {l : List (K × Option K)} (hs : Steady start l)
    (h : ∀ p ∈ l, ∃ v, p.2 = some v ∧ lo ≤ v ∧ v ≤ hi) :
    lo * (lastTime start l - start) ≤ total start l ∧
      total start l ≤ hi * (lastTime start l - start) := by
  induction l generalizing start with
  | nil => simp [total, lastTime]
  | cons p rest ih =>
    obtain ⟨v, hv, hlo, hhi⟩ := h p List.mem_cons_self
    obtain ⟨hlower, hupper⟩ := ih hs.2 fun q hq => h q (List.mem_cons_of_mem p hq)
    have hwidth : 0 ≤ p.1 - start := sub_nonneg.mpr hs.1
    have hheadLower := mul_le_mul_of_nonneg_right hlo hwidth
    have hheadUpper := mul_le_mul_of_nonneg_right hhi hwidth
    rw [total, lastTime, hv, Option.getD_some]
    constructor
    · linarith
    · linarith

theorem missed_nonneg {start : K} {l : List (K × Option K)} (h : Steady start l) :
    0 ≤ missed start l := by
  induction l generalizing start with
  | nil => exact le_refl 0
  | cons p rest ih =>
    have hrest := ih h.2
    rw [missed]
    split
    · linarith [h.1]
    · linarith

/-- When time goes forward, nothing is missed exactly when every round has a reading. -/
theorem missed_eq_zero_iff {start : K} {l : List (K × Option K)} (h : Advancing start l) :
    missed start l = 0 ↔ ∀ p ∈ l, p.2 ≠ none := by
  induction l generalizing start with
  | nil => simp [missed]
  | cons p rest ih =>
    have hrest := missed_nonneg h.2.steady
    rw [missed, List.forall_mem_cons, ← ih h.2]
    by_cases hp : p.2 = none
    · rw [if_pos hp]
      constructor
      · intro hzero
        linarith [h.1]
      · intro hall
        exact absurd hp hall.1
    · rw [if_neg hp, zero_add]
      exact ⟨fun hzero => ⟨hp, hzero⟩, fun hall => hall.2⟩

/-- Readings that are not negative have a sum that is not negative. -/
theorem total_nonneg {start : K} {l : List (K × Option K)} (hs : Steady start l)
    (h : ∀ p ∈ l, 0 ≤ p.2.getD 0) : 0 ≤ total start l := by
  induction l generalizing start with
  | nil => exact le_refl 0
  | cons p rest ih =>
    have hhead := mul_nonneg (h p List.mem_cons_self) (sub_nonneg.mpr hs.1)
    have hrest := ih hs.2 fun q hq => h q (List.mem_cons_of_mem p hq)
    rw [total]
    linarith

/-- Their sum is nothing exactly when every round took no time or read nothing. -/
theorem total_nonpos_iff {start : K} {l : List (K × Option K)} (hs : Steady start l)
    (h : ∀ p ∈ l, 0 ≤ p.2.getD 0) :
    total start l ≤ 0 ↔ ∀ p ∈ steps start l, p.1 = 0 ∨ p.2.getD 0 = 0 := by
  induction l generalizing start with
  | nil => simp [total, steps]
  | cons p rest ih =>
    have hnonneg : ∀ q ∈ rest, 0 ≤ q.2.getD 0 := fun q hq => h q (List.mem_cons_of_mem p hq)
    have hhead := mul_nonneg (h p List.mem_cons_self) (sub_nonneg.mpr hs.1)
    have hrest := total_nonneg hs.2 hnonneg
    rw [total, steps, List.forall_mem_cons, ← ih hs.2 hnonneg]
    constructor
    · intro hle
      have hzero : p.2.getD 0 * (p.1 - start) = 0 := by linarith
      exact ⟨(mul_eq_zero.mp hzero).symm, by linarith⟩
    · intro hall
      have hzero : p.2.getD 0 * (p.1 - start) = 0 := mul_eq_zero.mpr hall.1.symm
      linarith [hall.2]

/-- Terms that are not negative add up to nothing exactly when each is nothing. -/
theorem sum_nonpos_iff {l : List K} (h : ∀ x ∈ l, 0 ≤ x) : l.sum ≤ 0 ↔ ∀ x ∈ l, x ≤ 0 := by
  constructor
  · intro hsum x hx
    exact (List.single_le_sum h x hx).trans hsum
  · intro hall
    exact (List.sum_le_card_nsmul l 0 hall).trans_eq (nsmul_zero l.length)

end Bounds

/-! ### In rounded arithmetic -/

section Rounded
variable [Rounding]

/-- A sum after a round of a length, as a program computes it. -/
def charge (sum dt : ℚ) : Option ℚ → ℚ
  | none => sum
  | some v => fl (sum + fl (v * dt))

def accumulated (sum start : ℚ) : List (ℚ × Option ℚ) → ℚ
  | [] => sum
  | p :: rest => accumulated (charge sum (fl (p.1 - start)) p.2) p.1 rest

theorem accumulated_append (sum start : ℚ) (xs ys : List (ℚ × Option ℚ)) :
    accumulated sum start (xs ++ ys) = accumulated (accumulated sum start xs) (lastTime start xs) ys := by
  induction xs generalizing sum start with
  | nil => rfl
  | cons p xs ih => exact ih _ _

/-- The first `n` rounds of a schedule, one after the other. -/
theorem accumulated_range (sum : ℚ) (t : ℕ → ℚ) (reading : ℕ → Option ℚ) (n : ℕ) :
    accumulated sum (t 0) ((List.range n).map fun i => (t (i + 1), reading i)) =
      (List.range n).foldl (fun sum i => charge sum (fl (t (i + 1) - t i)) (reading i)) sum := by
  induction n with
  | zero => rfl
  | succ n ih =>
    rw [List.range_succ, List.map_append, accumulated_append, ih, lastTime_range, List.foldl_append]
    rfl

/-- What a program has accumulated is a number. -/
theorem fl_accumulated {sum : ℚ} (hsum : fl sum = sum) (start : ℚ) (l : List (ℚ × Option ℚ)) :
    fl (accumulated sum start l) = accumulated sum start l := by
  induction l generalizing sum start with
  | nil => exact hsum
  | cons p rest ih =>
    apply ih
    cases p.2 with
    | none => exact hsum
    | some v => exact Rounding.fl_fl _

/-- Rounds that take no time or read nothing leave a sum as it is. -/
theorem accumulated_idle {sum : ℚ} (hsum : fl sum = sum) {start : ℚ} {l : List (ℚ × Option ℚ)}
    (h : ∀ step ∈ steps start l, step.1 = 0 ∨ step.2.getD 0 = 0) : accumulated sum start l = sum := by
  induction l generalizing start with
  | nil => rfl
  | cons p rest ih =>
    have hcharge : charge sum (fl (p.1 - start)) p.2 = sum := by
      cases hp : p.2 with
      | none => rfl
      | some v =>
        have hproduct : v * fl (p.1 - start) = 0 := by
          rcases h (p.1 - start, p.2) List.mem_cons_self with htime | hvalue
          · have hzero : p.1 - start = 0 := htime
            rw [hzero, Rounding.fl_zero, mul_zero]
          · rw [hp, Option.getD_some] at hvalue
            rw [hvalue, zero_mul]
        rw [charge, hproduct, Rounding.fl_zero, add_zero, hsum]
    rw [accumulated, hcharge]
    exact ih fun step hstep => h step (List.mem_cons_of_mem _ hstep)

theorem charge_eq [Exact] (sum dt : ℚ) (reading : Option ℚ) :
    charge sum dt reading = sum + reading.getD 0 * dt := by
  cases reading with
  | none => rw [charge, Option.getD_none, zero_mul, add_zero]
  | some v => rw [charge, Exact.fl_eq, Exact.fl_eq, Option.getD_some]

theorem accumulated_eq [Exact] (sum start : ℚ) (l : List (ℚ × Option ℚ)) :
    accumulated sum start l = sum + total start l := by
  induction l generalizing sum start with
  | nil => exact (add_zero sum).symm
  | cons p rest ih => rw [accumulated, ih, charge_eq, Exact.fl_eq, total, add_assoc]

end Rounded

end ZeusPower.Library.RightSum
