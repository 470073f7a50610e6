import Mathlib.Algebra.Order.Ring.Rat
import Mathlib.Data.Int.ConditionallyCompleteOrder
import Mathlib.Data.Int.Log
import Mathlib.Data.List.Permutation
import Mathlib.Data.Rat.Floor
import Mathlib.Tactic.Linarith

/-! Arithmetic that rounds.

The numbers of a program are some of the rationals, and an operation gives the number
that stands for its exact result: `fl (x + y)` for the program's `x + y`. A definition that
computes takes the `Rounding` it computes in; a theorem about all of them holds of the
program's own, and one that needs the results to be exact says so (`Exact`).

`nearestEven p` is rounding to the nearest number of `p` binary digits, ties to even, with
no end to the exponents; `binary64` has the 53 digits of a `double`. `Rounding.sum` adds up a
list as a loop does, rounding after every term. -/
namespace ZeusPower.Library

/-- The number that stands for a rational. -/
class Rounding where
  fl : ℚ → ℚ
  mono : Monotone fl
  /-- A number stands for itself. -/
  fl_fl : ∀ x, fl (fl x) = fl x
  fl_zero : fl 0 = 0
  fl_one : fl 1 = 1
  /-- Nothing underflows. -/
  fl_pos : ∀ x, 0 < x → 0 < fl x

export Rounding (fl)

attribute [simp] Rounding.fl_fl Rounding.fl_zero Rounding.fl_one

/-- Every rational is a number. -/
class Exact [Rounding] : Prop where
  fl_eq (x : ℚ) : fl x = x

attribute [simp] Exact.fl_eq

namespace Rounding

@[reducible] def exact : Rounding where
  fl x := x
  mono := monotone_id
  fl_fl _ := rfl
  fl_zero := rfl
  fl_one := rfl
  fl_pos _ hx := hx

theorem exact_exact : @Exact exact := @Exact.mk exact fun _ => rfl

section Laws
variable [Rounding] {x y : ℚ}

theorem fl_nonneg (h : 0 ≤ x) : 0 ≤ fl x := by
  rw [← fl_zero]
  exact mono h

theorem fl_nonpos (h : x ≤ 0) : fl x ≤ 0 := by
  rw [← fl_zero]
  exact mono h

end Laws

/-! ### Sums -/

section Sums
variable [Rounding]

/-- A sum that is rounded after every term. -/
def sum (l : List ℚ) : ℚ := l.foldl (fun s x => fl (s + x)) 0

@[simp] theorem sum_nil : sum [] = 0 := rfl

theorem sum_append (l : List ℚ) (x : ℚ) : sum (l ++ [x]) = fl (sum l + x) := by
  rw [sum, List.foldl_append]
  rfl

theorem sum_singleton (x : ℚ) : sum [x] = fl x := congrArg fl (zero_add x)

/-- Terms that do not fall do not make a sum fall. -/
theorem sum_mono {ι : Type*} {f g : ι → ℚ} {l : List ι} (h : ∀ i ∈ l, f i ≤ g i) :
    sum (l.map f) ≤ sum (l.map g) := by
  induction l using List.reverseRecOn with
  | nil => exact le_rfl
  | append_singleton l i ih =>
    rw [List.map_append, List.map_append, List.map_singleton, List.map_singleton, sum_append, sum_append]
    exact mono (add_le_add (ih fun j hj => h j (List.mem_append_left _ hj))
      (h i (List.mem_append_right _ (List.mem_singleton_self i))))

theorem foldl_zeros {s : ℚ} (hs : fl s = s) {l : List ℚ} (h : ∀ x ∈ l, x = 0) :
    l.foldl (fun s x => fl (s + x)) s = s := by
  induction l with
  | nil => rfl
  | cons x l ih =>
    rw [List.foldl_cons, h x List.mem_cons_self, add_zero, hs]
    exact ih fun y hy => h y (List.mem_cons_of_mem x hy)

/-- One number and zeros, in any order, sum to that number. -/
theorem sum_single {x : ℚ} (hx : fl x = x) {l others : List ℚ} (h : l.Perm (x :: others))
    (hothers : ∀ y ∈ others, y = 0) : sum l = x := by
  obtain ⟨a, b, rfl⟩ := List.append_of_mem (h.mem_iff.mpr List.mem_cons_self)
  have hzeros : ∀ y ∈ a ++ b, y = 0 := by
    intro y hy
    exact hothers y ((List.perm_middle.symm.trans h).cons_inv.mem_iff.mp hy)
  rw [sum, List.foldl_append, foldl_zeros fl_zero fun y hy => hzeros y (List.mem_append_left b hy),
    List.foldl_cons, zero_add, hx]
  exact foldl_zeros hx fun y hy => hzeros y (List.mem_append_right a hy)

theorem sum_eq [Exact] (l : List ℚ) : sum l = l.sum := by
  induction l using List.reverseRecOn with
  | nil => rfl
  | append_singleton l x ih => rw [sum_append, ih, Exact.fl_eq, List.sum_append, List.sum_singleton]

/-- It takes three numbers for their order to matter. -/
theorem sum_perm_of_length_le {l l' : List ℚ} (hl : ∀ x ∈ l, fl x = x) (h : l'.Perm l)
    (hlength : l.length ≤ 2) : sum l' = sum l := by
  match l, hlength with
  | [], _ => rw [h.eq_nil]
  | [x], _ => rw [h.eq_singleton]
  | [x, y], _ =>
    rcases List.perm_pair.mp h with rfl | rfl
    · rfl
    · show fl (fl (0 + y) + x) = fl (fl (0 + x) + y)
      rw [zero_add, zero_add, hl y (by simp), hl x (by simp), add_comm]

end Sums

/-! ### Rounding to the nearest -/

/-- The nearest integer, the even one of two. -/
def toEven (y : ℚ) : ℤ :=
  if Int.fract y < 1 / 2 ∨ Int.fract y = 1 / 2 ∧ Even ⌊y⌋ then ⌊y⌋ else ⌊y⌋ + 1

theorem floor_le_toEven (y : ℚ) : ⌊y⌋ ≤ toEven y := by
  unfold toEven
  split <;> omega

theorem toEven_le (y : ℚ) : toEven y ≤ ⌊y⌋ + 1 := by
  unfold toEven
  split <;> omega

@[simp] theorem toEven_intCast (n : ℤ) : toEven n = n := by
  rw [toEven, Int.fract_intCast, Int.floor_intCast, if_pos (Or.inl (by norm_num))]

theorem toEven_mono : Monotone toEven := by
  intro x y hxy
  rcases (Int.floor_mono hxy).lt_or_eq with hlt | heq
  · calc toEven x ≤ ⌊x⌋ + 1 := toEven_le x
      _ ≤ ⌊y⌋ := hlt
      _ ≤ toEven y := floor_le_toEven y
  · have hfract : Int.fract x ≤ Int.fract y := by
      rw [Int.fract, Int.fract, heq]
      linarith
    unfold toEven
    rw [heq]
    split
    · split <;> omega
    next hx =>
      -- What rounds up goes on rounding up.
      have hy : ¬ (Int.fract y < 1 / 2 ∨ Int.fract y = 1 / 2 ∧ Even ⌊y⌋) := by
        rintro (hy | ⟨hy, heven⟩)
        · exact hx (Or.inl (hfract.trans_lt hy))
        · rcases hfract.lt_or_eq with hlt | hsame
          · exact hx (Or.inl (hlt.trans_eq hy))
          · exact hx (Or.inr ⟨hsame.trans hy, heq ▸ heven⟩)
      rw [if_neg hy]

section NearestEven
variable (p : ℕ)

/-- The distance between two numbers of `p` digits beside `x`. -/
def spacing (x : ℚ) : ℚ := 2 ^ (Int.log 2 x + 1 - p)

/-- The nearest number of `p` digits to one that is not negative. -/
def nearest (x : ℚ) : ℚ := toEven (x / spacing p x) * spacing p x

def nearestEven (x : ℚ) : ℚ := if x < 0 then -nearest p (-x) else nearest p x

variable {p} {x y : ℚ}

theorem spacing_pos : 0 < spacing p x := zpow_pos (by norm_num) _

/-- A number of digits that stands beside itself is its own nearest. -/
theorem nearest_eq_self {m : ℤ} (h : x = m * spacing p x) : nearest p x = x := by
  have hdiv : x / spacing p x = m := by
    rw [div_eq_iff spacing_pos.ne']
    exact h
  rw [nearest, hdiv, toEven_intCast]
  exact h.symm

/-- Rounding stays between the powers of two. -/
theorem nearest_between (hp : 0 < p) (hx : 0 < x) :
    (2 : ℚ) ^ Int.log 2 x ≤ nearest p x ∧ nearest p x ≤ 2 ^ (Int.log 2 x + 1) := by
  have hlow : (2 : ℚ) ^ Int.log 2 x ≤ x := Int.zpow_log_le_self Nat.one_lt_two hx
  have hhigh : x < 2 ^ (Int.log 2 x + 1) := Int.lt_zpow_succ_log_self Nat.one_lt_two x
  have hspacing : (0 : ℚ) < spacing p x := spacing_pos
  have hlower : (2 : ℚ) ^ Int.log 2 x = ((2 ^ (p - 1) : ℤ) : ℚ) * spacing p x := by
    rw [spacing, Int.cast_pow, Int.cast_ofNat, ← zpow_natCast, ← zpow_add₀ two_ne_zero]
    congr 1
    omega
  have hupper : (2 : ℚ) ^ (Int.log 2 x + 1) = ((2 ^ p : ℤ) : ℚ) * spacing p x := by
    rw [spacing, Int.cast_pow, Int.cast_ofNat, ← zpow_natCast, ← zpow_add₀ two_ne_zero]
    congr 1
    omega
  have hge : (2 ^ (p - 1) : ℤ) ≤ toEven (x / spacing p x) := by
    have hle : ((2 ^ (p - 1) : ℤ) : ℚ) ≤ x / spacing p x := by
      rwa [le_div_iff₀ hspacing, ← hlower]
    have hmono := toEven_mono hle
    rwa [toEven_intCast] at hmono
  have hle : toEven (x / spacing p x) ≤ (2 ^ p : ℤ) := by
    have hle : x / spacing p x ≤ ((2 ^ p : ℤ) : ℚ) := by
      rw [div_le_iff₀ hspacing, ← hupper]
      exact hhigh.le
    have hmono := toEven_mono hle
    rwa [toEven_intCast] at hmono
  constructor
  · rw [hlower, nearest]
    exact mul_le_mul_of_nonneg_right (by exact_mod_cast hge) hspacing.le
  · rw [hupper, nearest]
    exact mul_le_mul_of_nonneg_right (by exact_mod_cast hle) hspacing.le

theorem nearest_pos (hp : 0 < p) (hx : 0 < x) : 0 < nearest p x :=
  lt_of_lt_of_le (zpow_pos (by norm_num) _) (nearest_between hp hx).1

@[simp] theorem nearest_zero : nearest p 0 = 0 := by
  rw [nearest, zero_div]
  have hzero : toEven 0 = 0 := by exact_mod_cast toEven_intCast 0
  rw [hzero, Int.cast_zero, zero_mul]

theorem nearest_mono (hp : 0 < p) (hx : 0 < x) (hxy : x ≤ y) : nearest p x ≤ nearest p y := by
  rcases (Int.log_mono_right hx hxy).lt_or_eq with hlt | heq
  · calc nearest p x ≤ 2 ^ (Int.log 2 x + 1) := (nearest_between hp hx).2
      _ ≤ 2 ^ Int.log 2 y := zpow_le_zpow_right₀ one_le_two hlt
      _ ≤ nearest p y := (nearest_between hp (hx.trans_le hxy)).1
  · have hspacing : spacing p x = spacing p y := by rw [spacing, spacing, heq]
    have hdiv : x / spacing p x ≤ y / spacing p y := by
      rw [hspacing]
      exact div_le_div_of_nonneg_right hxy spacing_pos.le
    rw [nearest, nearest, hspacing] at *
    exact mul_le_mul_of_nonneg_right (by exact_mod_cast toEven_mono hdiv) spacing_pos.le

theorem nearest_nearest (hp : 0 < p) (hx : 0 < x) : nearest p (nearest p x) = nearest p x := by
  obtain ⟨hlow, hhigh⟩ := nearest_between hp hx
  rcases hhigh.lt_or_eq with hlt | heq
  · -- The exponent is still that of `x`.
    have hlog : Int.log 2 (nearest p x) = Int.log 2 x := by
      apply le_antisymm
      · have := (Int.lt_zpow_iff_log_lt (b := 2) Nat.one_lt_two (nearest_pos hp hx)).mp hlt
        omega
      · exact (Int.zpow_le_iff_le_log (b := 2) Nat.one_lt_two (nearest_pos hp hx)).mp hlow
    have hspacing : spacing p (nearest p x) = spacing p x := by rw [spacing, spacing, hlog]
    apply nearest_eq_self (m := toEven (x / spacing p x))
    rw [hspacing]
    rfl
  · -- Rounded up to the next power of two, which has any number of digits.
    rw [heq]
    apply nearest_eq_self (m := 2 ^ (p - 1))
    have hlog : Int.log 2 ((2 : ℚ) ^ (Int.log 2 x + 1)) = Int.log 2 x + 1 := by
      exact_mod_cast Int.log_zpow (R := ℚ) (b := 2) Nat.one_lt_two (Int.log 2 x + 1)
    rw [spacing, hlog, Int.cast_pow, Int.cast_ofNat, ← zpow_natCast, ← zpow_add₀ two_ne_zero]
    congr 1
    omega

theorem nearestEven_of_nonneg (hx : 0 ≤ x) : nearestEven p x = nearest p x := if_neg (not_lt.mpr hx)

theorem nearestEven_neg (x : ℚ) : nearestEven p (-x) = -nearestEven p x := by
  unfold nearestEven
  rcases lt_trichotomy x 0 with hx | rfl | hx
  · rw [if_neg (by linarith), if_pos hx, neg_neg]
  · simp
  · rw [if_pos (by linarith), if_neg (by linarith), neg_neg]

theorem nearestEven_nonneg (hp : 0 < p) (hx : 0 ≤ x) : 0 ≤ nearestEven p x := by
  rw [nearestEven_of_nonneg hx]
  rcases hx.lt_or_eq with hx | rfl
  · exact (nearest_pos hp hx).le
  · rw [nearest_zero]

theorem nearestEven_mono (hp : 0 < p) : Monotone (nearestEven p) := by
  have hnonneg : ∀ {x y : ℚ}, 0 ≤ x → x ≤ y → nearestEven p x ≤ nearestEven p y := by
    intro x y hx hxy
    rcases hx.lt_or_eq with hx | rfl
    · rw [nearestEven_of_nonneg hx.le, nearestEven_of_nonneg (hx.le.trans hxy)]
      exact nearest_mono hp hx hxy
    · rw [nearestEven_of_nonneg le_rfl, nearest_zero]
      exact nearestEven_nonneg hp hxy
  intro x y hxy
  rcases le_total 0 x with hx | hx
  · exact hnonneg hx hxy
  · rcases le_total 0 y with hy | hy
    · have hneg := nearestEven_nonneg hp (neg_nonneg.mpr hx)
      rw [nearestEven_neg] at hneg
      exact (neg_nonneg.mp hneg).trans (nearestEven_nonneg hp hy)
    · have hneg := hnonneg (neg_nonneg.mpr hy) (neg_le_neg hxy)
      rw [nearestEven_neg, nearestEven_neg] at hneg
      exact neg_le_neg_iff.mp hneg

theorem nearestEven_nearestEven (hp : 0 < p) (x : ℚ) : nearestEven p (nearestEven p x) = nearestEven p x := by
  have hnonneg : ∀ {x : ℚ}, 0 ≤ x → nearestEven p (nearestEven p x) = nearestEven p x := by
    intro x hx
    rw [nearestEven_of_nonneg (nearestEven_nonneg hp hx), nearestEven_of_nonneg hx]
    rcases hx.lt_or_eq with hx | rfl
    · exact nearest_nearest hp hx
    · rw [nearest_zero, nearest_zero]
  rcases le_total 0 x with hx | hx
  · exact hnonneg hx
  · have hneg := hnonneg (neg_nonneg.mpr hx)
    rw [nearestEven_neg, nearestEven_neg] at hneg
    exact neg_inj.mp hneg

end NearestEven

/-- A `double`: 53 digits. Its exponents are taken to be without end. -/
@[reducible] def binary64 : Rounding where
  fl := nearestEven 53
  mono := nearestEven_mono (by norm_num)
  fl_fl := nearestEven_nearestEven (by norm_num)
  fl_zero := (nearestEven_of_nonneg le_rfl).trans nearest_zero
  fl_one := by decide +kernel
  fl_pos x hx := by
    rw [nearestEven_of_nonneg hx.le]
    exact nearest_pos (by norm_num) hx

/-- 0.1 + 0.2 is the number after 0.3. -/
example : binary64.fl (binary64.fl (1 / 10) + binary64.fl (2 / 10)) = 5404319552844596 / 2 ^ 54 ∧
    binary64.fl (3 / 10) = 5404319552844595 / 2 ^ 54 := by
  decide +kernel

end Rounding

end ZeusPower.Library
