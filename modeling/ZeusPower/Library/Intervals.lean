import Mathlib.Algebra.BigOperators.Group.List.Basic
import Mathlib.Algebra.Order.Group.Basic
import Mathlib.Data.List.Sort
import Mathlib.Tactic.GCongr

/-! Disjoint intervals of a line.

A measure of intervals that is never negative and never gains by cutting gives the
disjoint parts of an interval no more than the whole (`sum_parts_le`), in whatever
order the parts are listed. A difference of two readings loses nothing either, so parts
that tile the whole add up to it (`sum_tiles`). The points that may be ends of
intervals are those of `D`. -/
namespace ZeusPower.Library.Intervals

variable {α K : Type*} [LinearOrder α]

/-- Two intervals that share no more than an end. -/
def Apart (p q : α × α) : Prop := p.2 ≤ q.1 ∨ q.2 ≤ p.1

theorem Apart.symm {p q : α × α} (h : Apart p q) : Apart q p := Or.symm h

section Superadditive
variable [AddCommMonoid K] [PartialOrder K] [IsOrderedAddMonoid K]

/-- A measure of the intervals with ends in `D` that does not gain by cutting. -/
structure Superadditive (D : α → Prop) (μ : α → α → K) : Prop where
  nonneg : ∀ i j, D i → D j → i ≤ j → 0 ≤ μ i j
  cut : ∀ i j k, D i → D j → D k → i ≤ j → j ≤ k → μ i j + μ j k ≤ μ i k

variable {D : α → Prop} {μ : α → α → K}

/-- Parts listed from left to right. -/
theorem Superadditive.sum_ordered_le (h : Superadditive D μ) {c : α} (hc : D c) :
    ∀ (parts : List (α × α)) {a : α}, D a → a ≤ c →
      (∀ p ∈ parts, D p.1 ∧ D p.2 ∧ p.1 ≤ p.2 ∧ a ≤ p.1 ∧ p.2 ≤ c) →
      parts.Pairwise (fun p q => p.2 ≤ q.1) → (parts.map fun p => μ p.1 p.2).sum ≤ μ a c := by
  intro parts
  induction parts with
  | nil =>
    intro a ha hac _ _
    exact h.nonneg a c ha hc hac
  | cons p rest ih =>
    intro a ha hac hparts hordered
    obtain ⟨hp1, hp2, hp, hap, hpc⟩ := hparts p List.mem_cons_self
    obtain ⟨hfirst, hrest⟩ := List.pairwise_cons.mp hordered
    have htail : (rest.map fun p => μ p.1 p.2).sum ≤ μ p.2 c := by
      refine ih hp2 hpc (fun q hq => ?_) hrest
      obtain ⟨hq1, hq2, hle, -, hqc⟩ := hparts q (List.mem_cons_of_mem p hq)
      exact ⟨hq1, hq2, hle, hfirst q hq, hqc⟩
    have hlead : μ p.1 p.2 ≤ μ a p.2 := by
      calc μ p.1 p.2 = 0 + μ p.1 p.2 := (zero_add _).symm
        _ ≤ μ a p.1 + μ p.1 p.2 := by gcongr; exact h.nonneg a p.1 ha hp1 hap
        _ ≤ μ a p.2 := h.cut a p.1 p.2 ha hp1 hp2 hap hp
    rw [List.map_cons, List.sum_cons]
    calc μ p.1 p.2 + (rest.map fun p => μ p.1 p.2).sum ≤ μ a p.2 + μ p.2 c := add_le_add hlead htail
      _ ≤ μ a c := h.cut a p.2 c ha hp2 hc (hap.trans hp) hpc

/-- **Parts never outweigh the whole**, in any order. -/
theorem Superadditive.sum_parts_le (h : Superadditive D μ) {parts : List (α × α)} {a c : α}
    (ha : D a) (hc : D c) (hac : a ≤ c)
    (hparts : ∀ p ∈ parts, D p.1 ∧ D p.2 ∧ p.1 < p.2 ∧ a ≤ p.1 ∧ p.2 ≤ c)
    (hapart : parts.Pairwise Apart) : (parts.map fun p => μ p.1 p.2).sum ≤ μ a c := by
  let sorted := parts.insertionSort fun p q => p.1 ≤ q.1
  have hperm : sorted.Perm parts := List.perm_insertionSort _ parts
  have hmem : ∀ p ∈ sorted, D p.1 ∧ D p.2 ∧ p.1 < p.2 ∧ a ≤ p.1 ∧ p.2 ≤ c :=
    fun p hp => hparts p (hperm.mem_iff.mp hp)
  have hstarts : sorted.Pairwise fun p q => p.1 ≤ q.1 := by
    have : IsTrans (α × α) fun p q => p.1 ≤ q.1 := ⟨fun _ _ _ => le_trans⟩
    have : Std.Total fun p q : α × α => p.1 ≤ q.1 := ⟨fun p q => le_total p.1 q.1⟩
    exact List.pairwise_insertionSort _ parts
  have hordered : sorted.Pairwise fun p q => p.2 ≤ q.1 := by
    refine (hstarts.and (hperm.symm.pairwise hapart Apart.symm)).imp_of_mem ?_
    intro p q _ hq hpq
    rcases hpq.2 with hpq' | hqp
    · exact hpq'
    · exact absurd (hpq.1.trans_lt (hmem q hq).2.2.1) hqp.not_gt
  rw [← (hperm.map fun p => μ p.1 p.2).sum_eq]
  exact h.sum_ordered_le hc sorted ha hac (fun p hp => by
    obtain ⟨h1, h2, hlt, hap, hpc⟩ := hmem p hp
    exact ⟨h1, h2, hlt.le, hap, hpc⟩) hordered

end Superadditive

/-! ### Differences of a reading -/

section Readings
variable [AddCommGroup K]

/-- From `a` to `c`, each part begins with the reading the last one ended with. -/
def Tiles (f : α → K) : α → List (α × α) → α → Prop
  | a, [], c => f a = f c
  | a, p :: rest, c => f a = f p.1 ∧ Tiles f p.2 rest c

omit [LinearOrder α] in
/-- Parts that tile the whole add up to it. -/
theorem sum_tiles {f : α → K} {parts : List (α × α)} {a c : α} (h : Tiles f a parts c) :
    (parts.map fun p => f p.2 - f p.1).sum = f c - f a := by
  induction parts generalizing a with
  | nil => rw [List.map_nil, List.sum_nil, show f a = f c from h, sub_self]
  | cons p rest ih =>
    obtain ⟨hstart, hrest⟩ := h
    rw [List.map_cons, List.sum_cons, ih hrest, hstart, add_comm, sub_add_sub_cancel]

/-- The difference of a reading that does not decrease is superadditive. -/
theorem superadditive_of_monotone [PartialOrder K] [IsOrderedAddMonoid K] {D : α → Prop} {f : α → K}
    (h : ∀ i j, D i → D j → i ≤ j → f i ≤ f j) : Superadditive D fun i j => f j - f i where
  nonneg := fun i j hi hj hij => sub_nonneg.mpr (h i j hi hj hij)
  cut := fun i j k _ _ _ _ _ => by
    rw [add_comm, sub_add_sub_cancel]

end Readings

end ZeusPower.Library.Intervals
