import Mathlib.Algebra.Order.Field.Basic
import Mathlib.Data.List.Nodup
import Mathlib.Order.Bounds.Defs
import Mathlib.Tactic.Linarith
import Mathlib.Tactic.Ring
import ZeusPower.Library.Rounding

/-! The trapezoidal rule on a list of samples.

A sample is a pair (time, value). `integral` sums one trapezoid for each pair of
neighbours, so it splits at any point of the list up to the one trapezoid that
bridges the two halves (`integral_append`). From that come the rectangle bounds
(`integral_lower`, `integral_upper`), and for the samples inside a window the
splitting law (`integral_within_split`): cutting a window in two loses the
trapezoid across the cut, or nothing if a sample stands at the cut.

`summed` is the loop of a program that adds the trapezoids up in rounded arithmetic, the
integral where nothing is rounded. It is positive as soon as two times differ
(`summed_pos_iff`), and samples that are repeated on the spot do not change it
(`summed_repeated`). -/
namespace ZeusPower.Library.Trapezoid

variable {K : Type*} [Field K] [LinearOrder K] [IsStrictOrderedRing K]

/-- The trapezoid between two samples. -/
def area (p q : K × K) : K := (q.2 + p.2) / 2 * (q.1 - p.1)

def integral : List (K × K) → K
  | p :: q :: rest => area p q + integral (q :: rest)
  | _ => 0

/-- The trapezoid between the last sample of one list and the first of the next. -/
def bridge (xs ys : List (K × K)) : K :=
  match xs.getLast?, ys.head? with
  | some p, some q => area p q
  | _, _ => 0

/-- Samples in order of time; neighbours may share a time. -/
def InOrder (l : List (K × K)) : Prop := l.Pairwise fun p q => p.1 ≤ q.1

omit [LinearOrder K] [IsStrictOrderedRing K] in
theorem integral_append (xs ys : List (K × K)) :
    integral (xs ++ ys) = integral xs + bridge xs ys + integral ys := by
  induction xs with
  | nil => simp [integral, bridge]
  | cons p xs ih =>
    cases xs with
    | nil => cases ys <;> simp [integral, bridge]
    | cons q xs =>
      have hbridge : bridge (p :: q :: xs) ys = bridge (q :: xs) ys := by
        simp only [bridge, List.getLast?_cons_cons]
      simp only [List.cons_append, integral] at ih ⊢
      rw [ih, hbridge]
      ring

theorem area_lower {p q : K × K} {lo : K} (h : p.1 ≤ q.1) (hp : lo ≤ p.2) (hq : lo ≤ q.2) :
    lo * (q.1 - p.1) ≤ area p q :=
  mul_le_mul_of_nonneg_right (by linarith) (by linarith)

theorem area_upper {p q : K × K} {hi : K} (h : p.1 ≤ q.1) (hp : p.2 ≤ hi) (hq : q.2 ≤ hi) :
    area p q ≤ hi * (q.1 - p.1) :=
  mul_le_mul_of_nonneg_right (by linarith) (by linarith)

/-! ### Rectangle bounds -/

/-- Values at least `lo` integrate to at least the rectangle of height `lo`. -/
theorem integral_lower {lo : K} (p : K × K) (rest : List (K × K)) (hs : InOrder (p :: rest))
    (h : ∀ q ∈ p :: rest, lo ≤ q.2) :
    lo * (((p :: rest).getLast (List.cons_ne_nil p rest)).1 - p.1) ≤ integral (p :: rest) := by
  induction rest generalizing p with
  | nil => simp [integral]
  | cons q rest ih =>
    obtain ⟨hp, hrest⟩ := List.pairwise_cons.mp hs
    have htail := ih q hrest fun r hr => h r (List.mem_cons_of_mem p hr)
    have hhead := area_lower (hp q List.mem_cons_self) (h p List.mem_cons_self)
      (h q (List.mem_cons_of_mem p List.mem_cons_self))
    rw [List.getLast_cons (List.cons_ne_nil q rest), integral]
    linarith

/-- Values at most `hi` integrate to at most the rectangle of height `hi`. -/
theorem integral_upper {hi : K} (p : K × K) (rest : List (K × K)) (hs : InOrder (p :: rest))
    (h : ∀ q ∈ p :: rest, q.2 ≤ hi) :
    integral (p :: rest) ≤ hi * (((p :: rest).getLast (List.cons_ne_nil p rest)).1 - p.1) := by
  induction rest generalizing p with
  | nil => simp [integral]
  | cons q rest ih =>
    obtain ⟨hp, hrest⟩ := List.pairwise_cons.mp hs
    have htail := ih q hrest fun r hr => h r (List.mem_cons_of_mem p hr)
    have hhead := area_upper (hp q List.mem_cons_self) (h p List.mem_cons_self)
      (h q (List.mem_cons_of_mem p List.mem_cons_self))
    rw [List.getLast_cons (List.cons_ne_nil q rest), integral]
    linarith

omit [Field K] [IsStrictOrderedRing K] in
theorem InOrder.head_le {p q : K × K} {rest : List (K × K)} (hs : InOrder (p :: rest))
    (hq : q ∈ p :: rest) : p.1 ≤ q.1 := by
  rcases List.mem_cons.mp hq with rfl | hq
  · exact le_refl _
  · exact (List.pairwise_cons.mp hs).1 q hq

omit [Field K] [IsStrictOrderedRing K] in
theorem InOrder.le_getLast {q : K × K} {l : List (K × K)} (hs : InOrder l) (hq : q ∈ l) :
    q.1 ≤ (l.getLast (List.ne_nil_of_mem hq)).1 := by
  induction l with
  | nil => cases hq
  | cons p rest ih =>
    obtain ⟨hp, hrest⟩ := List.pairwise_cons.mp hs
    cases rest with
    | nil =>
      obtain rfl := List.mem_singleton.mp hq
      exact le_refl _
    | cons r rest =>
      rw [List.getLast_cons (List.cons_ne_nil r rest)]
      rcases List.mem_cons.mp hq with rfl | hq
      · exact hp _ (List.getLast_mem _)
      · exact ih hrest hq

/-- The rectangles between the first time and the last bound the integral. -/
theorem integral_between {lo hi first last : K} {l : List (K × K)} (hs : InOrder l)
    (h : ∀ q ∈ l, lo ≤ q.2 ∧ q.2 ≤ hi) (hfirst : IsLeast {t | ∃ q ∈ l, q.1 = t} first)
    (hlast : IsGreatest {t | ∃ q ∈ l, q.1 = t} last) :
    lo * (last - first) ≤ integral l ∧ integral l ≤ hi * (last - first) := by
  cases l with
  | nil =>
    obtain ⟨q, hq, -⟩ := hfirst.1
    cases hq
  | cons p rest =>
    have hstart : first = p.1 := by
      obtain ⟨q, hq, htime⟩ := hfirst.1
      exact le_antisymm (hfirst.2 ⟨p, List.mem_cons_self, rfl⟩) (htime ▸ hs.head_le hq)
    have hend : last = ((p :: rest).getLast (List.cons_ne_nil p rest)).1 := by
      obtain ⟨q, hq, htime⟩ := hlast.1
      exact le_antisymm (htime ▸ hs.le_getLast hq) (hlast.2 ⟨_, List.getLast_mem _, rfl⟩)
    rw [hstart, hend]
    exact ⟨integral_lower p rest hs fun q hq => (h q hq).1,
      integral_upper p rest hs fun q hq => (h q hq).2⟩

/-- The rectangle between any two of the samples bounds the integral from below. -/
theorem le_integral_of_span {lo : K} {l : List (K × K)} (hs : InOrder l) (hlo : 0 ≤ lo)
    (h : ∀ q ∈ l, lo ≤ q.2) {p q : K × K} (hp : p ∈ l) (hq : q ∈ l) :
    lo * (q.1 - p.1) ≤ integral l := by
  cases l with
  | nil => cases hp
  | cons first rest =>
    have hspan : q.1 - p.1 ≤ ((first :: rest).getLast (List.cons_ne_nil first rest)).1 - first.1 :=
      sub_le_sub (hs.le_getLast hq) (hs.head_le hp)
    exact (mul_le_mul_of_nonneg_left hspan hlo).trans (integral_lower first rest hs h)

/-- A rectangle as wide as an interval that holds the samples bounds it from above. -/
theorem integral_le_of_within {hi a b : K} {l : List (K × K)} (hs : InOrder l) (hhi : 0 ≤ hi)
    (hab : a ≤ b) (htime : ∀ q ∈ l, a ≤ q.1 ∧ q.1 ≤ b) (h : ∀ q ∈ l, q.2 ≤ hi) :
    integral l ≤ hi * (b - a) := by
  cases l with
  | nil => exact mul_nonneg hhi (sub_nonneg.mpr hab)
  | cons first rest =>
    have hlast := (htime _ (List.getLast_mem (List.cons_ne_nil first rest))).2
    have hspan : ((first :: rest).getLast (List.cons_ne_nil first rest)).1 - first.1 ≤ b - a :=
      sub_le_sub hlast (htime first List.mem_cons_self).1
    exact (integral_upper first rest hs h).trans (mul_le_mul_of_nonneg_left hspan hhi)

theorem integral_nonneg {l : List (K × K)} (hs : InOrder l) (h : ∀ q ∈ l, 0 ≤ q.2) :
    0 ≤ integral l := by
  cases l with
  | nil => exact le_refl _
  | cons p rest => simpa using integral_lower p rest hs h

/-- Two samples or more, of distinct times and positive values, integrate to something. -/
theorem integral_pos {l : List (K × K)} (hs : l.Pairwise fun p q => p.1 < q.1) (h : ∀ q ∈ l, 0 < q.2)
    (htwo : 2 ≤ l.length) : 0 < integral l := by
  cases l with
  | nil => cases htwo
  | cons p l =>
    cases l with
    | nil =>
      rw [List.length_singleton] at htwo
      omega
    | cons q rest =>
      have hp := h p List.mem_cons_self
      have hq := h q (List.mem_cons_of_mem p List.mem_cons_self)
      have htime : p.1 < q.1 := (List.pairwise_cons.mp hs).1 q List.mem_cons_self
      have hrest : InOrder (q :: rest) := (List.pairwise_cons.mp hs).2.imp fun hlt => hlt.le
      have hlater := integral_nonneg hrest fun r hr => (h r (List.mem_cons_of_mem p hr)).le
      have hhead : 0 < area p q := mul_pos (by linarith) (by linarith)
      rw [integral]
      linarith

omit [Field K] [IsStrictOrderedRing K] in
/-- Samples of distinct times have one order of time. -/
theorem InOrder.unique {xs ys : List (K × K)} (hx : InOrder xs) (hy : InOrder ys) (hperm : xs.Perm ys)
    (hdistinct : (xs.map Prod.fst).Nodup) : xs = ys := by
  apply List.Perm.eq_of_pairwise _ hx hy hperm
  intro p q hp hq hpq hqp
  exact List.inj_on_of_nodup_map hdistinct hp (hperm.mem_iff.mpr hq) (le_antisymm hpq hqp)

omit [Field K] [IsStrictOrderedRing K] in
theorem InOrder.lt_of_nodup {l : List (K × K)} (hs : InOrder l) (hdistinct : (l.map Prod.fst).Nodup) :
    l.Pairwise fun p q => p.1 < q.1 := by
  have hne : l.Pairwise fun p q => p.1 ≠ q.1 := List.pairwise_map.mp hdistinct
  exact hs.imp₂ (fun _ _ hle hne => lt_of_le_of_ne hle hne) hne

/-- Samples that share one time integrate to nothing. -/
theorem integral_same_time {l : List (K × K)} {t : K} (h : ∀ q ∈ l, q.1 = t) : integral l = 0 := by
  induction l with
  | nil => rfl
  | cons p rest ih =>
    cases rest with
    | nil => rfl
    | cons q rest =>
      rw [integral, ih fun r hr => h r (List.mem_cons_of_mem p hr), area,
        h p List.mem_cons_self, h q (List.mem_cons_of_mem p List.mem_cons_self)]
      ring

theorem bridge_nonneg {xs ys : List (K × K)} (hs : InOrder (xs ++ ys))
    (h : ∀ q ∈ xs ++ ys, 0 ≤ q.2) : 0 ≤ bridge xs ys := by
  unfold bridge
  split
  next p q hp hq =>
    have hpmem : p ∈ xs := List.mem_of_getLast? hp
    have hqmem : q ∈ ys := List.mem_of_head? hq
    have htime : p.1 ≤ q.1 := (List.pairwise_append.mp hs).2.2 p hpmem q hqmem
    simpa using area_lower htime (h p (List.mem_append_left ys hpmem))
      (h q (List.mem_append_right xs hqmem))
  next => exact le_refl _

/-- Appending later samples cannot lower the integral. -/
theorem integral_prefix_le {xs ys : List (K × K)} (hpre : xs <+: ys) (hs : InOrder ys)
    (h : ∀ q ∈ ys, 0 ≤ q.2) : integral xs ≤ integral ys := by
  obtain ⟨zs, rfl⟩ := hpre
  have hrest : 0 ≤ integral zs :=
    integral_nonneg (List.pairwise_append.mp hs).2.1 fun q hq => h q (List.mem_append_right xs hq)
  have hbridge := bridge_nonneg hs h
  rw [integral_append]
  linarith

/-! ### Windows -/

/-- The samples whose time lies in `[a, b]`. -/
def within (a b : K) (l : List (K × K)) : List (K × K) :=
  l.filter fun p => decide (a ≤ p.1 ∧ p.1 ≤ b)

omit [Field K] [IsStrictOrderedRing K] in
theorem mem_within {a b : K} {l : List (K × K)} {p : K × K} :
    p ∈ within a b l ↔ p ∈ l ∧ a ≤ p.1 ∧ p.1 ≤ b := by
  simp [within]

omit [Field K] [IsStrictOrderedRing K] in
theorem InOrder.within {l : List (K × K)} (hs : InOrder l) (a b : K) :
    InOrder (within a b l) := List.Pairwise.filter _ hs

/-- The samples in `[a, b)`. -/
def sampledBefore (a b : K) (l : List (K × K)) : List (K × K) :=
  l.filter fun p => decide (a ≤ p.1 ∧ p.1 < b)

/-- The samples at `b`. -/
def sampledAt (b : K) (l : List (K × K)) : List (K × K) := l.filter fun p => decide (p.1 = b)

/-- The samples in `(b, c]`. -/
def sampledAfter (b c : K) (l : List (K × K)) : List (K × K) :=
  l.filter fun p => decide (b < p.1 ∧ p.1 ≤ c)

omit [Field K] [IsStrictOrderedRing K] in
/-- Samples in order, filtered by a time of two kinds, one of which comes before the other. -/
theorem filter_eq_append {l : List (K × K)} (hs : InOrder l) {P Q R : K → Prop} [DecidablePred P]
    [DecidablePred Q] [DecidablePred R] (hP : ∀ t, P t ↔ Q t ∨ R t) (hbefore : ∀ s t, Q s → R t → s < t) :
    l.filter (fun p => decide (P p.1)) =
      l.filter (fun p => decide (Q p.1)) ++ l.filter (fun p => decide (R p.1)) := by
  induction l with
  | nil => rfl
  | cons p rest ih =>
    obtain ⟨hp, hrest⟩ := List.pairwise_cons.mp hs
    have hsame := ih hrest
    by_cases hR : R p.1
    · have hQ : ¬ Q p.1 := fun hQ => absurd (hbefore p.1 p.1 hQ hR) (lt_irrefl _)
      have hnone : rest.filter (fun q => decide (Q q.1)) = [] := by
        apply List.filter_eq_nil_iff.mpr
        intro q hq hQq
        exact absurd (hbefore q.1 p.1 (of_decide_eq_true hQq) hR) (hp q hq).not_gt
      have hPp : P p.1 := (hP p.1).mpr (Or.inr hR)
      simp [hPp, hQ, hR, hsame, hnone]
    · by_cases hQ : Q p.1
      · have hPp : P p.1 := (hP p.1).mpr (Or.inl hQ)
        simp [hPp, hQ, hR, hsame]
      · have hPp : ¬ P p.1 := fun h => ((hP p.1).mp h).elim hQ hR
        simp [hPp, hQ, hR, hsame]

section Split
variable {a b c : K} {l : List (K × K)}

omit [Field K] [IsStrictOrderedRing K] in
theorem within_left (hs : InOrder l) (hab : a ≤ b) :
    within a b l = sampledBefore a b l ++ sampledAt b l := by
  apply filter_eq_append hs (P := fun t => a ≤ t ∧ t ≤ b) (Q := fun t => a ≤ t ∧ t < b)
    (R := fun t => t = b)
  · intro t
    grind
  · intro s t hbefore hat
    exact hbefore.2.trans_eq hat.symm

omit [Field K] [IsStrictOrderedRing K] in
theorem within_right (hs : InOrder l) (hbc : b ≤ c) :
    within b c l = sampledAt b l ++ sampledAfter b c l := by
  apply filter_eq_append hs (P := fun t => b ≤ t ∧ t ≤ c) (Q := fun t => t = b)
    (R := fun t => b < t ∧ t ≤ c)
  · intro t
    grind
  · intro s t hat hafter
    exact hat.trans_lt hafter.1

omit [Field K] [IsStrictOrderedRing K] in
theorem within_split (hs : InOrder l) (hab : a ≤ b) (hbc : b ≤ c) :
    within a c l = sampledBefore a b l ++ sampledAt b l ++ sampledAfter b c l := by
  rw [← within_left hs hab]
  apply filter_eq_append hs (P := fun t => a ≤ t ∧ t ≤ c) (Q := fun t => a ≤ t ∧ t ≤ b)
    (R := fun t => b < t ∧ t ≤ c)
  · intro t
    grind
  · intro s t hupto hafter
    exact hupto.2.trans_lt hafter.1

/-- What a cut at `b` loses: nothing if a sample stands at `b`, else the trapezoid
between the last sample before it and the first after it. -/
def straddle (a b c : K) (l : List (K × K)) : K :=
  if sampledAt b l = [] then bridge (sampledBefore a b l) (sampledAfter b c l) else 0

omit [IsStrictOrderedRing K] in
/-- Nothing is lost if a sample stands at the cut, or there is none on one side of it. -/
theorem straddle_eq_zero
    (h : sampledAt b l ≠ [] ∨ sampledBefore a b l = [] ∨ sampledAfter b c l = []) :
    straddle a b c l = 0 := by
  unfold straddle
  split
  next hnil =>
    rcases h with h | h | h
    · exact absurd hnil h
    · rw [h, bridge, List.getLast?_nil]
    · cases hlast : (sampledBefore a b l).getLast? with
      | none => rw [h, bridge, hlast]
      | some p => rw [h, bridge, hlast, List.head?_nil]
  next => rfl

omit [IsStrictOrderedRing K] in
/-- Otherwise the trapezoid across the cut is. -/
theorem straddle_eq_area (hnil : sampledAt b l = []) {p q : K × K}
    (hp : (sampledBefore a b l).getLast? = some p) (hq : (sampledAfter b c l).head? = some q) :
    straddle a b c l = area p q := by
  rw [straddle, if_pos hnil, bridge, hp, hq]

/-- **The splitting law.** -/
theorem integral_within_split (hs : InOrder l) (hab : a ≤ b) (hbc : b ≤ c) :
    integral (within a c l) =
      integral (within a b l) + integral (within b c l) + straddle a b c l := by
  rw [within_split hs hab hbc, within_left hs hab, within_right hs hbc, straddle]
  by_cases hat : sampledAt b l = []
  · rw [if_pos hat, hat, List.append_nil, List.nil_append, integral_append]
    ring
  · have hflat : integral (sampledAt b l) = 0 :=
      integral_same_time fun q hq => of_decide_eq_true (List.mem_filter.mp hq).2
    have hbridge : bridge (sampledBefore a b l ++ sampledAt b l) (sampledAfter b c l) =
        bridge (sampledAt b l) (sampledAfter b c l) := by
      simp only [bridge, List.getLast?_append_of_ne_nil _ hat]
    rw [if_neg hat, integral_append (sampledBefore a b l ++ sampledAt b l),
      integral_append (sampledAt b l) (sampledAfter b c l), hbridge, hflat]
    ring

theorem straddle_nonneg (hs : InOrder l) (h : ∀ q ∈ l, 0 ≤ q.2) :
    0 ≤ straddle a b c l := by
  unfold straddle
  split
  · refine bridge_nonneg ?_ ?_
    · rw [InOrder, List.pairwise_append]
      refine ⟨List.Pairwise.filter _ hs, List.Pairwise.filter _ hs, fun p hp q hq => ?_⟩
      have hpb := of_decide_eq_true (List.mem_filter.mp hp).2
      have hqb := of_decide_eq_true (List.mem_filter.mp hq).2
      exact (hpb.2.trans hqb.1).le
    · intro q hq
      rcases List.mem_append.mp hq with hq | hq
      · exact h q (List.mem_of_mem_filter hq)
      · exact h q (List.mem_of_mem_filter hq)
  · exact le_refl _

/-- Splitting a window of nonnegative samples can only lose. -/
theorem integral_within_superadditive (hs : InOrder l) (h : ∀ q ∈ l, 0 ≤ q.2) (hab : a ≤ b)
    (hbc : b ≤ c) : integral (within a b l) + integral (within b c l) ≤ integral (within a c l) := by
  have hloss := straddle_nonneg (a := a) (b := b) (c := c) hs h
  rw [integral_within_split hs hab hbc]
  linarith

end Split

omit [Field K] [IsStrictOrderedRing K] in
/-- A window of a window. -/
theorem within_within {a b c d : K} (hac : a ≤ c) (hdb : d ≤ b) (l : List (K × K)) :
    within c d (within a b l) = within c d l := by
  unfold within
  rw [List.filter_filter]
  apply List.filter_congr
  intro p _
  grind

theorem integral_within_nonneg {l : List (K × K)} (hs : InOrder l) (h : ∀ q ∈ l, 0 ≤ q.2) (a b : K) :
    0 ≤ integral (within a b l) :=
  integral_nonneg (hs.within a b) fun q hq => h q (mem_within.mp hq).1

/-- Samples that arrive later, in order, cannot lower a window's integral. -/
theorem integral_within_prefix_le {xs ys : List (K × K)} (hpre : xs <+: ys) (hs : InOrder ys)
    (h : ∀ q ∈ ys, 0 ≤ q.2) (a b : K) :
    integral (within a b xs) ≤ integral (within a b ys) :=
  integral_prefix_le (hpre.filter _) (hs.within a b) fun q hq => h q (mem_within.mp hq).1

omit [Field K] [IsStrictOrderedRing K] in
/-- Of samples that are not too early, the window has the first. -/
theorem within_initial {l : List (K × K)} {a : K} (hs : InOrder l) (hge : ∀ q ∈ l, a ≤ q.1) (b : K) :
    within a b l <+: l := by
  induction l with
  | nil => exact List.prefix_rfl
  | cons p rest ih =>
    obtain ⟨hp, hrest⟩ := List.pairwise_cons.mp hs
    have hrestge : ∀ q ∈ rest, a ≤ q.1 := fun q hq => hge q (List.mem_cons_of_mem p hq)
    unfold within at ih ⊢
    by_cases hb : p.1 ≤ b
    · rw [List.filter_cons_of_pos (by simpa using ⟨hge p List.mem_cons_self, hb⟩)]
      exact (List.prefix_cons_inj p).mpr (ih hrest hrestge)
    · -- Then the rest is too late as well.
      have hnone : (p :: rest).filter (fun q => decide (a ≤ q.1 ∧ q.1 ≤ b)) = [] := by
        refine List.filter_eq_nil_iff.mpr fun q hq hin => hb ?_
        exact (hs.head_le hq).trans (of_decide_eq_true hin).2
      rw [hnone]
      exact List.nil_prefix

omit [Field K] [IsStrictOrderedRing K] in
/-- The samples of a window stand together. -/
theorem within_infix {l : List (K × K)} (hs : InOrder l) (a b : K) : within a b l <:+: l := by
  induction l with
  | nil => exact List.infix_rfl
  | cons p rest ih =>
    obtain ⟨hp, hrest⟩ := List.pairwise_cons.mp hs
    by_cases ha : a ≤ p.1
    · exact (within_initial hs (fun q hq => ha.trans (hs.head_le hq)) b).isInfix
    · have hskip : within a b (p :: rest) = within a b rest :=
        List.filter_cons_of_neg (by simp [ha])
      rw [hskip]
      exact (ih hrest).trans (List.suffix_cons p rest).isInfix

/-! ### Repeated samples -/

/-- Every sample `k` times. -/
def repeated (k : ℕ) (l : List (K × K)) : List (K × K) := l.flatMap (List.replicate k)

omit [Field K] [LinearOrder K] [IsStrictOrderedRing K] in
theorem repeated_append (k : ℕ) (xs ys : List (K × K)) :
    repeated k (xs ++ ys) = repeated k xs ++ repeated k ys := List.flatMap_append

omit [Field K] [IsStrictOrderedRing K] in
theorem within_repeated (a b : K) (k : ℕ) (l : List (K × K)) :
    within a b (repeated k l) = repeated k (within a b l) := by
  induction l with
  | nil => rfl
  | cons p l ih =>
    have happend : repeated k (p :: l) = List.replicate k p ++ repeated k l := List.flatMap_cons
    unfold within at ih ⊢
    rw [happend, List.filter_append, ih, List.filter_replicate, List.filter_cons]
    split
    · rw [repeated, repeated, List.flatMap_cons]
    · rw [List.nil_append]

/-! ### In rounded arithmetic -/

section Rounded
variable [Rounding]

/-- The trapezoid between two samples, as a program computes it. -/
def roundedArea (p q : ℚ × ℚ) : ℚ := fl (fl (fl (q.2 + p.2) / 2) * fl (q.1 - p.1))

/-- The trapezoids of neighbours, added to a sum one after the other. -/
def summed (sum : ℚ) : List (ℚ × ℚ) → ℚ
  | p :: q :: rest => summed (fl (sum + roundedArea p q)) (q :: rest)
  | _ => sum

theorem roundedArea_eq [Exact] (p q : ℚ × ℚ) : roundedArea p q = area p q := by
  simp only [roundedArea, area, Exact.fl_eq]

theorem summed_eq [Exact] (sum : ℚ) (l : List (ℚ × ℚ)) : summed sum l = sum + integral l := by
  induction l generalizing sum with
  | nil => exact (add_zero sum).symm
  | cons p rest ih =>
    cases rest with
    | nil => exact (add_zero sum).symm
    | cons q rest => rw [summed, ih, integral, Exact.fl_eq, roundedArea_eq, add_assoc]

theorem roundedArea_nonneg {p q : ℚ × ℚ} (h : p.1 ≤ q.1) (hp : 0 ≤ p.2) (hq : 0 ≤ q.2) :
    0 ≤ roundedArea p q := by
  have hvalue : 0 ≤ fl (q.2 + p.2) := Rounding.fl_nonneg (add_nonneg hq hp)
  have htime : 0 ≤ fl (q.1 - p.1) := Rounding.fl_nonneg (sub_nonneg.mpr h)
  exact Rounding.fl_nonneg (mul_nonneg (Rounding.fl_nonneg (by linarith)) htime)

theorem roundedArea_pos {p q : ℚ × ℚ} (h : p.1 < q.1) (hp : 0 < p.2) (hq : 0 < q.2) :
    0 < roundedArea p q := by
  have hvalue : 0 < fl (q.2 + p.2) := Rounding.fl_pos _ (add_pos hq hp)
  have htime : 0 < fl (q.1 - p.1) := Rounding.fl_pos _ (sub_pos.mpr h)
  exact Rounding.fl_pos _ (mul_pos (Rounding.fl_pos _ (by linarith)) htime)

/-- Samples of one time have nothing between them. -/
theorem roundedArea_same_time {p q : ℚ × ℚ} (h : p.1 = q.1) : roundedArea p q = 0 := by
  rw [roundedArea, h, sub_self, Rounding.fl_zero, mul_zero, Rounding.fl_zero]

variable {l : List (ℚ × ℚ)} {sum : ℚ}

/-- Adding what is not negative does not lower a sum, rounded or not. -/
theorem le_summed (hsum : fl sum = sum) (hs : InOrder l) (h : ∀ q ∈ l, 0 ≤ q.2) : sum ≤ summed sum l := by
  induction l generalizing sum with
  | nil => exact le_refl _
  | cons p rest ih =>
    cases rest with
    | nil => exact le_refl _
    | cons q rest =>
      obtain ⟨hp, hrest⟩ := List.pairwise_cons.mp hs
      have harea := roundedArea_nonneg (hp q List.mem_cons_self) (h p List.mem_cons_self)
        (h q (List.mem_cons_of_mem p List.mem_cons_self))
      calc sum = fl sum := hsum.symm
        _ ≤ fl (sum + roundedArea p q) := Rounding.mono (le_add_of_nonneg_right harea)
        _ ≤ summed sum (p :: q :: rest) :=
          ih (Rounding.fl_fl _) hrest fun r hr => h r (List.mem_cons_of_mem p hr)

theorem summed_start_mono {sum' : ℚ} (hle : sum ≤ sum') : summed sum l ≤ summed sum' l := by
  induction l generalizing sum sum' with
  | nil => exact hle
  | cons p rest ih =>
    cases rest with
    | nil => exact hle
    | cons q rest => exact ih (Rounding.mono (add_le_add_left hle _))

/-- Samples before do not lower a sum. -/
theorem summed_suffix_le {xs : List (ℚ × ℚ)} (hsum : 0 ≤ sum) (hs : InOrder (xs ++ l))
    (h : ∀ q ∈ xs ++ l, 0 ≤ q.2) : summed 0 l ≤ summed sum (xs ++ l) := by
  induction xs generalizing sum with
  | nil => exact summed_start_mono hsum
  | cons p xs ih =>
    obtain ⟨hp, hrest⟩ := List.pairwise_cons.mp hs
    have hvalues : ∀ q ∈ xs ++ l, 0 ≤ q.2 := fun q hq => h q (List.mem_cons_of_mem p hq)
    cases hnext : xs ++ l with
    | nil =>
      obtain ⟨-, rfl⟩ := List.append_eq_nil_iff.mp hnext
      rw [List.cons_append, hnext]
      exact hsum
    | cons q rest =>
      have hq : q ∈ xs ++ l := hnext ▸ List.mem_cons_self
      have harea := roundedArea_nonneg (hp q hq) (h p List.mem_cons_self) (hvalues q hq)
      rw [List.cons_append, hnext, summed, ← hnext]
      exact ih (Rounding.fl_nonneg (add_nonneg hsum harea)) hrest hvalues

/-- Nor do samples after. -/
theorem summed_prefix_le {ys : List (ℚ × ℚ)} (hsum : fl sum = sum) (hs : InOrder (l ++ ys))
    (h : ∀ q ∈ l ++ ys, 0 ≤ q.2) : summed sum l ≤ summed sum (l ++ ys) := by
  induction l generalizing sum with
  | nil => exact le_summed hsum hs h
  | cons p rest ih =>
    obtain ⟨hp, hrest⟩ := List.pairwise_cons.mp hs
    have hvalues : ∀ q ∈ rest ++ ys, 0 ≤ q.2 := fun q hq => h q (List.mem_cons_of_mem p hq)
    cases rest with
    | nil => exact le_summed hsum hs h
    | cons q rest => exact ih (Rounding.fl_fl _) hrest hvalues

theorem summed_infix_le {xs : List (ℚ × ℚ)} (hblock : xs <:+: l) (hs : InOrder l)
    (h : ∀ q ∈ l, 0 ≤ q.2) : summed 0 xs ≤ summed 0 l := by
  obtain ⟨pre, post, rfl⟩ := hblock
  have hfirst : InOrder (pre ++ xs) := hs.sublist (List.sublist_append_left _ _)
  calc summed 0 xs ≤ summed 0 (pre ++ xs) :=
        summed_suffix_le le_rfl hfirst fun q hq => h q (List.mem_append_left _ hq)
    _ ≤ summed 0 (pre ++ xs ++ post) := summed_prefix_le Rounding.fl_zero hs h

/-- Of a window inside another, over samples that are among the first, no more is summed. -/
theorem summed_within_le {xs ys : List (ℚ × ℚ)} {a b c d : ℚ} (hpre : xs <+: ys) (hac : a ≤ c)
    (hdb : d ≤ b) (hs : InOrder ys) (h : ∀ q ∈ ys, 0 ≤ q.2) :
    summed 0 (within c d xs) ≤ summed 0 (within a b ys) := by
  have hblock : within c d xs <:+: within a b ys := by
    have hinner : within c d ys <:+: within a b ys := by
      rw [← within_within hac hdb ys]
      exact within_infix (hs.within a b) c d
    exact (hpre.filter _).isInfix.trans hinner
  exact summed_infix_le hblock (hs.within a b) fun q hq => h q (mem_within.mp hq).1

theorem summed_same_time {t : ℚ} (hsum : fl sum = sum) (h : ∀ q ∈ l, q.1 = t) : summed sum l = sum := by
  induction l with
  | nil => rfl
  | cons p rest ih =>
    cases rest with
    | nil => rfl
    | cons q rest =>
      have hsame : p.1 = q.1 :=
        (h p List.mem_cons_self).trans (h q (List.mem_cons_of_mem p List.mem_cons_self)).symm
      rw [summed, roundedArea_same_time hsame, add_zero, hsum]
      exact ih fun r hr => h r (List.mem_cons_of_mem p hr)

/-- Samples of positive values sum to something as soon as two times differ. -/
theorem summed_pos_iff (hs : InOrder l) (h : ∀ q ∈ l, 0 < q.2) :
    0 < summed 0 l ↔ ∃ p ∈ l, ∃ q ∈ l, p.1 < q.1 := by
  constructor
  · intro hpos
    by_contra hnone
    have hsame : ∀ p ∈ l, ∀ q ∈ l, p.1 = q.1 := by
      intro p hp q hq
      apply le_antisymm
      · exact not_lt.mp fun hlt => hnone ⟨q, hq, p, hp, hlt⟩
      · exact not_lt.mp fun hlt => hnone ⟨p, hp, q, hq, hlt⟩
    cases l with
    | nil => exact absurd hpos (lt_irrefl 0)
    | cons first rest =>
      rw [summed_same_time Rounding.fl_zero fun q hq => hsame q hq first List.mem_cons_self] at hpos
      exact absurd hpos (lt_irrefl 0)
  · intro ⟨p, hp, q, hq, hlt⟩
    induction l generalizing p with
    | nil => cases hp
    | cons first rest ih =>
      obtain ⟨hfirst, hrest⟩ := List.pairwise_cons.mp hs
      have hvalues : ∀ r ∈ rest, 0 < r.2 := fun r hr => h r (List.mem_cons_of_mem first hr)
      cases rest with
      | nil =>
        obtain rfl := List.mem_singleton.mp hp
        obtain rfl := List.mem_singleton.mp hq
        exact absurd hlt (lt_irrefl _)
      | cons second rest =>
        rw [summed, zero_add]
        rcases (hfirst second List.mem_cons_self).lt_or_eq with hgrows | hties
        · have harea := roundedArea_pos hgrows (h first List.mem_cons_self) (hvalues second List.mem_cons_self)
          exact (Rounding.fl_pos _ harea).trans_le
            (le_summed (Rounding.fl_fl _) hrest fun r hr => (hvalues r hr).le)
        · -- The first two share a time, so the later one can stand for the earlier.
          have hqrest : q ∈ second :: rest := by
            refine (List.mem_cons.mp hq).resolve_left fun heq => ?_
            have hle := hs.head_le hp
            rw [← heq] at hle
            exact absurd hlt hle.not_gt
          have hbefore : ∃ r ∈ second :: rest, r.1 < q.1 := by
            rcases List.mem_cons.mp hp with rfl | hp
            · exact ⟨second, List.mem_cons_self, hties ▸ hlt⟩
            · exact ⟨p, hp, hlt⟩
          obtain ⟨r, hr, hrq⟩ := hbefore
          rw [roundedArea_same_time hties, Rounding.fl_zero]
          exact ih hrest hvalues r hr hqrest hrq

/-- A sample adds nothing by being repeated on the spot. -/
theorem summed_replicate (hsum : fl sum = sum) (k : ℕ) (p : ℚ × ℚ) (l : List (ℚ × ℚ)) :
    summed sum (List.replicate (k + 1) p ++ l) = summed sum (p :: l) := by
  induction k with
  | zero => rfl
  | succ k ih =>
    show summed (fl (sum + roundedArea p p)) (List.replicate (k + 1) p ++ l) = summed sum (p :: l)
    rw [roundedArea_same_time rfl, add_zero, hsum, ih]

/-- Repeating every sample leaves the sum as it is. -/
theorem summed_repeated {k : ℕ} (hk : k ≠ 0) (hsum : fl sum = sum) (l : List (ℚ × ℚ)) :
    summed sum (repeated k l) = summed sum l := by
  obtain ⟨k, rfl⟩ := Nat.exists_eq_succ_of_ne_zero hk
  induction l generalizing sum with
  | nil => rfl
  | cons p l ih =>
    have happend : repeated (k + 1) (p :: l) = List.replicate (k + 1) p ++ repeated (k + 1) l :=
      List.flatMap_cons
    rw [happend, summed_replicate hsum]
    cases l with
    | nil => rfl
    | cons q l =>
      have hnext : repeated (k + 1) (q :: l) = q :: (List.replicate k q ++ repeated (k + 1) l) :=
        List.flatMap_cons
      have hlater := ih (Rounding.fl_fl (sum + roundedArea p q))
      rw [hnext] at hlater ⊢
      rw [summed, summed, hlater]

end Rounded

end ZeusPower.Library.Trapezoid
