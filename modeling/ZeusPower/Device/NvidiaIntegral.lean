import Mathlib.Data.Finset.Card
import ZeusPower.Device.NvidiaSetup

/-! What the integrator makes of a sample vector.

Sorting commutes with the filter (`sortTimeline_within`) and forgets the order of
arrival (`sortTimeline_perm`), so the integral depends on the GPU's own samples in the
window alone, and obeys the laws of the trapezoidal rule: a window split in two loses the
trapezoid across the cut (`integral_split`), and the extreme rectangles bound it
(`integral_own_samples`). The polling thread pushes positive powers only
(`Positive`), so the test for an empty integral finds exactly the windows with nothing to
integrate (`fallback_iff`). -/
namespace ZeusPower.Device
open Library

namespace NvidiaGpuBackend

/-! ### One timeline for one multiset of samples -/

theorem pairLe_antisymm {p q : Double × Double} (hpq : pairLe p q) (hqp : pairLe q p) : p = q := by
  have htime : p.1 = q.1 := le_antisymm (pairLe_time hpq) (pairLe_time hqp)
  have hvalue : ∀ {p q : Double × Double}, p.1 = q.1 → pairLe p q → p.2 ≤ q.2 := by
    intro p q htime h
    rcases h with h | ⟨-, h⟩
    · exact absurd htime h.ne
    · exact h
  exact Prod.ext htime (le_antisymm (hvalue htime hpq) (hvalue htime.symm hqp))

theorem sortTimeline_perm_self (timeline : List (Double × Double)) :
    (sortTimeline timeline).Perm timeline := List.perm_insertionSort pairLe timeline

theorem sorted_unique {xs ys : List (Double × Double)} (hx : xs.Pairwise pairLe)
    (hy : ys.Pairwise pairLe) (h : xs.Perm ys) : xs = ys :=
  h.eq_of_pairwise (fun _ _ _ _ => pairLe_antisymm) hx hy

/-- The order of arrival is forgotten. -/
theorem sortTimeline_perm {xs ys : List (Double × Double)} (h : xs.Perm ys) :
    sortTimeline xs = sortTimeline ys :=
  sorted_unique (List.pairwise_insertionSort pairLe xs) (List.pairwise_insertionSort pairLe ys)
    ((sortTimeline_perm_self xs).trans (h.trans (sortTimeline_perm_self ys).symm))

/-- Filtering a window and sorting commute. -/
theorem sortTimeline_within (a b : Double) (timeline : List (Double × Double)) :
    sortTimeline (Trapezoid.within a b timeline) = Trapezoid.within a b (sortTimeline timeline) := by
  apply sorted_unique (List.pairwise_insertionSort pairLe _)
  · exact (List.pairwise_insertionSort pairLe timeline).filter _
  · exact (sortTimeline_perm_self _).trans ((sortTimeline_perm_self timeline).symm.filter _)

/-- The GPU's samples, all of them, in order. -/
def sortedSamples (b : NvidiaGpuBackend) (g : Int) : List (Double × Double) :=
  sortTimeline (samplesOf b.samples g)

theorem sortedSamples_inOrder (b : NvidiaGpuBackend) (g : Int) : Trapezoid.InOrder (b.sortedSamples g) :=
  sortTimeline_inOrder _

theorem sorted_timeline_eq (b : NvidiaGpuBackend) (g : Int) (startTime endTime : Double) :
    sortTimeline (b.timeline g startTime endTime) =
      Trapezoid.within startTime endTime (b.sortedSamples g) := by
  rw [timeline_eq_within, sortTimeline_within, sortedSamples]

/-- The integrator sums over a window of one sorted list. -/
theorem computeEnergyFromSamples_within [Rounding] (b : NvidiaGpuBackend) (g : Int) (startTime endTime : Double) :
    b.computeEnergyFromSamples g startTime endTime =
      Trapezoid.summed 0 (Trapezoid.within startTime endTime (b.sortedSamples g)) := by
  rw [computeEnergyFromSamples_eq, sorted_timeline_eq]

theorem mem_sortedSamples {b : NvidiaGpuBackend} {g : Int} {p : Double × Double} :
    p ∈ b.sortedSamples g ↔ ⟨p.1, g, p.2⟩ ∈ b.samples := by
  rw [sortedSamples, mem_sortTimeline, mem_samplesOf]

/-! ### Splitting a window -/

/-- The GPU has a sample at a time of the kind `P`. -/
def Sampled (b : NvidiaGpuBackend) (g : Int) (P : Double → Prop) : Prop :=
  ∃ s ∈ b.samples, s.gpuIndex = g ∧ P s.timestamp

/-- A cut between two samples: none stands at it, and there are some on both sides. -/
structure Straddled (b : NvidiaGpuBackend) (g : Int) (startTime cut endTime : Double) : Prop where
  nothingAt : ¬ b.Sampled g fun t => t = cut
  before : b.Sampled g fun t => startTime ≤ t ∧ t < cut
  after : b.Sampled g fun t => cut < t ∧ t ≤ endTime

section Split
variable {b : NvidiaGpuBackend} {g : Int} {startTime cut endTime : Double}

theorem filter_sorted_eq_nil (P : Double → Prop) [DecidablePred P] :
    (b.sortedSamples g).filter (fun p => decide (P p.1)) = [] ↔ ¬ b.Sampled g P := by
  rw [List.filter_eq_nil_iff]
  constructor
  · intro hnone ⟨s, hs, hg, ht⟩
    subst hg
    exact hnone (s.timestamp, s.powerW) (mem_sortedSamples.mpr hs) (decide_eq_true ht)
  · intro hnone p hp ht
    exact hnone ⟨_, mem_sortedSamples.mp hp, rfl, of_decide_eq_true ht⟩

theorem sampledAt_eq_nil :
    Trapezoid.sampledAt cut (b.sortedSamples g) = [] ↔ ¬ b.Sampled g fun t => t = cut :=
  filter_sorted_eq_nil fun t => t = cut

theorem sampledBefore_eq_nil :
    Trapezoid.sampledBefore startTime cut (b.sortedSamples g) = [] ↔
      ¬ b.Sampled g fun t => startTime ≤ t ∧ t < cut :=
  filter_sorted_eq_nil fun t => startTime ≤ t ∧ t < cut

theorem sampledAfter_eq_nil :
    Trapezoid.sampledAfter cut endTime (b.sortedSamples g) = [] ↔
      ¬ b.Sampled g fun t => cut < t ∧ t ≤ endTime :=
  filter_sorted_eq_nil fun t => cut < t ∧ t ≤ endTime

/-- What stands before the cut in the window's timeline is what was sampled before it. -/
theorem before_cut (hcut : cut ≤ endTime) :
    (sortTimeline (b.timeline g startTime endTime)).filter (fun p => decide (p.1 < cut)) =
      Trapezoid.sampledBefore startTime cut (b.sortedSamples g) := by
  rw [sorted_timeline_eq, Trapezoid.within, Trapezoid.sampledBefore, List.filter_filter]
  apply List.filter_congr
  intro p _
  grind

theorem after_cut (hcut : startTime ≤ cut) :
    (sortTimeline (b.timeline g startTime endTime)).filter (fun p => decide (cut < p.1)) =
      Trapezoid.sampledAfter cut endTime (b.sortedSamples g) := by
  rw [sorted_timeline_eq, Trapezoid.within, Trapezoid.sampledAfter, List.filter_filter]
  apply List.filter_congr
  intro p _
  grind

theorem split_flush [Rounding] [Exact] (hstart : startTime ≤ cut) (hend : cut ≤ endTime)
    (h : ¬ b.Straddled g startTime cut endTime) :
    b.computeEnergyFromSamples g startTime endTime =
      b.computeEnergyFromSamples g startTime cut + b.computeEnergyFromSamples g cut endTime := by
  have hnone : Trapezoid.straddle startTime cut endTime (b.sortedSamples g) = 0 := by
    apply Trapezoid.straddle_eq_zero
    rw [Ne, sampledAt_eq_nil, sampledBefore_eq_nil, sampledAfter_eq_nil, not_not]
    by_contra hall
    simp only [not_or, not_not] at hall
    exact h ⟨hall.1, hall.2.1, hall.2.2⟩
  simp only [computeEnergyFromSamples_within, Trapezoid.summed_eq, zero_add]
  rw [Trapezoid.integral_within_split (sortedSamples_inOrder b g) hstart hend, hnone, add_zero]

theorem split_across [Rounding] [Exact] (hstart : startTime ≤ cut) (hend : cut ≤ endTime)
    (h : b.Straddled g startTime cut endTime) :
    ∃ p q, ((sortTimeline (b.timeline g startTime endTime)).filter
          fun p => decide (p.1 < cut)).getLast? = some p ∧
      ((sortTimeline (b.timeline g startTime endTime)).filter
          fun p => decide (cut < p.1)).head? = some q ∧
      b.computeEnergyFromSamples g startTime endTime =
        b.computeEnergyFromSamples g startTime cut + b.computeEnergyFromSamples g cut endTime +
          (q.2 + p.2) / 2 * (q.1 - p.1) := by
  have hleft : Trapezoid.sampledBefore startTime cut (b.sortedSamples g) ≠ [] := fun hnil =>
    sampledBefore_eq_nil.mp hnil h.before
  have hright : Trapezoid.sampledAfter cut endTime (b.sortedSamples g) ≠ [] := fun hnil =>
    sampledAfter_eq_nil.mp hnil h.after
  have hlast := List.getLast?_eq_some_getLast hleft
  have hfirst := List.head?_eq_some_head hright
  rw [before_cut hend, after_cut hstart]
  refine ⟨_, _, hlast, hfirst, ?_⟩
  simp only [computeEnergyFromSamples_within, Trapezoid.summed_eq, zero_add]
  rw [Trapezoid.integral_within_split (sortedSamples_inOrder b g) hstart hend,
    Trapezoid.straddle_eq_area (sampledAt_eq_nil.mpr h.nothingAt) hlast hfirst]
  rfl

theorem split_loss [Rounding] [Exact] (hstart : startTime ≤ cut) (hend : cut ≤ endTime)
    (hpower : ∀ s ∈ b.samples, s.gpuIndex = g → startTime ≤ s.timestamp → s.timestamp ≤ endTime →
      0 ≤ s.powerW) :
    b.computeEnergyFromSamples g startTime cut + b.computeEnergyFromSamples g cut endTime ≤
      b.computeEnergyFromSamples g startTime endTime := by
  have hvalues : ∀ p ∈ Trapezoid.within startTime endTime (b.sortedSamples g), 0 ≤ p.2 := by
    intro p hp
    obtain ⟨hmem, hafter, hbefore⟩ := Trapezoid.mem_within.mp hp
    exact hpower _ (mem_sortedSamples.mp hmem) rfl hafter hbefore
  have hlaw := Trapezoid.integral_within_superadditive ((sortedSamples_inOrder b g).within startTime endTime) hvalues
    hstart hend
  simp only [computeEnergyFromSamples_within, Trapezoid.summed_eq, zero_add]
  rwa [Trapezoid.within_within (le_refl _) hend, Trapezoid.within_within hstart (le_refl _),
    Trapezoid.within_within (le_refl _) (le_refl _)] at hlaw

/-- **Splitting a window.** In exact arithmetic two halves add up to the whole when a
sample stands at the cut or one side of it has none; otherwise they lack the trapezoid
between the last sample before the cut and the first after it. Without negative powers
they are never more than the whole. -/
theorem integral_split [Rounding] [Exact] (b : NvidiaGpuBackend) (g : Int) (hstart : startTime ≤ cut)
    (hend : cut ≤ endTime) :
    ((b.Sampled g (fun t => t = cut) ∨ ¬ b.Sampled g (fun t => startTime ≤ t ∧ t < cut) ∨
          ¬ b.Sampled g fun t => cut < t ∧ t ≤ endTime) →
        b.computeEnergyFromSamples g startTime endTime =
          b.computeEnergyFromSamples g startTime cut + b.computeEnergyFromSamples g cut endTime) ∧
      (b.Straddled g startTime cut endTime →
        ∃ p q, ((sortTimeline (b.timeline g startTime endTime)).filter
              fun p => decide (p.1 < cut)).getLast? = some p ∧
          ((sortTimeline (b.timeline g startTime endTime)).filter
              fun p => decide (cut < p.1)).head? = some q ∧
          b.computeEnergyFromSamples g startTime endTime =
            b.computeEnergyFromSamples g startTime cut + b.computeEnergyFromSamples g cut endTime +
              (q.2 + p.2) / 2 * (q.1 - p.1)) ∧
      ((∀ s ∈ b.samples, s.gpuIndex = g → startTime ≤ s.timestamp → s.timestamp ≤ endTime →
          0 ≤ s.powerW) →
        b.computeEnergyFromSamples g startTime cut + b.computeEnergyFromSamples g cut endTime ≤
          b.computeEnergyFromSamples g startTime endTime) := by
  refine ⟨fun hflush => split_flush hstart hend fun h => ?_, split_across hstart hend,
    split_loss hstart hend⟩
  rcases hflush with hat | hbefore | hafter
  · exact h.nothingAt hat
  · exact hbefore h.before
  · exact hafter h.after

/-- Five samples, the third of them at 1.5 s. -/
def unevenPowers : NvidiaGpuBackend :=
  polledWith [⟨Rounding.binary64.fl (1 / 10), 0, 114⟩, ⟨Rounding.binary64.fl (7 / 10), 0, 146⟩,
    ⟨3 / 2, 0, 133⟩, ⟨Rounding.binary64.fl (23 / 10), 0, 139⟩, ⟨3, 0, 169⟩]

attribute [local instance] Rounding.binary64 in
/-- **Doubles gain by a split.** A sample stands at the cut, and the halves add up to
406.20000000000005 J, where the whole is 406.2 J. -/
theorem halves_gain :
    ¬ ∀ (b : NvidiaGpuBackend) (g : Int) (startTime cut endTime : Double), startTime ≤ cut → cut ≤ endTime →
      (b.Sampled g (fun t => t = cut) ∨ ¬ b.Sampled g (fun t => startTime ≤ t ∧ t < cut) ∨
        ¬ b.Sampled g fun t => cut < t ∧ t ≤ endTime) →
      b.computeEnergyFromSamples g startTime endTime =
        b.computeEnergyFromSamples g startTime cut + b.computeEnergyFromSamples g cut endTime := by
  intro hclaim
  have hat : unevenPowers.Sampled 0 fun t => t = 3 / 2 := ⟨⟨3 / 2, 0, 133⟩, by decide +kernel, rfl, rfl⟩
  have hlaw := hclaim unevenPowers 0 0 (3 / 2) 3 (by norm_num) (by norm_num) (Or.inl hat)
  have hgain : unevenPowers.computeEnergyFromSamples 0 0 3 <
      unevenPowers.computeEnergyFromSamples 0 0 (3 / 2) + unevenPowers.computeEnergyFromSamples 0 (3 / 2) 3 := by
    decide +kernel
  exact absurd hlaw hgain.ne

attribute [local instance] Rounding.exact Rounding.exact_exact in
/-- 335 J in one window, and 165 J and no energy in its halves: the cut loses 170 J. -/
theorem integral_split_sample :
    (∃ p q, ((sortTimeline (samplePolled.timeline 0 1 3)).filter
          fun p => decide (p.1 < 5 / 2)).getLast? = some p ∧
      ((sortTimeline (samplePolled.timeline 0 1 3)).filter
          fun p => decide (5 / 2 < p.1)).head? = some q ∧
      samplePolled.computeEnergyFromSamples 0 1 3 =
        samplePolled.computeEnergyFromSamples 0 1 (5 / 2) +
          samplePolled.computeEnergyFromSamples 0 (5 / 2) 3 + (q.2 + p.2) / 2 * (q.1 - p.1)) ∧
      samplePolled.computeEnergyFromSamples 0 1 3 = 335 ∧
      samplePolled.computeEnergyFromSamples 0 1 (5 / 2) = 165 ∧
      samplePolled.computeEnergyFromSamples 0 (5 / 2) 3 = 0 := by
  have hcut : samplePolled.Straddled 0 1 (5 / 2) 3 := by
    refine ⟨?_, ⟨⟨1, 0, 150⟩, by decide, rfl, by norm_num⟩, ⟨⟨3, 0, 160⟩, by decide, rfl, by norm_num⟩⟩
    intro ⟨s, hs, _, ht⟩
    have hother : ∀ s ∈ samplePolled.samples, s.timestamp ≠ 5 / 2 := by decide +kernel
    exact hother s hs ht
  exact ⟨(integral_split samplePolled 0 (show (1 : Double) ≤ 5 / 2 by norm_num)
    (show (5 / 2 : Double) ≤ 3 by norm_num)).2.1 hcut, by decide +kernel, by decide +kernel, by decide +kernel⟩

end Split

/-! ### The GPU's own samples -/

/-- A sample of the GPU whose timestamp lies in the window. -/
def Own (g : Int) (startTime endTime : Double) (s : PowerSample) : Prop :=
  s.gpuIndex = g ∧ startTime ≤ s.timestamp ∧ s.timestamp ≤ endTime

instance (g : Int) (startTime endTime : Double) : DecidablePred (Own g startTime endTime) := fun s =>
  inferInstanceAs (Decidable (s.gpuIndex = g ∧ startTime ≤ s.timestamp ∧ s.timestamp ≤ endTime))

section Own
variable {b : NvidiaGpuBackend} {g : Int} {startTime endTime : Double}

theorem timeline_eq_own (b : NvidiaGpuBackend) (g : Int) (startTime endTime : Double) :
    b.timeline g startTime endTime =
      (b.samples.filter fun s => decide (Own g startTime endTime s)).map
        fun s => (s.timestamp, s.powerW) := by
  unfold timeline
  induction b.samples with
  | nil => rfl
  | cons s rest ih =>
    rw [List.filterMap_cons, List.filter_cons, ih]
    by_cases hown : Own g startTime endTime s
    · rw [if_pos (show s.gpuIndex = g ∧ startTime ≤ s.timestamp ∧ s.timestamp ≤ endTime from hown),
        if_pos (decide_eq_true hown), List.map_cons]
    · rw [if_neg (show ¬ (s.gpuIndex = g ∧ startTime ≤ s.timestamp ∧ s.timestamp ≤ endTime) from hown),
        if_neg (by simpa using hown)]

/-- Backends that hold the same samples of the GPU in the window agree on its energy. -/
theorem computeEnergyFromSamples_own [Rounding] {b' : NvidiaGpuBackend}
    (h : (b'.samples.filter fun s => decide (Own g startTime endTime s)).Perm
      (b.samples.filter fun s => decide (Own g startTime endTime s))) :
    b'.computeEnergyFromSamples g startTime endTime = b.computeEnergyFromSamples g startTime endTime := by
  simp only [computeEnergyFromSamples_eq, timeline_eq_own]
  rw [sortTimeline_perm (h.map _)]

theorem own_times : {t | ∃ q ∈ sortTimeline (b.timeline g startTime endTime), q.1 = t} =
    {t | ∃ s ∈ b.samples, Own g startTime endTime s ∧ s.timestamp = t} := by
  ext t
  constructor
  · intro ⟨q, hq, ht⟩
    obtain ⟨hmem, hrange⟩ := (mem_sorted_timeline q).mp hq
    exact ⟨_, hmem, ⟨rfl, hrange⟩, ht⟩
  · intro ⟨s, hs, hown, ht⟩
    exact ⟨_, sorted_timeline_of_sample hs hown.1 hown.2.1 hown.2.2, ht⟩

/-- **The integrator sees a multiset.** Neither the order of the samples counts, nor the
samples of other GPUs or outside the window; and in exact arithmetic the energy is between
the rectangles of the extreme powers over the GPU's first and last sample in the window. -/
theorem integral_own_samples [Rounding] (b : NvidiaGpuBackend) (g : Int) (startTime endTime : Double) :
    (∀ b' : NvidiaGpuBackend, b'.samples.Perm b.samples →
      b'.computeEnergyFromSamples g startTime endTime = b.computeEnergyFromSamples g startTime endTime) ∧
    (∀ (b' : NvidiaGpuBackend) (before others after : List PowerSample),
      b.samples = before ++ after → b'.samples = before ++ others ++ after →
      (∀ s ∈ others, ¬ Own g startTime endTime s) →
      b'.computeEnergyFromSamples g startTime endTime = b.computeEnergyFromSamples g startTime endTime) ∧
    (∀ b' : NvidiaGpuBackend,
      (∀ s, Own g startTime endTime s → b'.samples.count s = b.samples.count s) →
      b'.computeEnergyFromSamples g startTime endTime = b.computeEnergyFromSamples g startTime endTime) ∧
    (Exact → ∀ lo hi first last : Double,
      (∀ s ∈ b.samples, Own g startTime endTime s → lo ≤ s.powerW ∧ s.powerW ≤ hi) →
      IsLeast {t | ∃ s ∈ b.samples, Own g startTime endTime s ∧ s.timestamp = t} first →
      IsGreatest {t | ∃ s ∈ b.samples, Own g startTime endTime s ∧ s.timestamp = t} last →
      lo * (last - first) ≤ b.computeEnergyFromSamples g startTime endTime ∧
        b.computeEnergyFromSamples g startTime endTime ≤ hi * (last - first)) ∧
    ((b.samples.filter fun s => decide (Own g startTime endTime s)).length < 2 →
      b.computeEnergyFromSamples g startTime endTime = 0) := by
  refine ⟨?order, ?others, ?multiset, ?rectangles, ?short⟩
  case order =>
    intro b' h
    exact computeEnergyFromSamples_own (h.filter _)
  case others =>
    intro b' before others after hb hb' hothers
    apply computeEnergyFromSamples_own
    have hnone : others.filter (fun s => decide (Own g startTime endTime s)) = [] :=
      List.filter_eq_nil_iff.mpr fun s hs => by simpa using hothers s hs
    rw [hb, hb', List.filter_append, List.filter_append, List.filter_append, hnone, List.append_nil]
  case multiset =>
    intro b' h
    apply computeEnergyFromSamples_own
    apply List.perm_iff_count.mpr
    intro s
    by_cases hown : Own g startTime endTime s
    · have hall : ∀ samples : List PowerSample,
          (samples.filter fun s => decide (Own g startTime endTime s)).count s = samples.count s :=
        fun samples => List.count_filter (p := fun s => decide (Own g startTime endTime s)) (by simpa using hown)
      rw [hall, hall, h s hown]
    · have hnone : ∀ samples : List PowerSample,
          (samples.filter fun s => decide (Own g startTime endTime s)).count s = 0 := fun samples =>
        List.count_eq_zero.mpr fun hs => hown (of_decide_eq_true (List.mem_filter.mp hs).2)
      rw [hnone, hnone]
  case rectangles =>
    intro _ lo hi first last hpower hfirst hlast
    rw [← own_times] at hfirst hlast
    rw [computeEnergyFromSamples_integral]
    apply Trapezoid.integral_between (sortTimeline_inOrder _) _ hfirst hlast
    intro q hq
    obtain ⟨hmem, hrange⟩ := (mem_sorted_timeline q).mp hq
    exact hpower _ hmem ⟨rfl, hrange⟩
  case short =>
    intro hshort
    unfold computeEnergyFromSamples
    rw [timeline_eq_own]
    exact if_pos (by rwa [List.length_map])

attribute [local instance] Rounding.binary64 in
/-- **Doubles leave the rectangle.** Nine samples of 150 W over `last - first` seconds. -/
theorem tenths_past_rectangle :
    ¬ ∀ (b : NvidiaGpuBackend) (g : Int) (startTime endTime lo hi first last : Double),
      (∀ s ∈ b.samples, Own g startTime endTime s → lo ≤ s.powerW ∧ s.powerW ≤ hi) →
      IsLeast {t | ∃ s ∈ b.samples, Own g startTime endTime s ∧ s.timestamp = t} first →
      IsGreatest {t | ∃ s ∈ b.samples, Own g startTime endTime s ∧ s.timestamp = t} last →
      lo * (last - first) ≤ b.computeEnergyFromSamples g startTime endTime ∧
        b.computeEnergyFromSamples g startTime endTime ≤ hi * (last - first) := by
  intro hclaim
  have hall : ∀ s ∈ tenths.samples, fl 0 ≤ s.timestamp ∧ s.timestamp ≤ fl (8 / 10) ∧
      150 ≤ s.powerW ∧ s.powerW ≤ 150 := by
    decide +kernel
  have hfirst : ⟨fl 0, 0, 150⟩ ∈ tenths.samples ∧ Own 0 0 1 ⟨fl 0, 0, 150⟩ := by decide +kernel
  have hlast : ⟨fl (8 / 10), 0, 150⟩ ∈ tenths.samples ∧ Own 0 0 1 ⟨fl (8 / 10), 0, 150⟩ := by decide +kernel
  have hbounds := hclaim tenths 0 0 1 150 150 (fl 0) (fl (8 / 10)) (fun s hs _ => (hall s hs).2.2)
    ⟨⟨_, hfirst.1, hfirst.2, rfl⟩, fun t ⟨s, hs, _, ht⟩ => ht ▸ (hall s hs).1⟩
    ⟨⟨_, hlast.1, hlast.2, rfl⟩, fun t ⟨s, hs, _, ht⟩ => ht ▸ (hall s hs).2.1⟩
  have hpast : 150 * (fl (8 / 10) - fl 0) < tenths.computeEnergyFromSamples 0 0 1 := by decide +kernel
  exact absurd hpast hbounds.2.not_gt

end Own

/-! ### Nothing to integrate -/

/-- Only positive powers are stored. -/
def Positive (b : NvidiaGpuBackend) : Prop := ∀ s ∈ b.samples, 0 < s.powerW

theorem positive_pollTurn [Rounding] {b : NvidiaGpuBackend} (h : b.Positive) (ts : Double) (nvml : NvmlReads)
    (n : ℕ) : (b.pollTurn ts nvml n).Positive := by
  rcases b.pollTurn_cases ts nvml n with hsame | ⟨g, power, -, -, -, hpower, hpush⟩
  · rw [hsame]
    exact h
  · rw [hpush]
    intro s hs
    rcases List.mem_append.mp hs with hs | hs
    · exact h s hs
    · obtain rfl := List.mem_singleton.mp hs
      exact hpower

/-- A run of the polling loop, turn by turn: the round's timestamp, what the driver
answers, and the turn's place in the round. -/
def pollTurns [Rounding] (b : NvidiaGpuBackend) (turns : List (Double × NvmlReads × ℕ)) : NvidiaGpuBackend :=
  turns.foldl (fun b (ts, nvml, n) => b.pollTurn ts nvml n) b

theorem pollTurns_devices [Rounding] (b : NvidiaGpuBackend) (turns : List (Double × NvmlReads × ℕ)) :
    (b.pollTurns turns).devices = b.devices := by
  induction turns generalizing b with
  | nil => rfl
  | cons turn rest ih => exact (ih _).trans (b.pollTurn_devices turn.1 turn.2.1 turn.2.2)

theorem pollTurns_append [Rounding] (b : NvidiaGpuBackend) (xs ys : List (Double × NvmlReads × ℕ)) :
    b.pollTurns (xs ++ ys) = (b.pollTurns xs).pollTurns ys := List.foldl_append

/-- The turns of a round, up to a place. -/
def roundTurns (nvml : NvmlReads) (ts : Double) (n : ℕ) : List (Double × NvmlReads × ℕ) :=
  (List.range n).map fun turn => (ts, nvml, turn)

theorem pollRound_eq [Rounding] (b : NvidiaGpuBackend) (ts : Double) (nvml : NvmlReads) :
    b.pollRound ts nvml = b.pollTurns (roundTurns nvml ts b.gpuIndices.length) := by
  rw [pollRound, pollTurns, roundTurns, List.foldl_map]

theorem pollingActive_pollTurns [Rounding] (b : NvidiaGpuBackend) (turns : List (Double × NvmlReads × ℕ)) :
    (b.pollTurns turns).pollingActive = b.pollingActive := by
  induction turns generalizing b with
  | nil => rfl
  | cons turn rest ih => exact (ih _).trans (b.pollingActive_pollTurn turn.1 turn.2.1 turn.2.2)

theorem gpuIndices_pollTurns [Rounding] (b : NvidiaGpuBackend) (turns : List (Double × NvmlReads × ℕ)) :
    (b.pollTurns turns).gpuIndices = b.gpuIndices :=
  congrArg Devices.gpuIndices (b.pollTurns_devices turns)

theorem positive_pollTurns [Rounding] {b : NvidiaGpuBackend} (h : b.Positive)
    (turns : List (Double × NvmlReads × ℕ)) : (b.pollTurns turns).Positive := by
  induction turns generalizing b with
  | nil => exact h
  | cons turn rest ih => exact ih (positive_pollTurn h turn.1 turn.2.1 turn.2.2)

/-- How many distinct timestamps the GPU's samples in the window have. -/
def distinctTimes (b : NvidiaGpuBackend) (g : Int) (startTime endTime : Double) : ℕ :=
  ((b.samples.filter fun s => decide (Own g startTime endTime s)).map PowerSample.timestamp).toFinset.card

theorem two_times_iff {b : NvidiaGpuBackend} {g : Int} {startTime endTime : Double} :
    2 ≤ b.distinctTimes g startTime endTime ↔
      ∃ p ∈ sortTimeline (b.timeline g startTime endTime),
        ∃ q ∈ sortTimeline (b.timeline g startTime endTime), p.1 < q.1 := by
  have hmem : ∀ t, t ∈ ((b.samples.filter fun s => decide (Own g startTime endTime s)).map
      PowerSample.timestamp).toFinset ↔
      ∃ q ∈ sortTimeline (b.timeline g startTime endTime), q.1 = t := by
    intro t
    have hsame : (∃ q ∈ sortTimeline (b.timeline g startTime endTime), q.1 = t) ↔
        ∃ s ∈ b.samples, Own g startTime endTime s ∧ s.timestamp = t := Set.ext_iff.mp own_times t
    rw [hsame]
    simp [and_assoc]
  rw [distinctTimes, Nat.succ_le_iff, Finset.one_lt_card]
  constructor
  · intro ⟨s, hs, t, ht, hne⟩
    obtain ⟨p, hp, hps⟩ := (hmem s).mp hs
    obtain ⟨q, hq, hqt⟩ := (hmem t).mp ht
    rcases lt_or_gt_of_ne hne with hlt | hgt
    · exact ⟨p, hp, q, hq, by rwa [hps, hqt]⟩
    · exact ⟨q, hq, p, hp, by rwa [hps, hqt]⟩
  · intro ⟨p, hp, q, hq, hlt⟩
    exact ⟨p.1, (hmem p.1).mpr ⟨p, hp, rfl⟩, q.1, (hmem q.1).mpr ⟨q, hq, rfl⟩, hlt.ne⟩

theorem energy_pos_iff [Rounding] {b : NvidiaGpuBackend} (h : b.Positive) {g : Int} {startTime endTime : Double} :
    0 < b.computeEnergyFromSamples g startTime endTime ↔ 2 ≤ b.distinctTimes g startTime endTime := by
  rw [two_times_iff, computeEnergyFromSamples_eq]
  apply Trapezoid.summed_pos_iff (sortTimeline_inOrder _)
  intro q hq
  exact h _ ((mem_sorted_timeline q).mp hq).1

/-- Short of two distinct timestamps the integral is zero. -/
theorem energy_eq_zero [Rounding] {b : NvidiaGpuBackend} (h : b.Positive) {g : Int} {startTime endTime : Double}
    (hfew : b.distinctTimes g startTime endTime < 2) :
    b.computeEnergyFromSamples g startTime endTime = 0 := by
  apply le_antisymm
  · exact not_lt.mp fun hpos => hfew.not_ge ((energy_pos_iff h).mp hpos)
  · rw [computeEnergyFromSamples_eq]
    apply Trapezoid.le_summed Rounding.fl_zero (sortTimeline_inOrder _)
    intro q hq
    exact (h _ ((mem_sorted_timeline q).mp hq).1).le

/-- With nothing to integrate a turn falls back to the instant power, whatever the driver
answers. -/
theorem deltaTurn_fallback [Rounding] {b : NvidiaGpuBackend} {g : Int} {n : ℕ}
    (hs : b.supportsEnergyCounter g = false)
    {startTime endTime : Double} (hnone : b.computeEnergyFromSamples g startTime endTime ≤ 0)
    (nvml : NvmlReads) (startSnap : Map Int Double) (elapsedTime : Double) :
    b.deltaTurn nvml startSnap startTime endTime elapsedTime (g, n) =
      (b.getInstantPowerW nvml n g).map fun powerW => some (fl (powerW * elapsedTime)) := by
  rw [deltaTurn_polled n hs]
  simp only [polledEnergy, if_pos hnone]
  rcases b.getInstantPowerW nvml n g with e | powerW <;> rfl

theorem deltaTurn_integral [Rounding] {b : NvidiaGpuBackend} {g : Int} {n : ℕ}
    (hs : b.supportsEnergyCounter g = false)
    {startTime endTime : Double} (hpos : 0 < b.computeEnergyFromSamples g startTime endTime)
    (nvml : NvmlReads) (startSnap : Map Int Double) (elapsedTime : Double) :
    b.deltaTurn nvml startSnap startTime endTime elapsedTime (g, n) =
      .ok (some (b.computeEnergyFromSamples g startTime endTime)) := by
  rw [deltaTurn_polled n hs]
  simp only [polledEnergy, if_neg hpos.not_ge]
  rfl

/-- A driver whose reads all fail. -/
def unanswered : NvmlReads where
  totalEnergyConsumption := fun _ _ => .error "Unknown Error"
  powerUsage := fun _ _ => .error "Unknown Error"
  powerManagementLimit := fun _ => .error "Unknown Error"

theorem getInstantPowerW_unanswered [Rounding] (b : NvidiaGpuBackend) (n : ℕ) (g : Int) :
    ∃ e, b.getInstantPowerW unanswered n g = .error e := by
  unfold getInstantPowerW
  cases b.handles[g]? with
  | none => exact ⟨_, rfl⟩
  | some handle => exact ⟨_, rfl⟩

/-- **The fallback is taken exactly when there is nothing to integrate.** After any run of
the polling loop, a polled GPU's energy is the instant power over the elapsed time if and
only if its samples in the window have fewer than two distinct timestamps; otherwise it is
the integral, which is positive. -/
theorem fallback_iff [Rounding] {compiled : Bool} {setup : NvmlSetup} {indices : List Int}
    {built b : NvidiaGpuBackend} (hbuilt : construct compiled setup indices = .ok built)
    (turns : List (Double × NvmlReads × ℕ)) (hrun : built.pollTurns turns = b) {g : Int}
    (hs : b.supportsEnergyCounter g = false) (startTime endTime elapsedTime : Double)
    (startSnap : Map Int Double) (n : ℕ) :
    ((∀ nvml, b.deltaTurn nvml startSnap startTime endTime elapsedTime (g, n) =
        (b.getInstantPowerW nvml n g).map fun powerW => some (fl (powerW * elapsedTime))) ↔
      b.distinctTimes g startTime endTime < 2) ∧
    ∀ nvml delta, b.computeEnergyDeltaJ nvml startSnap startTime endTime elapsedTime = .ok delta →
      LastTurn b.gpuIndices g n →
      (b.distinctTimes g startTime endTime < 2 ∧ b.computeEnergyFromSamples g startTime endTime = 0 ∧
          ∃ powerW, b.getInstantPowerW nvml n g = .ok powerW ∧ delta[g]? = some (fl (powerW * elapsedTime))) ∨
        (2 ≤ b.distinctTimes g startTime endTime ∧
          0 < b.computeEnergyFromSamples g startTime endTime ∧
          delta[g]? = some (b.computeEnergyFromSamples g startTime endTime)) := by
  have hpositive : b.Positive := by
    rw [← hrun]
    apply positive_pollTurns
    obtain ⟨_, _, _, _, _, _, _, _, hsamples⟩ := construct_cases hbuilt
    intro s hs
    rw [hsamples] at hs
    cases hs
  have henergy : 0 < b.computeEnergyFromSamples g startTime endTime ↔
      2 ≤ b.distinctTimes g startTime endTime := energy_pos_iff hpositive
  refine ⟨⟨?uses, ?falls⟩, ?values⟩
  case uses =>
    intro huses
    by_contra htwo
    have hpos := henergy.mpr (not_lt.mp htwo)
    have hturn := huses unanswered
    obtain ⟨e, he⟩ := b.getInstantPowerW_unanswered n g
    rw [deltaTurn_integral hs hpos, he] at hturn
    cases hturn
  case falls =>
    intro hfew nvml
    exact deltaTurn_fallback hs (energy_eq_zero hpositive hfew).le nvml startSnap elapsedTime
  case values =>
    intro nvml delta hdelta hn
    obtain ⟨v, hv, hlookup⟩ := lookup_delta hdelta hn
    rcases Nat.lt_or_ge (b.distinctTimes g startTime endTime) 2 with hfew | htwo
    · left
      have hzero := energy_eq_zero hpositive hfew
      rw [deltaTurn_fallback hs hzero.le] at hv
      cases hpower : b.getInstantPowerW nvml n g with
      | error e => rw [hpower] at hv; cases hv
      | ok powerW => rw [hpower] at hv; cases hv; exact ⟨hfew, hzero, powerW, rfl, hlookup⟩
    · right
      have hpos := henergy.mpr htwo
      rw [deltaTurn_integral hs hpos] at hv
      cases hv
      exact ⟨htwo, hpos, hlookup⟩

def sampleSetup : NvmlSetup where
  init := .ok ()
  deviceCount := .ok 1
  handleByIndex := fun _ _ => .ok 7
  architecture := fun _ _ => .ok 3

attribute [local instance] Rounding.binary64 in
/-- Of three rounds the second reads nothing: 340 J by the integral over the first four
seconds, and the instant power over a window that ends before the third round. -/
theorem fallback_iff_sample :
    ∃ built b, construct true sampleSetup [0] = .ok built ∧
      built.pollTurns [(1, sampleAnswers, 0), (2, unanswered, 0), (3, sampleAnswers, 0)] = b ∧
      b.distinctTimes 0 0 4 = 2 ∧
      (¬ ∀ nvml, b.deltaTurn nvml ∅ 0 4 4 (0, 0) =
        (b.getInstantPowerW nvml 0 0).map fun powerW => some (fl (powerW * 4))) ∧
      (∃ delta, b.computeEnergyDeltaJ sampleAnswers ∅ 0 4 4 = .ok delta ∧ delta[(0 : Int)]? = some 340) ∧
      b.distinctTimes 0 0 2 = 1 ∧
      ∀ nvml, b.deltaTurn nvml ∅ 0 2 2 (0, 0) =
        (b.getInstantPowerW nvml 0 0).map fun powerW => some (fl (powerW * 2)) := by
  obtain ⟨built, h, hpolled, htwo, hone, hdelta⟩ : ∃ built, construct true sampleSetup [0] = .ok built ∧
      (let b := built.pollTurns [(1, sampleAnswers, 0), (2, unanswered, 0), (3, sampleAnswers, 0)]
      b.supportsEnergyCounter 0 = false ∧ b.distinctTimes 0 0 4 = 2 ∧ b.distinctTimes 0 0 2 = 1 ∧
        ∃ delta, b.computeEnergyDeltaJ sampleAnswers ∅ 0 4 4 = .ok delta ∧ delta[(0 : Int)]? = some 340) := by
    decide +kernel
  refine ⟨built, _, h, rfl, htwo, ?_, hdelta, hone, ?_⟩
  · intro hfalls
    have hfew := (fallback_iff h _ rfl hpolled 0 4 4 ∅ 0).1.mp hfalls
    omega
  · exact (fallback_iff h _ rfl hpolled 0 2 2 ∅ 0).1.mpr (by omega)

end NvidiaGpuBackend

end ZeusPower.Device
