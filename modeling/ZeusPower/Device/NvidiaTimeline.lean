import ZeusPower.Device.NvidiaReadings

/-! The timeline of a polled GPU.

The filter loop reads the flat sample list; what it finds is the window of the GPU's
own samples (`timeline_eq_within`), and sorting it puts it in order of time
(`sortTimeline_inOrder`). With that the integrator's rectangle bounds apply, and give
one bound for both ways a window can be measured (`delta_bounds`). -/
namespace ZeusPower.Device
open Library

namespace NvidiaGpuBackend

/-! ### The order of `std::sort` -/

instance : IsTrans (Double × Double) pairLe where
  trans := by
    intro p q r hpq hqr
    rcases hpq with hpq | ⟨hpq, hpq'⟩
    · rcases hqr with hqr | ⟨hqr, -⟩
      · exact Or.inl (hpq.trans hqr)
      · exact Or.inl (hqr ▸ hpq)
    · rcases hqr with hqr | ⟨hqr, hqr'⟩
      · exact Or.inl (hpq ▸ hqr)
      · exact Or.inr ⟨hpq.trans hqr, hpq'.trans hqr'⟩

instance : Std.Total pairLe where
  total := by
    intro p q
    rcases lt_trichotomy p.1 q.1 with h | h | h
    · exact Or.inl (Or.inl h)
    · rcases le_total p.2 q.2 with h' | h'
      · exact Or.inl (Or.inr ⟨h, h'⟩)
      · exact Or.inr (Or.inr ⟨h.symm, h'⟩)
    · exact Or.inr (Or.inl h)

theorem pairLe_time {p q : Double × Double} (h : pairLe p q) : p.1 ≤ q.1 := by
  rcases h with h | ⟨h, -⟩
  · exact h.le
  · exact h.le

theorem sortTimeline_inOrder (timeline : List (Double × Double)) :
    Trapezoid.InOrder (sortTimeline timeline) :=
  (List.pairwise_insertionSort pairLe timeline).imp pairLe_time

theorem mem_sortTimeline {timeline : List (Double × Double)} {p : Double × Double} :
    p ∈ sortTimeline timeline ↔ p ∈ timeline := List.mem_insertionSort pairLe

/-- Samples that arrived in order, no two at one time, are sorted as they stand. -/
theorem sortTimeline_eq {timeline : List (Double × Double)}
    (h : timeline.Pairwise fun p q => p.1 < q.1) : sortTimeline timeline = timeline :=
  (h.imp fun hlt => Or.inl hlt).insertionSort_eq

/-! ### The samples of one GPU -/

/-- All samples of a GPU, as they arrived. -/
def samplesOf (samples : List PowerSample) (g : Int) : List (Double × Double) :=
  samples.filterMap fun s => if s.gpuIndex = g then some (s.timestamp, s.powerW) else none

theorem mem_samplesOf {samples : List PowerSample} {g : Int} {p : Double × Double} :
    p ∈ samplesOf samples g ↔ ⟨p.1, g, p.2⟩ ∈ samples := by
  unfold samplesOf
  rw [List.mem_filterMap]
  constructor
  · intro ⟨s, hs, hp⟩
    by_cases hg : s.gpuIndex = g
    · rw [if_pos hg] at hp
      obtain rfl := Option.some.inj hp
      exact hg ▸ hs
    · rw [if_neg hg] at hp
      cases hp
  · intro hs
    exact ⟨_, hs, if_pos rfl⟩

theorem samplesOf_append (xs ys : List PowerSample) (g : Int) :
    samplesOf (xs ++ ys) g = samplesOf xs g ++ samplesOf ys g := List.filterMap_append

/-- The filter loop keeps the window of the GPU's samples. -/
theorem timeline_eq_within (b : NvidiaGpuBackend) (g : Int) (startTime endTime : Double) :
    b.timeline g startTime endTime = Trapezoid.within startTime endTime (samplesOf b.samples g) := by
  unfold timeline Trapezoid.within samplesOf
  rw [List.filter_filterMap]
  congr 1
  funext s
  by_cases hg : s.gpuIndex = g
  · by_cases ht : startTime ≤ s.timestamp ∧ s.timestamp ≤ endTime
    · simp [hg, ht, Option.filter]
    · simp [hg, ht, Option.filter]
  · simp [hg]

/-! ### Bounds -/

/-- Some sample of the GPU is at most `gap` old at every instant from `gap` into the
window on. -/
def Covered (samples : List PowerSample) (g : Int) (gap startTime endTime : Double) : Prop :=
  ∀ t, startTime + gap ≤ t → t ≤ endTime →
    ∃ s ∈ samples, s.gpuIndex = g ∧ t - gap ≤ s.timestamp ∧ s.timestamp ≤ t

section Bounds
variable {b : NvidiaGpuBackend} {g : Int} {lo hi gap startTime endTime : Double}

/-- A covered window has a nonnegative gap: its end is covered too, or is too early. -/
theorem gap_nonneg (hcovered : Covered b.samples g gap startTime endTime)
    (hwindow : startTime ≤ endTime) : 0 ≤ gap := by
  by_contra hneg
  obtain ⟨s, -, -, hlate, hearly⟩ := hcovered endTime (by linarith) (le_refl _)
  linarith

/-- What stands in the sorted timeline is a sample of the GPU in the window. -/
theorem mem_sorted_timeline (p : Double × Double) :
    p ∈ sortTimeline (b.timeline g startTime endTime) ↔
      ⟨p.1, g, p.2⟩ ∈ b.samples ∧ startTime ≤ p.1 ∧ p.1 ≤ endTime := by
  rw [mem_sortTimeline, timeline_eq_within, Trapezoid.mem_within, mem_samplesOf]

theorem sorted_timeline_of_sample {s : PowerSample} (hs : s ∈ b.samples) (hg : s.gpuIndex = g)
    (hstart : startTime ≤ s.timestamp) (hend : s.timestamp ≤ endTime) :
    (s.timestamp, s.powerW) ∈ sortTimeline (b.timeline g startTime endTime) := by
  subst hg
  exact (mem_sorted_timeline _).mpr ⟨hs, hstart, hend⟩

/-- There is no energy without a sample. -/
theorem exists_sample_of_pos [Rounding] (h : 0 < b.computeEnergyFromSamples g startTime endTime) :
    ∃ s ∈ b.samples, s.gpuIndex = g := by
  rw [computeEnergyFromSamples_eq] at h
  cases hl : sortTimeline (b.timeline g startTime endTime) with
  | nil =>
    rw [hl] at h
    exact absurd h (lt_irrefl 0)
  | cons p rest =>
    have hp : p ∈ sortTimeline (b.timeline g startTime endTime) := hl ▸ List.mem_cons_self
    exact ⟨_, ((mem_sorted_timeline p).mp hp).1, rfl⟩

/-- The integral over a covered window is between the two rectangles. -/
theorem integral_bounds [Rounding] [Exact] (hlo : 0 ≤ lo) (hhi : 0 ≤ hi) (hwindow : startTime ≤ endTime)
    (hpower : ∀ s ∈ b.samples, s.gpuIndex = g → lo ≤ s.powerW ∧ s.powerW ≤ hi)
    (hcovered : Covered b.samples g gap startTime endTime) :
    lo * (endTime - startTime - 2 * gap) ≤ b.computeEnergyFromSamples g startTime endTime ∧
      b.computeEnergyFromSamples g startTime endTime ≤ hi * (endTime - startTime) := by
  have hsorted := sortTimeline_inOrder (b.timeline g startTime endTime)
  have hvalues : ∀ p ∈ sortTimeline (b.timeline g startTime endTime), lo ≤ p.2 ∧ p.2 ≤ hi :=
    fun p hp => hpower _ ((mem_sorted_timeline p).mp hp).1 rfl
  have htimes : ∀ p ∈ sortTimeline (b.timeline g startTime endTime),
      startTime ≤ p.1 ∧ p.1 ≤ endTime := fun p hp => ((mem_sorted_timeline p).mp hp).2
  rw [computeEnergyFromSamples_integral]
  constructor
  · by_cases hshort : endTime - startTime < 2 * gap
    · have hnonneg := Trapezoid.integral_nonneg hsorted fun p hp => hlo.trans (hvalues p hp).1
      have hproduct := mul_nonneg hlo (by linarith : 0 ≤ 2 * gap - (endTime - startTime))
      linarith
    · have hgap := gap_nonneg hcovered hwindow
      -- One sample stands in the first gap of the window, and one in the last.
      obtain ⟨p, hp, hpg, hpstart, hpend⟩ := hcovered (startTime + gap) (le_refl _) (by linarith)
      obtain ⟨q, hq, hqg, hqstart, hqend⟩ := hcovered endTime (by linarith) (le_refl _)
      have hpafter : startTime ≤ p.timestamp := by linarith
      have hpbefore : p.timestamp ≤ endTime := by linarith
      have hqafter : startTime ≤ q.timestamp := by linarith
      have hfirst := sorted_timeline_of_sample hp hpg hpafter hpbefore
      have hlast := sorted_timeline_of_sample hq hqg hqafter hqend
      have hspan := Trapezoid.le_integral_of_span hsorted hlo (fun p hp => (hvalues p hp).1) hfirst hlast
      have hwidth : endTime - startTime - 2 * gap ≤ q.timestamp - p.timestamp := by linarith
      exact (mul_le_mul_of_nonneg_left hwidth hlo).trans hspan
  · exact Trapezoid.integral_le_of_within hsorted hhi hwindow htimes fun p hp => (hvalues p hp).2

/-- **A polled window has a bounded error.** Between readings of `lo` and `hi`, in exact
arithmetic, the energy of a polled GPU is within the rectangles of the window, short of at
most two gaps, by the integral and by the fallback alike. -/
theorem delta_bounds [Rounding] [Exact] {nvml : NvmlReads} {startSnap delta : Map Int Double}
    (hlo : 0 ≤ lo) (hwindow : startTime ≤ endTime)
    (hpower : ∀ s ∈ b.samples, s.gpuIndex = g → lo ≤ s.powerW ∧ s.powerW ≤ hi)
    (hcovered : Covered b.samples g gap startTime endTime)
    (hfallback : b.computeEnergyFromSamples g startTime endTime ≤ 0 → ∀ n powerW,
      b.gpuIndices[n]? = some g → b.getInstantPowerW nvml n g = .ok powerW →
      lo ≤ powerW ∧ powerW ≤ hi)
    (hmonitored : g ∈ b.gpuIndices) (hpolled : b.supportsEnergyCounter g = false)
    (h : b.computeEnergyDeltaJ nvml startSnap startTime endTime (fl (endTime - startTime)) = .ok delta) :
    ∃ energy, delta[g]? = some energy ∧ lo * (endTime - startTime - 2 * gap) ≤ energy ∧
      energy ≤ hi * (endTime - startTime) := by
  obtain ⟨n, hn⟩ := LastTurn.exists_of_mem hmonitored
  obtain ⟨energy, henergy, hdelta⟩ := lookup_delta_polled h hn hpolled
  refine ⟨energy, hdelta, ?_⟩
  rcases polledEnergy_cases henergy with ⟨hpos, rfl⟩ | ⟨hnone, powerW, hread, rfl⟩
  · obtain ⟨s, hs, hsg⟩ := exists_sample_of_pos hpos
    obtain ⟨hslo, hshi⟩ := hpower s hs hsg
    exact integral_bounds hlo (hlo.trans (hslo.trans hshi)) hwindow hpower hcovered
  · obtain ⟨hplo, hphi⟩ := hfallback hnone n powerW hn.visits hread
    have hgap := gap_nonneg hcovered hwindow
    have hwidth : 0 ≤ endTime - startTime := by linarith
    have hlower := mul_le_mul_of_nonneg_right hplo hwidth
    have hupper := mul_le_mul_of_nonneg_right hphi hwidth
    have hextra := mul_nonneg hlo hgap
    simp only [Exact.fl_eq]
    constructor
    · linarith
    · exact hupper

end Bounds

/-- One polled GPU, and the samples of it. -/
def polledWith (samples : List PowerSample) : NvidiaGpuBackend where
  gpuIndices := [0]
  handles := (∅ : Map Int Handle).insert 0 7
  supportsEnergy := (∅ : Map Int Bool).insert 0 false
  pollingActive := true
  samples := samples
  mem_handles := by
    intro g
    rw [Std.ExtTreeMap.mem_insert, Std.LawfulEqOrd.compare_eq_iff_eq, List.mem_singleton, eq_comm]
    exact or_iff_left Std.ExtTreeMap.not_mem_empty
  mem_supportsEnergy := by
    intro g
    rw [Std.ExtTreeMap.mem_insert, Std.LawfulEqOrd.compare_eq_iff_eq, List.mem_singleton, eq_comm]
    exact or_iff_left Std.ExtTreeMap.not_mem_empty

def samplePolled : NvidiaGpuBackend := polledWith [⟨1, 0, 150⟩, ⟨2, 0, 180⟩, ⟨3, 0, 160⟩]

def sampleAnswers : NvmlReads where
  totalEnergyConsumption := fun _ _ => .error "Not Supported"
  powerUsage := fun _ _ => .ok 170000
  powerManagementLimit := fun _ => .error "Not Supported"

/-- Nine samples of 150 W. -/
def tenths : NvidiaGpuBackend :=
  polledWith ((List.range 9).map fun n => ⟨Rounding.binary64.fl (n / 10), 0, 150⟩)

attribute [local instance] Rounding.binary64 in
/-- **Doubles pass the bound.** Nine samples of 150 W, a tenth of a second apart, add up to
120.00000000000001 J, which is more than 150 W over the window. -/
theorem tenths_past_bounds :
    ¬ ∀ (b : NvidiaGpuBackend) (g : Int) (lo hi gap startTime endTime : Double) (nvml : NvmlReads)
        (startSnap delta : Map Int Double), 0 ≤ lo → startTime ≤ endTime →
      (∀ s ∈ b.samples, s.gpuIndex = g → lo ≤ s.powerW ∧ s.powerW ≤ hi) →
      Covered b.samples g gap startTime endTime →
      (b.computeEnergyFromSamples g startTime endTime ≤ 0 → ∀ n powerW, b.gpuIndices[n]? = some g →
        b.getInstantPowerW nvml n g = .ok powerW → lo ≤ powerW ∧ powerW ≤ hi) →
      g ∈ b.gpuIndices → b.supportsEnergyCounter g = false →
      b.computeEnergyDeltaJ nvml startSnap startTime endTime (fl (endTime - startTime)) = .ok delta →
      ∃ energy, delta[g]? = some energy ∧ lo * (endTime - startTime - 2 * gap) ≤ energy ∧
        energy ≤ hi * (endTime - startTime) := by
  intro hclaim
  have hcovered : Covered tenths.samples 0 (1 / 4) 0 (fl (4 / 5)) := by
    have hsample : ∀ n ∈ [2, 4, 6, 8], ⟨fl (n / 10), 0, 150⟩ ∈ tenths.samples := by decide +kernel
    have h2 : 1 / 8 ≤ fl (2 / 10) ∧ fl (2 / 10) ≤ 1 / 4 := by decide +kernel
    have h4 : fl (4 / 10) ≤ fl (2 / 10) + 1 / 4 := by decide +kernel
    have h6 : fl (6 / 10) ≤ fl (4 / 10) + 1 / 4 := by decide +kernel
    have h8 : fl (8 / 10) ≤ fl (6 / 10) + 1 / 4 ∧ fl (4 / 5) = fl (8 / 10) := by decide +kernel
    intro t hstart hend
    rcases lt_or_ge t (fl (4 / 10)) with h | h
    · exact ⟨_, hsample 2 (by decide), rfl, by dsimp only; linarith, by dsimp only; linarith⟩
    · rcases lt_or_ge t (fl (6 / 10)) with h' | h'
      · exact ⟨_, hsample 4 (by decide), rfl, by dsimp only; linarith, h⟩
      · rcases lt_or_ge t (fl (8 / 10)) with h'' | h''
        · exact ⟨_, hsample 6 (by decide), rfl, by dsimp only; linarith, h'⟩
        · exact ⟨_, hsample 8 (by decide), rfl, by dsimp only; linarith, h''⟩
  have hpositive : ¬ tenths.computeEnergyFromSamples 0 0 (fl (4 / 5)) ≤ 0 := by decide +kernel
  obtain ⟨delta, h, energy, henergy, hpast⟩ : ∃ delta, tenths.computeEnergyDeltaJ sampleAnswers ∅ 0 (fl (4 / 5))
      (fl (fl (4 / 5) - 0)) = .ok delta ∧ ∃ energy, delta[(0 : Int)]? = some energy ∧
        150 * (fl (4 / 5) - 0) < energy := by
    decide +kernel
  obtain ⟨energy', henergy', -, hupper⟩ := hclaim tenths 0 150 150 (1 / 4) 0 (fl (4 / 5)) sampleAnswers ∅ delta
    (by norm_num) (by decide +kernel) (by decide +kernel) hcovered (fun hnone => absurd hnone hpositive)
    (by decide) (by decide) h
  obtain rfl := Option.some.inj (henergy.symm.trans henergy')
  exact absurd hpast hupper.not_gt

attribute [local instance] Rounding.exact Rounding.exact_exact in
/-- The integral, 335 J. -/
theorem delta_bounds_sample :
    ∃ delta energy, samplePolled.computeEnergyDeltaJ sampleAnswers ∅ (1 / 2) (7 / 2) 3 = .ok delta ∧
      delta[(0 : Int)]? = some energy ∧ energy = 335 ∧ 150 * (7 / 2 - 1 / 2 - 2 * 1) ≤ energy ∧
      energy ≤ 180 * (7 / 2 - 1 / 2) := by
  have hcovered : Covered samplePolled.samples 0 1 (1 / 2) (7 / 2) := by
    intro t hstart hend
    by_cases h2 : t < 2
    · exact ⟨⟨1, 0, 150⟩, by decide, rfl, by norm_num; linarith, by norm_num; linarith⟩
    · by_cases h3 : t < 3
      · exact ⟨⟨2, 0, 180⟩, by decide, rfl, by norm_num; linarith, by norm_num; linarith⟩
      · exact ⟨⟨3, 0, 160⟩, by decide, rfl, by norm_num; linarith, by norm_num; linarith⟩
  have hpositive : ¬ samplePolled.computeEnergyFromSamples 0 (1 / 2) (7 / 2) ≤ 0 := by decide +kernel
  obtain ⟨delta, h, hvalue⟩ : ∃ delta, samplePolled.computeEnergyDeltaJ sampleAnswers ∅ (1 / 2) (7 / 2)
      (fl (7 / 2 - 1 / 2)) = .ok delta ∧ delta[(0 : Int)]? = some 335 := by
    decide +kernel
  have hbounds : ∃ energy, delta[(0 : Int)]? = some energy ∧
      150 * (7 / 2 - 1 / 2 - 2 * 1) ≤ energy ∧ energy ≤ 180 * (7 / 2 - 1 / 2) :=
    delta_bounds (by norm_num) (by norm_num) (by decide) hcovered
      (fun hnone => absurd hnone hpositive) (by decide) (by decide) h
  obtain ⟨energy, henergy, hlower, hupper⟩ := hbounds
  have hsame : energy = 335 := Option.some.inj (henergy.symm.trans hvalue)
  refine ⟨delta, energy, ?_, henergy, hsame, hlower, hupper⟩
  have hlength : (3 : Double) = fl (7 / 2 - 1 / 2) := by decide +kernel
  rw [hlength]
  exact h

end NvidiaGpuBackend

end ZeusPower.Device
