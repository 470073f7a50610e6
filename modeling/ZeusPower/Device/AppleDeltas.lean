import Mathlib.Algebra.Order.BigOperators.Group.List
import Mathlib.Data.Rat.Star
import Mathlib.Tactic.Linarith
import ZeusPower.Device.AppleChannels

/-! Differences of cumulative Apple snapshots.

A snapshot is the delta since construction, parsed; a window is the difference of two
snapshots. Over one channel list (`reading`) a parsed metric is a weighted sum of the
clamped raw values of the channels that count for it (`lookup_reading`), so a window is
the difference of two such sums. While no channel goes back it is the parse of the direct
delta (`deltaBetween_eq_direct`). A channel that does go back is clamped against the
baseline and not against the begin of the window: what it fell by is taken off what the
others rose by (`lookup_deltaBetween`). So a metric is not negative while none of its
channels is set back (`change_nonneg`), and where they do not move against each other only
then (`change_nonneg_iff`). -/
namespace ZeusPower.Device
open Library Rounding

namespace AppleSoCBackend

/-! ### Samples over one channel list -/

/-- The sample whose channel at place `i` of the list reads `raw i`. -/
def reading (channels : List (Option Channel)) (raw : ℕ → Int) : IOReportSample :=
  ⟨some (channels.zipIdx.map fun (ch, i) => ch.map fun c => { c with value := raw i })⟩

/-- IOReport takes the delta of two samples channel by channel, and keeps the names, the
units and the order. -/
def DeltaBy (sub : Int → Int → Int) (ioreport : IOReport) (channels : List (Option Channel)) : Prop :=
  ∀ earlier later, ioreport.createSamplesDelta (reading channels earlier) (reading channels later) =
    some (reading channels fun i => sub (later i) (earlier i))

/-- The channels that count for a metric, each with its place in the list. -/
def counting (channels : List (Option Channel)) (key : String) : List (Channel × ℕ) :=
  counted (fun row : Channel × ℕ => row.1.name) key (channels.zipIdx.map fun (ch, i) => ch.map fun c => (c, i))

theorem counting_place {channels : List (Option Channel)} {key : String} {row : Channel × ℕ}
    (h : row ∈ counting channels key) : row.2 < channels.length := by
  obtain ⟨hrow, -⟩ := mem_counted _ _ h
  obtain ⟨⟨ch, i⟩, hplace, hch⟩ := List.mem_map.mp hrow
  obtain ⟨c, -, hc⟩ := Option.map_eq_some_iff.mp hch
  obtain ⟨hi, -⟩ := List.getElem?_eq_some_iff.mp (List.mem_zipIdx_iff_getElem?.mp hplace)
  rw [← hc]
  exact hi

/-! ### Metrics as weighted sums -/

/-- The Joules of a count of a channel's own unit. -/
def joulesIn [Rounding] (hasUnitLabel : Bool) (ch : Channel) (count : Int) : Double :=
  fl (fl count * fl (ownFactor hasUnitLabel ch))

theorem ownFactor_pos (hasUnitLabel : Bool) (ch : Channel) : 0 < ownFactor hasUnitLabel ch := by
  rw [← factorOf_unitOf]
  exact factorOf_pos _

theorem joulesIn_mono [Rounding] (hasUnitLabel : Bool) (ch : Channel) :
    Monotone (joulesIn hasUnitLabel ch) := by
  intro count count' h
  exact mono (mul_le_mul_of_nonneg_right (mono (Int.cast_le.mpr h))
    (fl_nonneg (ownFactor_pos hasUnitLabel ch).le))

/-- Readings of some channels, in Joules, added up. -/
def joulesSum [Rounding] (hasUnitLabel : Bool) (rows : List (Channel × ℕ)) (raw : ℕ → Int) : Double :=
  Rounding.sum (rows.map fun row => joulesIn hasUnitLabel row.1 (raw row.2))

section Sums
variable [Rounding] (hasUnitLabel : Bool) (rows : List (Channel × ℕ)) {raw raw' : ℕ → Int}

theorem joulesSum_mono (h : ∀ row ∈ rows, raw row.2 ≤ raw' row.2) :
    joulesSum hasUnitLabel rows raw ≤ joulesSum hasUnitLabel rows raw' :=
  sum_mono fun row hrow => joulesIn_mono hasUnitLabel row.1 (h row hrow)

theorem joulesSum_congr (h : ∀ row ∈ rows, raw row.2 = raw' row.2) :
    joulesSum hasUnitLabel rows raw = joulesSum hasUnitLabel rows raw' := by
  unfold joulesSum
  congr 1
  apply List.map_congr_left
  intro row hrow
  rw [h row hrow]

theorem joulesSum_eq [Exact] (raw : ℕ → Int) : joulesSum hasUnitLabel rows raw =
    (rows.map fun row => (raw row.2 : Double) * ownFactor hasUnitLabel row.1).sum := by
  simp only [joulesSum, joulesIn, sum_eq, Exact.fl_eq]

theorem joulesSum_sub [Exact] (raw raw' : ℕ → Int) :
    joulesSum hasUnitLabel rows raw - joulesSum hasUnitLabel rows raw' =
      joulesSum hasUnitLabel rows fun i => raw i - raw' i := by
  rw [joulesSum_eq, joulesSum_eq, joulesSum_eq]
  induction rows with
  | nil => simp
  | cons row rest ih =>
    simp only [List.map_cons, List.sum_cons] at ih ⊢
    push_cast at ih ⊢
    linarith

theorem joulesSum_lt [Exact] (h : ∀ row ∈ rows, raw row.2 ≤ raw' row.2)
    (hlt : ∃ row ∈ rows, raw row.2 < raw' row.2) :
    joulesSum hasUnitLabel rows raw < joulesSum hasUnitLabel rows raw' := by
  rw [joulesSum_eq, joulesSum_eq]
  apply List.sum_lt_sum
  · intro row hrow
    exact mul_le_mul_of_nonneg_right (Int.cast_le.mpr (h row hrow)) (ownFactor_pos hasUnitLabel row.1).le
  · obtain ⟨row, hrow, hless⟩ := hlt
    exact ⟨row, hrow, mul_lt_mul_of_pos_right (Int.cast_lt.mpr hless) (ownFactor_pos hasUnitLabel row.1)⟩

end Sums

/-- A reading that is not negative. -/
def clamped (raw : ℕ → Int) (i : ℕ) : Int := max (raw i) 0

/-- A metric of a sample is the weighted sum of its clamped readings. -/
theorem lookup_reading [Rounding] (hasUnitLabel : Bool) (channels : List (Option Channel)) (raw : ℕ → Int)
    (key : String) :
    (parseEnergySample hasUnitLabel (reading channels raw))[key]? =
      if counting channels key = [] then none
      else some (joulesSum hasUnitLabel (counting channels key) (clamped raw)) := by
  have hrows : (channels.zipIdx.map fun (ch, i) => ch.map fun c => { c with value := raw i }) =
      (channels.zipIdx.map fun (ch, i) => ch.map fun c => (c, i)).map
        (Option.map fun row : Channel × ℕ => { row.1 with value := raw row.2 }) := by
    rw [List.map_map]
    apply List.map_congr_left
    intro ⟨ch, i⟩ _
    cases ch <;> rfl
  rw [reading, lookup_parseEnergySample, hrows, counted_map]
  show summed hasUnitLabel ((counting channels key).map _) = _
  unfold summed joulesSum
  simp only [List.map_eq_nil_iff, List.map_map]
  rfl

/-! ### Two snapshots -/

/-- What a window does with the backend: a snapshot at its begin, the delta from that at
its end. -/
def deltaBetween [Rounding] (b : AppleSoCBackend) (first last : IOReport) : Except Error (Map String Double) := do
  let startSnap ← b.snapshotEnergyJ first
  b.computeEnergyDeltaJ last startSnap

/-- IOReport answers a snapshot over the channel list with the readings `raw`. -/
structure Answers (sub : Int → Int → Int) (ioreport : IOReport) (channels : List (Option Channel))
    (raw : ℕ → Int) : Prop where
  sampled : ioreport.createSamples = some (reading channels raw)
  delta : DeltaBy sub ioreport channels

/-- What a snapshot sees of a channel: its delta from the baseline, clamped. -/
def seen (sub : Int → Int → Int) (baseline raw : ℕ → Int) : ℕ → Int :=
  clamped fun i => sub (raw i) (baseline i)

/-- What some channels are seen to change by from one snapshot to another, in Joules. -/
def change [Rounding] (sub : Int → Int → Int) (hasUnitLabel : Bool) (rows : List (Channel × ℕ))
    (baseline start finish : ℕ → Int) : Double :=
  fl (joulesSum hasUnitLabel rows (seen sub baseline finish) -
    joulesSum hasUnitLabel rows (seen sub baseline start))

section Snapshots
variable {b : AppleSoCBackend} {channels : List (Option Channel)} {sub : Int → Int → Int}
  {baseline start finish : ℕ → Int} {first last : IOReport}

theorem snapshotEnergyJ_reading [Rounding] (hbase : b.baselineSample = reading channels baseline)
    (h : Answers sub first channels start) :
    b.snapshotEnergyJ first =
      .ok (parseEnergySample b.hasUnitLabel (reading channels fun i => sub (start i) (baseline i))) := by
  unfold snapshotEnergyJ
  simp only [h.sampled, hbase, h.delta baseline start]

/-- Between two snapshots a metric changes by what its channels are seen to change. -/
theorem lookup_deltaBetween [Rounding] (hbase : b.baselineSample = reading channels baseline)
    (hfirst : Answers sub first channels start) (hlast : Answers sub last channels finish) :
    ∃ delta, b.deltaBetween first last = .ok delta ∧ ∀ key : String, delta[key]? =
      if counting channels key = [] then none
      else some (change sub b.hasUnitLabel (counting channels key) baseline start finish) := by
  unfold deltaBetween computeEnergyDeltaJ
  rw [snapshotEnergyJ_reading hbase hfirst, snapshotEnergyJ_reading hbase hlast]
  refine ⟨_, rfl, ?_⟩
  intro key
  rw [Map.lookup_overwrite_empty, lookup_reading, lookup_reading]
  by_cases hnone : counting channels key = []
  · rw [if_pos hnone, if_pos hnone, if_pos hnone, Option.map_none]
  · rw [if_neg hnone, if_neg hnone, if_neg hnone, Option.map_some, Option.getD_some]
    rfl

end Snapshots

/-! ### Channels that do not go back -/

section Growing
variable {b : AppleSoCBackend} {channels : List (Option Channel)} {baseline start finish : ℕ → Int}
  {first last : IOReport}

/-- While no channel goes back, the difference of the two snapshots is the parse of the
delta between the two samples. -/
theorem deltaBetween_eq_direct [Rounding] [Exact] (hbase : b.baselineSample = reading channels baseline)
    (hfirst : Answers (· - ·) first channels start) (hlast : Answers (· - ·) last channels finish)
    (hgrows : ∀ i < channels.length, baseline i ≤ start i ∧ start i ≤ finish i) :
    b.deltaBetween first last =
      .ok (parseEnergySample b.hasUnitLabel (reading channels fun i => finish i - start i)) := by
  obtain ⟨delta, hdelta, hlookup⟩ := lookup_deltaBetween hbase hfirst hlast
  rw [hdelta]
  congr 1
  apply Std.ExtTreeMap.ext_getElem?
  intro key
  rw [hlookup, lookup_reading, change, Exact.fl_eq, joulesSum_sub]
  congr 2
  apply joulesSum_congr
  intro row hrow
  obtain ⟨hstart, hfinish⟩ := hgrows row.2 (counting_place hrow)
  show max (finish row.2 - baseline row.2) 0 - max (start row.2 - baseline row.2) 0 =
    max (finish row.2 - start row.2) 0
  omega

/-- **A window is the direct delta.** While no channel goes back, a window has for every
metric the energy of the delta between its two samples: it is not negative, does not
depend on when the backend was constructed, and adds up over consecutive windows. -/
theorem window_is_direct_delta [Rounding] [Exact] (hbase : b.baselineSample = reading channels baseline)
    (hfirst : Answers (· - ·) first channels start) (hlast : Answers (· - ·) last channels finish)
    (hgrows : ∀ i < channels.length, baseline i ≤ start i ∧ start i ≤ finish i) :
    (∃ direct, last.createSamplesDelta (reading channels start) (reading channels finish) = some direct ∧
      b.deltaBetween first last = .ok (parseEnergySample b.hasUnitLabel direct)) ∧
    (∀ delta, b.deltaBetween first last = .ok delta → ∀ (key : String) v, delta[key]? = some v → 0 ≤ v) ∧
    (∀ (b' : AppleSoCBackend) (baseline' : ℕ → Int), b'.baselineSample = reading channels baseline' →
      b'.hasUnitLabel = b.hasUnitLabel → (∀ i < channels.length, baseline' i ≤ start i) →
      b'.deltaBetween first last = b.deltaBetween first last) ∧
    ∀ (middle : IOReport) (mid : ℕ → Int), Answers (· - ·) middle channels mid →
      (∀ i < channels.length, start i ≤ mid i ∧ mid i ≤ finish i) →
      ∃ one two whole, b.deltaBetween first middle = .ok one ∧ b.deltaBetween middle last = .ok two ∧
        b.deltaBetween first last = .ok whole ∧
        ∀ key : String, (key ∈ one ↔ key ∈ whole) ∧ (key ∈ two ↔ key ∈ whole) ∧
          one[key]?.getD 0 + two[key]?.getD 0 = whole[key]?.getD 0 := by
  have hwindow := deltaBetween_eq_direct hbase hfirst hlast hgrows
  refine ⟨⟨_, hlast.delta start finish, hwindow⟩, ?nonneg, ?constructed, ?consecutive⟩
  case nonneg =>
    intro delta hdelta key v hv
    rw [hwindow] at hdelta
    cases hdelta
    have hnonneg := parseEnergySample_nonneg b.hasUnitLabel (reading channels fun i => finish i - start i) key
    rwa [hv] at hnonneg
  case constructed =>
    intro b' baseline' hbase' hunit hgrows'
    rw [hwindow, deltaBetween_eq_direct hbase' hfirst hlast fun i hi => ⟨hgrows' i hi, (hgrows i hi).2⟩,
      hunit]
  case consecutive =>
    intro middle mid hmiddle hmid
    have hone := deltaBetween_eq_direct hbase hfirst hmiddle fun i hi => ⟨(hgrows i hi).1, (hmid i hi).1⟩
    have htwo := deltaBetween_eq_direct hbase hmiddle hlast fun i hi =>
      ⟨(hgrows i hi).1.trans (hmid i hi).1, (hmid i hi).2⟩
    refine ⟨_, _, _, hone, htwo, hwindow, ?_⟩
    intro key
    simp only [Std.ExtTreeMap.mem_iff_isSome_getElem?, lookup_reading]
    by_cases hnone : counting channels key = []
    · simp [hnone]
    · simp only [if_neg hnone, Option.isSome_some, Option.getD_some, true_and]
      rw [add_comm, ← eq_sub_iff_add_eq, joulesSum_sub]
      apply joulesSum_congr
      intro row hrow
      obtain ⟨hstart, hfinish⟩ := hmid row.2 (counting_place hrow)
      show max (finish row.2 - mid row.2) 0 =
        max (finish row.2 - start row.2) 0 - max (mid row.2 - start row.2) 0
      omega

end Growing

/-- IOReport over one channel list, with the readings of now. -/
def subtracting (channels : List (Option Channel)) (raw : ℕ → Int) : IOReport where
  createSamples := some (reading channels raw)
  createSamplesDelta := fun earlier later => do
    let xs ← earlier.channels
    let ys ← later.channels
    pure ⟨some (List.zipWith (fun x y => do pure { ← y with value := (← y).value - (← x).value }) xs ys)⟩

theorem subtracting_answers (channels : List (Option Channel)) (raw : ℕ → Int) :
    Answers (· - ·) (subtracting channels raw) channels raw := by
  refine ⟨rfl, fun earlier later => ?_⟩
  show some (⟨some (List.zipWith _ _ _)⟩ : IOReportSample) = _
  rw [List.zipWith_map, List.zipWith_self, reading]
  congr 3
  apply List.map_congr_left
  intro ⟨ch, i⟩ _
  cases ch <;> rfl

def sampleBackend (raw : ℕ → Int) : AppleSoCBackend := ofBaseline true (reading sampleChannels raw)

attribute [local instance] Rounding.exact Rounding.exact_exact in
theorem window_is_direct_delta_sample :
    ∃ direct, (subtracting sampleChannels fun i => 5 * i + 20).createSamplesDelta
        (reading sampleChannels fun i => 2 * i + 10) (reading sampleChannels fun i => 5 * i + 20) =
          some direct ∧
      (sampleBackend fun i => i).deltaBetween (subtracting sampleChannels fun i => 2 * i + 10)
        (subtracting sampleChannels fun i => 5 * i + 20) = .ok (parseEnergySample true direct) ∧
      (parseEnergySample true direct)["apple_cpu_total"]? = some (13 / 1000) ∧
      (parseEnergySample true direct)["apple_dram"]? = some (22 / 1000000) := by
  obtain ⟨direct, hdirect, hwindow⟩ := (window_is_direct_delta
    (show (sampleBackend fun i => i).baselineSample = reading sampleChannels fun i => i from rfl)
    (subtracting_answers sampleChannels fun i => 2 * i + 10)
    (subtracting_answers sampleChannels fun i => 5 * i + 20) (by intro i _; omega)).1
  refine ⟨direct, hdirect, hwindow, ?_, ?_⟩
  all_goals
    cases hdirect
    decide +kernel

/-! ### Channels that go back -/

/-- The channel at place `i` stood above the baseline when the one sample was taken, and
lower when the other was. -/
def SetBack (sub : Int → Int → Int) (baseline start finish : ℕ → Int) (i : ℕ) : Prop :=
  0 < sub (start i) (baseline i) ∧ sub (finish i) (baseline i) < sub (start i) (baseline i)

/-- No channel that counts for the metric was set back. -/
def NoneSetBack (sub : Int → Int → Int) (channels : List (Option Channel))
    (baseline start finish : ℕ → Int) (key : String) : Prop :=
  ∀ row ∈ counting channels key, ¬ SetBack sub baseline start finish row.2

/-- The channels that count for the metric do not move against each other: there is one
alone, or none that rose. -/
def OneWay (sub : Int → Int → Int) (channels : List (Option Channel))
    (baseline start finish : ℕ → Int) (key : String) : Prop :=
  (counting channels key).length = 1 ∨ NoneSetBack sub channels baseline finish start key

section Change
variable {sub : Int → Int → Int} {channels : List (Option Channel)} {baseline start finish : ℕ → Int}
  {key : String}

theorem setBack_iff (i : ℕ) :
    SetBack sub baseline start finish i ↔ seen sub baseline finish i < seen sub baseline start i := by
  show 0 < sub (start i) (baseline i) ∧ sub (finish i) (baseline i) < sub (start i) (baseline i) ↔
    max (sub (finish i) (baseline i)) 0 < max (sub (start i) (baseline i)) 0
  omega

theorem noneSetBack_iff : NoneSetBack sub channels baseline start finish key ↔
    ∀ row ∈ counting channels key, seen sub baseline start row.2 ≤ seen sub baseline finish row.2 := by
  simp only [NoneSetBack, setBack_iff, not_lt]

theorem change_nonneg [Rounding] (hasUnitLabel : Bool)
    (h : NoneSetBack sub channels baseline start finish key) :
    0 ≤ change sub hasUnitLabel (counting channels key) baseline start finish :=
  fl_nonneg (sub_nonneg.mpr (joulesSum_mono hasUnitLabel _ (noneSetBack_iff.mp h)))

theorem change_nonneg_iff [Rounding] [Exact] (hasUnitLabel : Bool)
    (honeWay : OneWay sub channels baseline start finish key) :
    0 ≤ change sub hasUnitLabel (counting channels key) baseline start finish ↔
      NoneSetBack sub channels baseline start finish key := by
  refine ⟨fun h => ?_, change_nonneg hasUnitLabel⟩
  by_contra hback
  unfold NoneSetBack at hback
  push Not at hback
  obtain ⟨row, hrow, hless⟩ := hback
  rw [setBack_iff] at hless
  -- Then none of the channels rose.
  have hfalls : ∀ other ∈ counting channels key,
      seen sub baseline finish other.2 ≤ seen sub baseline start other.2 := by
    rcases honeWay with halone | hnone
    · obtain ⟨only, honly⟩ := List.length_eq_one_iff.mp halone
      intro other hother
      rw [honly, List.mem_singleton] at hrow hother
      rw [hother, ← hrow]
      exact hless.le
    · exact noneSetBack_iff.mp hnone
  have hlt := joulesSum_lt hasUnitLabel _ hfalls ⟨row, hrow, hless⟩
  rw [change, Exact.fl_eq] at h
  linarith

end Change

section GoingBack
variable [Rounding] {b : AppleSoCBackend} {channels : List (Option Channel)} {sub : Int → Int → Int}
  {baseline start finish : ℕ → Int} {first last : IOReport}

/-- The metrics listed at construction are those some channel counts for. -/
theorem mem_availableMetrics (hbase : b.baselineSample = reading channels baseline) (key : String) :
    key ∈ b.availableMetrics ↔ counting channels key ≠ [] := by
  rw [b.discovered, mem_discoverMetrics, hbase, ← mem_parseEnergySample b.hasUnitLabel,
    Std.ExtTreeMap.mem_iff_isSome_getElem?, lookup_reading]
  by_cases hnone : counting channels key = []
  · simp [hnone]
  · simp [hnone]

/-- A metric of a delta is what its channels are seen to change by; one with no channels is
not in it. -/
theorem deltaBetween_nonneg_iff (hbase : b.baselineSample = reading channels baseline)
    (hfirst : Answers sub first channels start) (hlast : Answers sub last channels finish) (key : String) :
    (∀ delta, b.deltaBetween first last = .ok delta → ∀ v, delta[key]? = some v → 0 ≤ v) ↔
      (counting channels key ≠ [] →
        0 ≤ change sub b.hasUnitLabel (counting channels key) baseline start finish) := by
  obtain ⟨delta, hdelta, hlookup⟩ := lookup_deltaBetween hbase hfirst hlast
  constructor
  · intro h hcounted
    apply h delta hdelta
    rw [hlookup, if_neg hcounted]
  · intro h delta' hdelta' v hv
    obtain rfl : delta = delta' := Except.ok.inj (hdelta.symm.trans hdelta')
    rw [hlookup] at hv
    by_cases hnone : counting channels key = []
    · rw [if_pos hnone] at hv
      cases hv
    · rw [if_neg hnone] at hv
      rw [← Option.some.inj hv]
      exact h hnone

/-- Instant power is the same change over a positive time. -/
theorem getInstantPowerW_reading (hbase : b.baselineSample = reading channels baseline)
    (hfirst : Answers sub first channels start) (hlast : Answers sub last channels finish)
    (t1 t2 : Double) (key : String) :
    b.getInstantPowerW first last t1 t2 key =
      if counting channels key = [] then .error (.appleUnknownMetric key)
      else .ok (fl (change sub b.hasUnitLabel (counting channels key) baseline start finish /
        if fl (t2 - t1) ≤ 0 then fl (1 / 1000) else fl (t2 - t1))) := by
  unfold getInstantPowerW
  rw [snapshotEnergyJ_reading hbase hfirst, snapshotEnergyJ_reading hbase hlast]
  by_cases hnone : counting channels key = []
  · have hlookup : ∀ raw, (parseEnergySample b.hasUnitLabel (reading channels raw))[key]? = none := by
      intro raw
      rw [lookup_reading, if_pos hnone]
    simp only [bind, Except.bind, hlookup, if_pos hnone]
    rfl
  · have hlookup : ∀ raw, (parseEnergySample b.hasUnitLabel (reading channels raw))[key]? =
        some (joulesSum b.hasUnitLabel (counting channels key) (clamped raw)) := by
      intro raw
      rw [lookup_reading, if_neg hnone]
    simp only [bind, Except.bind, hlookup, if_neg hnone]
    rfl

/-- What instant power divides by. -/
theorem dt_pos (t1 t2 : Double) : 0 < if fl (t2 - t1) ≤ 0 then fl (1 / 1000) else fl (t2 - t1) := by
  split
  next => exact fl_pos _ (by norm_num)
  next hpos => exact not_le.mp hpos

theorem getInstantPowerW_nonneg (hbase : b.baselineSample = reading channels baseline)
    (hfirst : Answers sub first channels start) (hlast : Answers sub last channels finish) {key : String}
    (h : 0 ≤ change sub b.hasUnitLabel (counting channels key) baseline start finish)
    {t1 t2 v : Double} (hv : b.getInstantPowerW first last t1 t2 key = .ok v) : 0 ≤ v := by
  rw [getInstantPowerW_reading hbase hfirst hlast] at hv
  by_cases hnone : counting channels key = []
  · rw [if_pos hnone] at hv
    cases hv
  · rw [if_neg hnone] at hv
    rw [← Except.ok.inj hv]
    exact fl_nonneg (div_nonneg h (dt_pos t1 t2).le)

theorem change_nonneg_of_power [Exact] (hbase : b.baselineSample = reading channels baseline)
    (hfirst : Answers sub first channels start) (hlast : Answers sub last channels finish) {key : String}
    (h : ∀ t1 t2 v, b.getInstantPowerW first last t1 t2 key = .ok v → 0 ≤ v)
    (hcounted : counting channels key ≠ []) :
    0 ≤ change sub b.hasUnitLabel (counting channels key) baseline start finish := by
  have hpower := h 0 0 _ (by rw [getInstantPowerW_reading hbase hfirst hlast, if_neg hcounted])
  rw [Exact.fl_eq] at hpower
  have hchange := mul_nonneg hpower (dt_pos 0 0).le
  rwa [div_mul_cancel₀ _ (dt_pos 0 0).ne'] at hchange

end GoingBack

end AppleSoCBackend

end ZeusPower.Device
