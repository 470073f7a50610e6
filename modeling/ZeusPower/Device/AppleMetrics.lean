import Mathlib.Tactic.Positivity
import ZeusPower.Device.Apple

/-! The metrics of an Apple sample.

Two walks over a channel array name metrics: parsing, which fills the maps of a
snapshot, and discovery, which fills the list the user sees. Both classify a channel
by its name alone, so samples that list the same channels have the same metrics
(`mem_snapshotEnergyJ`), whatever the values and units. -/
namespace ZeusPower.Device
open Library Rounding

/-- A channel of that name is in the sample's array. -/
def IOReportSample.Lists (sample : IOReportSample) (name : String) : Prop :=
  ∃ channels ch, sample.channels = some channels ∧ some ch ∈ channels ∧ ch.name = name

/-- The sample has a channel that is classified to `key`. -/
def IOReportSample.HasMetric (sample : IOReportSample) (key : String) : Prop :=
  key ≠ "" ∧ ∃ name, sample.Lists name ∧ AppleSoCBackend.classifyChannel name = key

/-- IOReport lists in the delta from `baseline` the channels `baseline` has. -/
def IOReport.KeepsChannels (ioreport : IOReport) (baseline : IOReportSample) : Prop :=
  ∀ current delta, ioreport.createSamples = some current →
    ioreport.createSamplesDelta baseline current = some delta →
    ∀ name, delta.Lists name ↔ baseline.Lists name

namespace AppleSoCBackend

/-! ### Parsing -/

/-- A summary is kept, and a metric without one has its individual total. -/
theorem lookup_mergeBuckets (buckets : Buckets) (key : String) :
    (mergeBuckets buckets)[key]? = buckets.summaryValues[key]?.or buckets.individualValues[key]? := by
  rw [mergeBuckets, Map.lookup_overwrite, Map.lookup_overwriteUnless, Option.map_id',
    Option.map_id', Std.ExtTreeMap.getElem?_empty, Option.or_none]
  cases hs : buckets.summaryValues[key]? with
  | none => rw [if_neg ((Map.not_mem_iff_lookup _ _).mpr hs)]
  | some joules => rfl

/-- A key is in one bucket or the other. -/
def Buckets.Has (buckets : Buckets) (key : String) : Prop :=
  key ∈ buckets.summaryValues ∨ key ∈ buckets.individualValues

theorem mem_mergeBuckets (buckets : Buckets) (key : String) :
    key ∈ mergeBuckets buckets ↔ buckets.Has key := by
  unfold Buckets.Has
  simp only [Std.ExtTreeMap.mem_iff_isSome_getElem?, lookup_mergeBuckets, Option.isSome_or,
    Bool.or_eq_true]

/-- `ch` is a channel of `key`: it has a name, classified to `key`. -/
def channelOf (key : String) (ch : Option Channel) : Prop :=
  ∃ c, ch = some c ∧ c.name ≠ "" ∧ classifyChannel c.name ≠ "" ∧ classifyChannel c.name = key

/-- One channel adds the key it is classified to, to one of the buckets. -/
theorem has_parseChannel [Rounding] (hasUnitLabel : Bool) (buckets : Buckets) (ch : Option Channel)
    (key : String) :
    (parseChannel hasUnitLabel buckets ch).Has key ↔ buckets.Has key ∨ channelOf key ch := by
  cases ch with
  | none => simp [parseChannel, channelOf]
  | some ch =>
    by_cases hname : ch.name = ""
    · simp [parseChannel, channelOf, hname]
    · by_cases hclass : classifyChannel ch.name = ""
      · simp [parseChannel, channelOf, hname, hclass]
      · have hch : channelOf key (some ch) ↔ classifyChannel ch.name = key := by
          unfold channelOf
          constructor
          · intro h
            obtain ⟨c, hc, -, -, hkey⟩ := h
            obtain rfl : ch = c := Option.some.inj hc
            exact hkey
          · intro hkey
            exact ⟨ch, rfl, hname, hclass, hkey⟩
        rw [hch]
        unfold parseChannel Buckets.Has
        simp only [String.isEmpty_iff, hname, hclass, if_false]
        by_cases hsummary : isSummaryChannel ch.name = true
        · simp only [hsummary, if_true, Std.ExtTreeMap.mem_insert, Std.LawfulEqOrd.compare_eq_iff_eq]
          rw [or_assoc, or_comm]
        · simp only [hsummary, Bool.false_eq_true, if_false, Std.ExtTreeMap.mem_insert,
            Std.LawfulEqOrd.compare_eq_iff_eq]
          rw [or_comm (a := classifyChannel ch.name = key), or_assoc]

theorem has_foldl_parseChannel [Rounding] (hasUnitLabel : Bool) (channels : List (Option Channel))
    (buckets : Buckets) (key : String) :
    (channels.foldl (parseChannel hasUnitLabel) buckets).Has key ↔
      buckets.Has key ∨ ∃ ch ∈ channels, channelOf key ch := by
  induction channels generalizing buckets with
  | nil => simp
  | cons ch channels ih =>
    rw [List.foldl_cons, ih, has_parseChannel, List.exists_mem_cons_iff, or_assoc]

/-! ### Units -/

/-- The Joules in one of each unit. -/
def unitFactors : List (String × Double) :=
  [("nJ", 1 / 10 ^ 9), ("µJ", 1 / 10 ^ 6), ("uJ", 1 / 10 ^ 6), ("mJ", 1 / 10 ^ 3), ("cJ", 1 / 10 ^ 2),
    ("dJ", 1 / 10), ("J", 1), ("daJ", 10), ("hJ", 10 ^ 2), ("kJ", 10 ^ 3), ("MJ", 10 ^ 6),
    ("GJ", 10 ^ 9), ("TJ", 10 ^ 12), ("PJ", 10 ^ 15)]

/-- A label the table does not have is taken for nJ. -/
def factorOf (unit : String) : Double := (unitFactors.lookup unit).getD (1 / 10 ^ 9)

theorem lookup_cons_getD (u : String) (factor : Double) (table : List (String × Double))
    (unit : String) (d : Double) : (((u, factor) :: table).lookup unit).getD d =
      if unit = u then factor else (table.lookup unit).getD d := by
  rw [List.lookup_cons]
  by_cases h : unit = u
  · rw [if_pos h, beq_iff_eq.mpr h]
    rfl
  · rw [if_neg h, beq_eq_false_iff_ne.mpr h]

theorem factorOf_pos (unit : String) : 0 < factorOf unit := by
  unfold factorOf unitFactors
  simp only [lookup_cons_getD, List.lookup_nil, Option.getD_none]
  positivity

/-- The chain of comparisons looks the unit up in the table. -/
theorem convertToJoules_eq [Rounding] (rawValue : Int) (unit : String) :
    convertToJoules rawValue unit = fl (fl rawValue * fl (factorOf unit)) := by
  unfold convertToJoules factorOf unitFactors
  simp only [lookup_cons_getD, List.lookup_nil, Option.getD_none, ite_or, fl_one, mul_one, fl_fl,
    apply_ite fun factor : Double => fl (fl rawValue * fl factor)]

/-! ### Values -/

theorem convertToJoules_nonneg [Rounding] {rawValue : Int} (h : 0 ≤ rawValue) (unit : String) :
    0 ≤ convertToJoules rawValue unit := by
  rw [convertToJoules_eq]
  exact fl_nonneg (mul_nonneg (fl_nonneg (Int.cast_nonneg h)) (fl_nonneg (factorOf_pos unit).le))

/-- No bucket holds a negative value: each is a sum of clamped readings. -/
def Buckets.Nonneg (buckets : Buckets) : Prop :=
  ∀ key : String, 0 ≤ buckets.summaryValues[key]?.getD 0 ∧ 0 ≤ buckets.individualValues[key]?.getD 0

theorem nonneg_parseChannel [Rounding] (hasUnitLabel : Bool) {buckets : Buckets} (h : buckets.Nonneg)
    (ch : Option Channel) : (parseChannel hasUnitLabel buckets ch).Nonneg := by
  unfold parseChannel
  split
  next => exact h
  next ch =>
    split
    next => exact h
    next =>
      dsimp only
      split
      next => exact h
      next =>
        have hraw : 0 ≤ if ch.value < 0 then 0 else ch.value := by split <;> omega
        have hjoules := convertToJoules_nonneg hraw (unitOf hasUnitLabel ch)
        split
        next =>
          intro key
          refine ⟨?_, (h key).2⟩
          rw [Map.lookup_insert]
          split
          next => exact hjoules
          next => exact (h key).1
        next =>
          intro key
          refine ⟨(h key).1, ?_⟩
          rw [Map.lookup_insert]
          split
          next => exact fl_nonneg (add_nonneg (h _).2 hjoules)
          next => exact (h key).2

theorem parseEnergySample_nonneg [Rounding] (hasUnitLabel : Bool) (sample : IOReportSample) (key : String) :
    0 ≤ (parseEnergySample hasUnitLabel sample)[key]?.getD 0 := by
  unfold parseEnergySample
  split
  next => simp
  next channels _ =>
    have hbuckets : (channels.foldl (parseChannel hasUnitLabel) ⟨∅, ∅⟩).Nonneg := by
      refine List.foldlRecOn channels _ ?_ ?_
      · intro key
        simp
      · intro buckets hb ch _
        exact nonneg_parseChannel hasUnitLabel hb ch
    rw [lookup_mergeBuckets]
    cases hs : (channels.foldl (parseChannel hasUnitLabel) ⟨∅, ∅⟩).summaryValues[key]? with
    | none => exact (hbuckets key).2
    | some joules =>
      have hsummary := (hbuckets key).1
      rw [hs] at hsummary
      exact hsummary

theorem snapshotEnergyJ_nonneg [Rounding] {b : AppleSoCBackend} {ioreport : IOReport} {snap : Map String Double}
    (h : b.snapshotEnergyJ ioreport = .ok snap) (key : String) : 0 ≤ snap[key]?.getD 0 := by
  unfold snapshotEnergyJ at h
  split at h
  next => cases h
  next =>
    split at h
    next => cases h
    next =>
      cases h
      exact parseEnergySample_nonneg _ _ key

/-! ### The two walks agree -/

/-- The empty name is classified to nothing. -/
theorem classifyChannel_empty : classifyChannel "" = "" := by decide

theorem hasMetric_iff {sample : IOReportSample} {channels : List (Option Channel)}
    (h : sample.channels = some channels) (key : String) :
    sample.HasMetric key ↔ ∃ ch ∈ channels, channelOf key ch := by
  unfold IOReportSample.HasMetric IOReportSample.Lists channelOf
  constructor
  · intro ⟨hkey, name, ⟨channels', ch, hchannels, hmem, hname⟩, hclass⟩
    obtain rfl : channels = channels' := Option.some.inj (h.symm.trans hchannels)
    subst hname
    refine ⟨some ch, hmem, ch, rfl, ?_, ?_, hclass⟩
    · intro hempty
      rw [hempty, classifyChannel_empty] at hclass
      exact hkey hclass.symm
    · rw [hclass]
      exact hkey
  · intro h'
    obtain ⟨ch, hmem, c, rfl, -, hne, hclass⟩ := h'
    exact ⟨hclass ▸ hne, c.name, ⟨channels, c, h, hmem, rfl⟩, hclass⟩

theorem mem_parseEnergySample [Rounding] (hasUnitLabel : Bool) (sample : IOReportSample) (key : String) :
    key ∈ parseEnergySample hasUnitLabel sample ↔ sample.HasMetric key := by
  unfold parseEnergySample
  cases h : sample.channels with
  | none =>
    simp [IOReportSample.HasMetric, IOReportSample.Lists, h]
  | some channels =>
    rw [mem_mergeBuckets, has_foldl_parseChannel, hasMetric_iff h]
    simp [Buckets.Has]

theorem mem_discoverMetrics (baseline : IOReportSample) (key : String) :
    key ∈ discoverMetrics baseline ↔ baseline.HasMetric key := by
  have hloop : ∀ {turn : Std.ExtTreeSet String → Option Channel → Std.ExtTreeSet String},
      (∀ metrics ch, key ∈ turn metrics ch ↔ key ∈ metrics ∨ channelOf key ch) →
      ∀ (channels : List (Option Channel)) metrics, key ∈ channels.foldl turn metrics ↔
        key ∈ metrics ∨ ∃ ch ∈ channels, channelOf key ch := by
    intro turn hturn channels
    induction channels with
    | nil => simp
    | cons ch channels ih =>
      intro metrics
      rw [List.foldl_cons, ih, List.exists_mem_cons_iff, ← or_assoc, hturn]
  unfold discoverMetrics
  cases h : baseline.channels with
  | none => simp [IOReportSample.HasMetric, IOReportSample.Lists, h]
  | some channels =>
    rw [hasMetric_iff h]
    refine (hloop ?_ channels ∅).trans (or_iff_right Std.ExtTreeSet.not_mem_empty)
    intro metrics ch
    cases ch with
    | none => simp [channelOf]
    | some ch =>
      by_cases hclass : classifyChannel ch.name = ""
      · simp [channelOf, hclass]
      · have hname : ch.name ≠ "" := fun hempty => hclass (hempty ▸ classifyChannel_empty)
        simp [channelOf, hclass, hname, or_comm]

/-- Where IOReport keeps the channels, every snapshot has the discovered metrics. -/
theorem mem_snapshotEnergyJ [Rounding] (b : AppleSoCBackend) {ioreport : IOReport} {snap : Map String Double}
    (hkeeps : ioreport.KeepsChannels b.baselineSample) (h : b.snapshotEnergyJ ioreport = .ok snap)
    (key : String) : key ∈ snap ↔ key ∈ b.availableMetrics := by
  unfold snapshotEnergyJ at h
  cases hc : ioreport.createSamples with
  | none => rw [hc] at h; cases h
  | some current =>
    simp only [hc] at h
    cases hd : ioreport.createSamplesDelta b.baselineSample current with
    | none => rw [hd] at h; cases h
    | some delta =>
      rw [hd] at h
      cases h
      rw [mem_parseEnergySample, b.discovered, mem_discoverMetrics]
      simp only [IOReportSample.HasMetric, hkeeps current delta hc hd]

/-! ### Failed reads -/

theorem snapshotEnergyJ_error [Rounding] {b : AppleSoCBackend} {ioreport : IOReport} {e : Error}
    (h : b.snapshotEnergyJ ioreport = .error e) :
    e = .appleSamplesFailed ∨ e = .appleSamplesDeltaFailed := by
  unfold snapshotEnergyJ at h
  split at h
  next => exact Or.inl (Except.error.inj h).symm
  next =>
    split at h
    next => exact Or.inr (Except.error.inj h).symm
    next => cases h

theorem computeEnergyDeltaJ_error [Rounding] {b : AppleSoCBackend} {ioreport : IOReport}
    {startSnap : Map String Double} {e : Error}
    (h : b.computeEnergyDeltaJ ioreport startSnap = .error e) :
    e = .appleSamplesFailed ∨ e = .appleSamplesDeltaFailed := by
  obtain hs | ⟨endSnap, -, h⟩ := Fallible.bind_eq_error.mp h
  · exact snapshotEnergyJ_error hs
  · cases h

/-- A query for a listed metric fails, if it does, at IOReport. -/
theorem getInstantPowerW_error [Rounding] {b : AppleSoCBackend} {ioreport1 ioreport2 : IOReport} {t1 t2 : Double}
    {metric : String} (hmetric : metric ∈ b.availableMetrics)
    (h₁ : ioreport1.KeepsChannels b.baselineSample) (h₂ : ioreport2.KeepsChannels b.baselineSample)
    {e : Error} (h : b.getInstantPowerW ioreport1 ioreport2 t1 t2 metric = .error e) :
    e = .appleSamplesFailed ∨ e = .appleSamplesDeltaFailed := by
  obtain hs | ⟨snap1, hsnap1, h⟩ := Fallible.bind_eq_error.mp h
  · exact snapshotEnergyJ_error hs
  · obtain hs | ⟨snap2, hsnap2, h⟩ := Fallible.bind_eq_error.mp h
    · exact snapshotEnergyJ_error hs
    · have hmem1 := (b.mem_snapshotEnergyJ h₁ hsnap1 metric).mpr hmetric
      have hmem2 := (b.mem_snapshotEnergyJ h₂ hsnap2 metric).mpr hmetric
      obtain ⟨e1, he1⟩ := (Map.mem_iff_lookup _ _).mp hmem1
      obtain ⟨e2, he2⟩ := (Map.mem_iff_lookup _ _).mp hmem2
      simp only [he1, he2] at h
      cases h

end AppleSoCBackend

end ZeusPower.Device
