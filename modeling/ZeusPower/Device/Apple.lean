import Mathlib.Data.List.Infix
import ZeusPower.Basic

/-! The Apple Silicon backend (`device/soc_apple.h`).

IOReport is the system's: the samples it creates and the delta it takes are
parameters. A sample is the array of channels under "IOReportChannels"; each channel
has a name, a unit label and a raw value. Parsing classifies each channel by its
name, converts its value by its unit, and keeps the hardware's own summary of a
metric in place of the sum over its individual channels. -/
namespace ZeusPower.Device

/-- One channel as the accessors see it. A null name reads as the empty string. -/
structure Channel where
  name : String
  unitLabel : Option String
  /-- `IOReportSimpleGetIntegerValue` -/
  value : Int
  deriving DecidableEq, Repr

/-- A sample's channel array, `none` where the dictionary has no array; an entry
may be null. -/
structure IOReportSample where
  channels : Option (List (Option Channel))
  deriving DecidableEq, Repr

/-- What IOReport answers to one snapshot. -/
structure IOReport where
  createSamples : Option IOReportSample
  createSamplesDelta : IOReportSample → IOReportSample → Option IOReportSample

/-- What IOReport answers to the constructor. -/
structure IOReportSetup where
  loads : Bool
  functionsFound : Bool
  copyChannels : Bool
  createSubscription : Bool
  baseline : Option IOReportSample
  /-- `IOReportChannelGetUnitLabel` is optional -/
  hasUnitLabel : Bool

namespace AppleSoCBackend

/-! ### Units and names -/

def convertToJoules [Rounding] (rawValue : Int) (unit : String) : Double :=
  let val : Double := fl rawValue
  if unit = "nJ" then fl (val * fl (1 / 10 ^ 9))
  else if unit = "µJ" ∨ unit = "uJ" then fl (val * fl (1 / 10 ^ 6))
  else if unit = "mJ" then fl (val * fl (1 / 10 ^ 3))
  else if unit = "cJ" then fl (val * fl (1 / 10 ^ 2))
  else if unit = "dJ" then fl (val * fl (1 / 10))
  else if unit = "J" then val
  else if unit = "daJ" then fl (val * fl 10)
  else if unit = "hJ" then fl (val * fl (10 ^ 2))
  else if unit = "kJ" then fl (val * fl (10 ^ 3))
  else if unit = "MJ" then fl (val * fl (10 ^ 6))
  else if unit = "GJ" then fl (val * fl (10 ^ 9))
  else if unit = "TJ" then fl (val * fl (10 ^ 12))
  else if unit = "PJ" then fl (val * fl (10 ^ 15))
  -- Fallback: assume nJ
  else fl (val * fl (1 / 10 ^ 9))

/-- `to_lower`: `tolower` in the C locale changes ASCII letters only. -/
def toLower (s : String) : List Char := s.toList.map Char.toLower

/-- `low.find(part) != npos`. -/
def contains (low : List Char) (part : String) : Bool := decide (part.toList <:+: low)

def isSummaryChannel (name : String) : Bool :=
  let low := toLower name
  low == "cpu energy".toList || low == "gpu energy".toList

/-- The metric a channel belongs to; `""` for a channel of none. -/
def classifyChannel (name : String) : String :=
  let low := toLower name
  if low == "cpu energy".toList then "apple_cpu_total"
  else if contains low "ecpu" || contains low "pcpu" || contains low "eacc" ||
      contains low "pacc" || contains low "cpm" then "apple_cpu_total"
  -- GPU SRAM, before generic "gpu"
  else if contains low "gpu" && contains low "sram" then "apple_gpu_sram"
  else if low == "gpu energy".toList then "apple_gpu"
  else if contains low "gpu" then "apple_gpu"
  else if contains low "dram" then "apple_dram"
  else if contains low "ane" then "apple_ane"
  else ""

/-! ### Parsing -/

/-- A channel's unit: its own label if there is one that is not empty, else nJ. -/
def unitOf (hasUnitLabel : Bool) (ch : Channel) : String :=
  match ch.unitLabel with
  | some u => if hasUnitLabel && !u.isEmpty then u else "nJ"
  | none => "nJ"

/-- The two buckets of `parse_energy_sample`. -/
structure Buckets where
  summaryValues : Map String Double
  individualValues : Map String Double

/-- One channel of the array. -/
def parseChannel [Rounding] (hasUnitLabel : Bool) (buckets : Buckets) : Option Channel → Buckets
  | none => buckets
  | some ch =>
    if ch.name.isEmpty then buckets
    else
      let key := classifyChannel ch.name
      if key.isEmpty then buckets
      else
        -- guard against negative deltas
        let raw := if ch.value < 0 then 0 else ch.value
        let joules := convertToJoules raw (unitOf hasUnitLabel ch)
        if isSummaryChannel ch.name then
          { buckets with summaryValues := buckets.summaryValues.insert key joules }
        else
          let individual := fl (buckets.individualValues[key]?.getD 0 + joules)
          { buckets with individualValues := buckets.individualValues.insert key individual }

/-- The merge: individual totals for metrics without a summary, then the summaries. -/
def mergeBuckets (buckets : Buckets) : Map String Double :=
  let result := Library.Map.overwriteUnless (· ∈ buckets.summaryValues) (fun _ value => value) ∅
    buckets.individualValues
  Library.Map.overwrite (fun _ value => value) result buckets.summaryValues

def parseEnergySample [Rounding] (hasUnitLabel : Bool) (sample : IOReportSample) : Map String Double :=
  match sample.channels with
  | none => ∅
  | some channels => mergeBuckets (channels.foldl (parseChannel hasUnitLabel) ⟨∅, ∅⟩)

/-- The metrics of the channels of a sample. -/
def discoverMetrics (baseline : IOReportSample) : Std.ExtTreeSet String :=
  match baseline.channels with
  | none => ∅
  | some channels => channels.foldl (fun metrics ch =>
      match ch with
      | none => metrics
      | some ch =>
        let key := classifyChannel ch.name
        if key.isEmpty then metrics else metrics.insert key) ∅

end AppleSoCBackend

structure AppleSoCBackend where
  baselineSample : IOReportSample
  hasUnitLabel : Bool
  availableMetrics : Std.ExtTreeSet String
  /-- The metrics are those of the baseline's channels. -/
  discovered : availableMetrics = AppleSoCBackend.discoverMetrics baselineSample

namespace AppleSoCBackend

/-! ### Construction -/

/-- The backend of a baseline, its metrics discovered. -/
def ofBaseline (hasUnitLabel : Bool) (baseline : IOReportSample) : AppleSoCBackend :=
  ⟨baseline, hasUnitLabel, discoverMetrics baseline, rfl⟩

def construct (macosArm64 : Bool) (setup : IOReportSetup) : Except Error AppleSoCBackend := do
  if !macosArm64 then
    throw .appleRequiresMacos
  if !setup.loads then
    throw .appleCannotLoad
  if !setup.functionsFound then
    throw .appleFunctionsMissing
  if !setup.copyChannels then
    throw .appleNoChannels
  if !setup.createSubscription then
    throw .appleSubscriptionFailed
  match setup.baseline with
  | none => throw .appleBaselineFailed
  | some baseline =>
    if (discoverMetrics baseline).isEmpty then
      throw .appleNoMetrics
    pure (ofBaseline setup.hasUnitLabel baseline)

/-! ### Queries -/

variable (b : AppleSoCBackend)

/-- Energy since construction: a fresh sample, its delta from the baseline, parsed. -/
def snapshotEnergyJ [Rounding] (ioreport : IOReport) : Except Error (Map String Double) :=
  match ioreport.createSamples with
  | none => .error .appleSamplesFailed
  | some current =>
    match ioreport.createSamplesDelta b.baselineSample current with
    | none => .error .appleSamplesDeltaFailed
    | some delta => .ok (parseEnergySample b.hasUnitLabel delta)

def computeEnergyDeltaJ [Rounding] (ioreport : IOReport) (startSnap : Map String Double) :
    Except Error (Map String Double) := do
  let endSnap ← b.snapshotEnergyJ ioreport
  pure (Library.Map.overwrite (fun key endE => fl (endE - startSnap[key]?.getD 0)) ∅ endSnap)

/-- Two snapshots, taken at the times `t1` and `t2` of the steady clock. -/
def getInstantPowerW [Rounding] (ioreport1 ioreport2 : IOReport) (t1 t2 : Double) (metric : String) :
    Except Error Double := do
  let snap1 ← b.snapshotEnergyJ ioreport1
  let snap2 ← b.snapshotEnergyJ ioreport2
  match snap1[metric]?, snap2[metric]? with
  | some e1, some e2 =>
    let dt := if fl (t2 - t1) ≤ 0 then fl (1 / 1000) else fl (t2 - t1)
    pure (fl (fl (e2 - e1) / dt))
  | _, _ => throw (.appleUnknownMetric metric)

end AppleSoCBackend

end ZeusPower.Device
