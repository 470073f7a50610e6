import ZeusPower.Monitor.EnergyMonitor

/-! Instant queries (`monitor/power_query.h`).

A query asks the one backend that can answer it. `PowerQuery` holds the pointers
`EnergyMonitor` holds. -/
namespace ZeusPower.Monitor
open Device

/-- What one SoC power query reads: the sensor files, or two IOReport snapshots. -/
structure SocReads where
  sysfs : Sysfs
  ioreport1 : IOReport
  ioreport2 : IOReport
  t1 : Double
  t2 : Double

structure PowerQuery where
  backends : BackendPtrs

namespace PowerQuery
variable (q : PowerQuery)

/-! ### Power -/

def getInstantPower [Rounding] (nvml : NvmlReads) (gpuIndex : Int) : Except Error Double :=
  match q.backends.nvidia with
  | some nvidia => nvidia.getInstantPowerW nvml 0 gpuIndex
  | none => .error .noGpuBackend

def getPowerLimit [Rounding] (nvml : NvmlReads) (gpuIndex : Int) : Except Error Double :=
  match q.backends.nvidia with
  | some nvidia => nvidia.getPowerLimitW nvml gpuIndex
  | none => .error .powerLimitNvidiaOnly

/-- Jetson is asked first. -/
def getInstantSocPower [Rounding] (r : SocReads) (metric : String) : Except Error Double :=
  match q.backends.jetson, q.backends.apple with
  | some jetson, _ => jetson.getInstantPowerW r.sysfs metric
  | none, some apple => apple.getInstantPowerW r.ioreport1 r.ioreport2 r.t1 r.t2 metric
  | none, none => .error .noSocBackend

/-! ### Device info -/

def gpuIndices : List Int :=
  match q.backends.nvidia with
  | some nvidia => nvidia.gpuIndices
  | none => []

def socMetrics : Std.ExtTreeSet String :=
  let metrics : Std.ExtTreeSet String := match q.backends.jetson with
    | some jetson => jetson.availableMetrics
    | none => ∅
  match q.backends.apple with
    | some apple => metrics ∪ apple.availableMetrics
    | none => metrics

end PowerQuery

end ZeusPower.Monitor
