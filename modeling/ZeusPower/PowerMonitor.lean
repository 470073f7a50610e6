import ZeusPower.Monitor.PowerQuery

/-! The facade (`power_monitor.h`).

`PowerMonitor` builds one backend for each device it is asked for, and an
`EnergyMonitor` and a `PowerQuery` over them. Which backends can be built is settled
by the platform the library was compiled for. -/
namespace ZeusPower
open Device Monitor

inductive DeviceType where
  | nvidiaGPU
  | jetsonSoC
  | appleSoC
  /-- A value that is none of the enumerators: the underlying type is `int`. -/
  | other (value : Int)
  deriving DecidableEq, Repr

/-- The targets the backends' `#if` guards tell apart. -/
inductive Platform where
  | linux
  | macosArm64
  | other
  deriving DecidableEq, Repr

structure PowerMonitorConfig where
  gpuIndices : List Int := []

/-- What the machine answers to the backends' constructors, at each turn of the loop
over the devices. -/
structure Machinery where
  platform : Platform
  nvmlCompiled : Bool
  nvml : ℕ → NvmlSetup
  jetsonAvailable : ℕ → Bool
  powerRails : ℕ → List PowerRail
  now : ℕ → Double
  ioreport : ℕ → IOReportSetup

structure PowerMonitor where
  energyMonitor : EnergyMonitor

namespace PowerMonitor

/-- One turn of the constructor's loop. A device asked for twice is built twice, and
the later backend is kept. -/
def addDevice (hw : Machinery) (cfg : PowerMonitorConfig) (backends : BackendPtrs)
    (turn : DeviceType × ℕ) : Except Error BackendPtrs :=
  let (dev, n) := turn
  match dev with
  | .nvidiaGPU => do
    let nvidia ← NvidiaGpuBackend.construct hw.nvmlCompiled (hw.nvml n) cfg.gpuIndices
    pure { backends with nvidia := some nvidia }
  | .jetsonSoC => do
    let jetson ← JetsonSoCBackend.construct (hw.platform == .linux) (hw.jetsonAvailable n)
      (hw.powerRails n) (hw.now n)
    pure { backends with jetson := some jetson }
  | .appleSoC => do
    let apple ← AppleSoCBackend.construct (hw.platform == .macosArm64) (hw.ioreport n)
    pure { backends with apple := some apple }
  | .other _ => throw .unknownDeviceType

def construct (hw : Machinery) (devices : List DeviceType) (cfg : PowerMonitorConfig) :
    Except Error PowerMonitor :=
  if devices.isEmpty then .error .noDeviceType
  else do
    let backends ← devices.zipIdx.foldlM (addDevice hw cfg) {}
    pure ⟨EnergyMonitor.construct backends⟩

/-- The queries: `PowerQuery` copies the pointers `EnergyMonitor` copies. -/
def powerQuery (m : PowerMonitor) : PowerQuery := ⟨m.energyMonitor.backends⟩

/-! ### What a constructor leaves -/

/-- Which backends a platform can have: no Jetson off Linux, no Apple off macOS. -/
def OnPlatform (platform : Platform) (backends : BackendPtrs) : Prop :=
  (backends.jetson ≠ none → platform = .linux) ∧ (backends.apple ≠ none → platform = .macosArm64)

theorem addDevice_onPlatform {hw : Machinery} {cfg : PowerMonitorConfig} {backends : BackendPtrs}
    {turn : DeviceType × ℕ} {backends' : BackendPtrs} (hon : OnPlatform hw.platform backends)
    (h : addDevice hw cfg backends turn = .ok backends') : OnPlatform hw.platform backends' := by
  obtain ⟨dev, n⟩ := turn
  cases dev with
  | nvidiaGPU =>
    obtain ⟨nvidia, -, h⟩ := Library.Fallible.bind_eq_ok.mp h
    cases h
    exact hon
  | jetsonSoC =>
    obtain ⟨jetson, hc, h⟩ := Library.Fallible.bind_eq_ok.mp h
    cases h
    refine ⟨fun _ => ?_, hon.2⟩
    cases hp : hw.platform with
    | linux => rfl
    | macosArm64 => rw [hp] at hc; cases hc
    | other => rw [hp] at hc; cases hc
  | appleSoC =>
    obtain ⟨apple, hc, h⟩ := Library.Fallible.bind_eq_ok.mp h
    cases h
    refine ⟨hon.1, fun _ => ?_⟩
    cases hp : hw.platform with
    | linux => rw [hp] at hc; cases hc
    | macosArm64 => rfl
    | other => rw [hp] at hc; cases hc
  | other value => cases h

/-- A monitor is one over the backends of its platform, with no window open. -/
theorem construct_ok {hw : Machinery} {devices : List DeviceType} {cfg : PowerMonitorConfig}
    {m : PowerMonitor} (h : construct hw devices cfg = .ok m) :
    ∃ backends, m.energyMonitor = .construct backends ∧ OnPlatform hw.platform backends := by
  unfold construct at h
  by_cases hempty : devices.isEmpty = true
  · rw [if_pos hempty] at h
    cases h
  · rw [if_neg hempty] at h
    obtain ⟨backends, hb, h⟩ := Library.Fallible.bind_eq_ok.mp h
    cases h
    refine ⟨backends, rfl, ?_⟩
    refine Library.Fallible.foldlM_rec (I := fun _ backends => OnPlatform hw.platform backends)
      ⟨fun h => absurd rfl h, fun h => absurd rfl h⟩ ?_ hb
    intro _ turn backends backends' hon hturn
    exact addDevice_onPlatform hon hturn

end PowerMonitor

end ZeusPower
