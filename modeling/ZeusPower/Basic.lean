import ZeusPower.Library.Fallible
import ZeusPower.Library.OrderedMap
import ZeusPower.Library.Rounding

/-! What every part of the model shares: numbers, errors and methods.

A `double` is a rational, and what an operation makes of doubles is rounded (`Rounding`); none
overflows. An exception carries the reason the code throws it
for, and `Error.what` is its text. A `const` method returns a value or throws
(`Except Error`); a method that may change its object is a `Method`, which keeps the
object as it stands when an exception leaves it: nothing is rolled back. -/
namespace ZeusPower

export Library (Map Rounding Exact)
export Library.Rounding (fl)

abbrev Double := ℚ

inductive Error where
  | nvml (message context : String)
  | gpuOutOfRange (index : Int) (count : ℕ)
  | nvmlNotCompiled
  | notMonitored (index : Int)
  | jetsonRequiresLinux
  | jetsonNotDetected
  | noPowerRails
  | cannotReadSysfs (path : String)
  | jetsonUnknownMetric (metric : String)
  | appleRequiresMacos
  | appleCannotLoad
  | appleFunctionsMissing
  | appleNoChannels
  | appleSubscriptionFailed
  | appleBaselineFailed
  | appleNoMetrics
  | appleSamplesFailed
  | appleSamplesDeltaFailed
  | appleUnknownMetric (metric : String)
  | windowActive (key : String)
  | windowNotFound (key : String)
  | noDeviceType
  | unknownDeviceType
  | noGpuBackend
  | powerLimitNvidiaOnly
  | noSocBackend
  deriving DecidableEq, Repr

/-- The key asked for is not one the backend knows. -/
def Error.unknownKey : Error → Bool
  | notMonitored _ | jetsonUnknownMetric _ | appleUnknownMetric _ => true
  | _ => false

/-- The text of the `std::runtime_error`. -/
def Error.what : Error → String
  | nvml message context =>
    "NVML Error: " ++ message ++ if context.isEmpty then "" else " [" ++ context ++ "]"
  | gpuOutOfRange index count =>
    "GPU " ++ toString index ++ " out of range [0, " ++ toString count ++ ")"
  | nvmlNotCompiled =>
    "NVIDIA GPU monitoring requested but NVML was not compiled. " ++
    "Rebuild with ZEUS_USE_NVML=ON (CMake) or ensure <nvml.h> is available."
  | notMonitored index => "GPU " ++ toString index ++ " not monitored"
  | jetsonRequiresLinux => "Jetson SoC monitoring requires Linux (aarch64 Jetson platform)."
  | jetsonNotDetected =>
    "Jetson SoC monitoring requested but no Jetson device detected. " ++
    "Requires /usr/lib/aarch64-linux-gnu/tegra or /etc/nv_tegra_release " ++
    "and /sys/bus/i2c/drivers/ina3221 (or ina3221x)."
  | noPowerRails => "Jetson SoC detected but no INA3221 power rails found."
  | cannotReadSysfs path => "Cannot read sysfs: " ++ path
  | jetsonUnknownMetric metric =>
    "Jetson SoC: unknown metric '" ++ metric ++ "' for power query"
  | appleRequiresMacos =>
    "Apple Silicon SoC monitoring requires macOS on ARM64. " ++
    "Current platform is not supported."
  | appleCannotLoad =>
    "Apple SoC: cannot load IOReport from IOKit.framework. " ++
    "Ensure you are running macOS on Apple Silicon."
  | appleFunctionsMissing =>
    "Apple SoC: required IOReport functions not found in IOKit. " ++
    "This macOS version may not expose IOReport energy APIs."
  | appleNoChannels =>
    "Apple SoC: IOReportCopyChannelsInGroup('Energy Model') " ++
    "returned null.  No energy channels on this device."
  | appleSubscriptionFailed => "Apple SoC: IOReportCreateSubscription failed."
  | appleBaselineFailed => "Apple SoC: failed to take baseline energy sample."
  | appleNoMetrics =>
    "Apple SoC: no recognisable energy channels found.  " ++
    "This Apple Silicon model may not be fully supported."
  | appleSamplesFailed => "Apple SoC: IOReportCreateSamples failed."
  | appleSamplesDeltaFailed => "Apple SoC: IOReportCreateSamplesDelta failed."
  | appleUnknownMetric metric => "Apple SoC: unknown metric '" ++ metric ++ "'"
  | windowActive key =>
    "Window '" ++ key ++ "' already active. Call end_window(\"" ++ key ++ "\") first."
  | windowNotFound key =>
    "Window '" ++ key ++ "' not found. Call begin_window(\"" ++ key ++ "\") first."
  | noDeviceType => "PowerMonitor: at least one DeviceType must be specified."
  | unknownDeviceType => "PowerMonitor: unknown DeviceType value."
  | noGpuBackend => "No GPU backend available for power query"
  | powerLimitNvidiaOnly => "Power limit query only available on NVIDIA GPUs"
  | noSocBackend => "No SoC backend available for power query"

/-- A method of an object of type `σ`: the object is left as it stands when an
exception is thrown. -/
abbrev Method (σ α : Type) := ExceptT Error (StateM σ) α

namespace Method
variable {σ α : Type}

/-- Call a method: what it returns or throws, and the object after the call. -/
def call (f : Method σ α) (s : σ) : Except Error α × σ := (ExceptT.run f).run s

/-- A call of a `const` method of a part of the object. -/
def ofExcept (x : Except Error α) : Method σ α := ExceptT.mk (pure x)

@[simp] theorem call_pure (a : α) (s : σ) : (pure a : Method σ α).call s = (.ok a, s) := rfl

@[simp] theorem call_throw (e : Error) (s : σ) : (throw e : Method σ α).call s = (.error e, s) := rfl

@[simp] theorem call_ofExcept (x : Except Error α) (s : σ) : (ofExcept x).call s = (x, s) := rfl

@[simp] theorem call_get (s : σ) : (get : Method σ σ).call s = (.ok s, s) := rfl

@[simp] theorem call_modify (f : σ → σ) (s : σ) :
    (modify f : Method σ PUnit).call s = (.ok ⟨⟩, f s) := rfl

/-- A sequence stops at an exception, with the object as the first part left it. -/
@[simp] theorem call_bind {β : Type} (f : Method σ α) (g : α → Method σ β) (s : σ) :
    (f >>= g).call s =
      match f.call s with
      | (.ok a, s') => (g a).call s'
      | (.error e, s') => (.error e, s') := by
  simp only [call, ExceptT.run, bind, ExceptT.bind, ExceptT.mk, StateT.bind, StateT.run]
  rcases f s with ⟨_ | _, _⟩ <;> rfl

end Method

end ZeusPower
