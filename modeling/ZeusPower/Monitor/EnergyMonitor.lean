import ZeusPower.Device.Apple
import ZeusPower.Device.Jetson
import ZeusPower.Device.Nvidia

/-! Measurement windows (`monitor/energy_monitor.h`, `monitor/measurement.h`).

`beginWindow` takes a snapshot of every active backend and stores it under a key;
`endWindow` takes the difference from the stored snapshot and forgets the key. Both
are methods that may throw at any read, and keep whatever they had done by then.
`beginWindow_call` and `endWindow_call` say in one equation each what a call does. -/
namespace ZeusPower.Monitor
open Device Library

structure Measurement where
  gpuEnergy : Map Int Double
  socEnergy : Map String Double
  elapsedTime : Double

namespace Measurement

/-- `for (kv : energy) t += kv.second`. -/
def total [Rounding] {κ : Type} [Ord κ] [Std.TransOrd κ] (energy : Map κ Double) : Double :=
  energy.foldl (fun t _ e => fl (t + e)) 0

def totalGpuEnergy [Rounding] (m : Measurement) : Double := total m.gpuEnergy

def totalSocEnergy [Rounding] (m : Measurement) : Double := total m.socEnergy

theorem total_eq [Rounding] {κ : Type} [Ord κ] [Std.TransOrd κ] (energy : Map κ Double) :
    total energy = Rounding.sum (energy.toList.map Prod.snd) := by
  rw [total, Std.ExtTreeMap.foldl_eq_foldl_toList, Rounding.sum, List.foldl_map]

end Measurement

/-- The active backends; `none` is a null pointer. -/
structure BackendPtrs where
  nvidia : Option NvidiaGpuBackend := none
  jetson : Option JetsonSoCBackend := none
  apple : Option AppleSoCBackend := none

structure WindowState where
  startTime : Double
  nvidiaSnap : Map Int Double
  jetsonSnap : Map String Double
  appleSnap : Map String Double

structure EnergyMonitor where
  backends : BackendPtrs
  windows : Map String WindowState

/-- What one window call reads from outside the library: the clock, and the answers
of the driver and of the system. -/
structure Reads where
  now : Double
  nvml : NvmlReads
  ioreport : IOReport

namespace EnergyMonitor

def construct (backends : BackendPtrs) : EnergyMonitor := ⟨backends, ∅⟩

def beginWindow [Rounding] (key : String) (r : Reads) : Method EnergyMonitor Unit := do
  let self ← get
  if key ∈ self.windows then
    throw (.windowActive key)
  else
    let startTime := r.now
    let nvidiaSnap ← match self.backends.nvidia with
      | some nvidia => Method.ofExcept (nvidia.snapshotEnergyJ r.nvml)
      | none => pure ∅
    let jetsonSnap := match self.backends.jetson with
      | some jetson => jetson.snapshotEnergyJ
      | none => ∅
    let appleSnap ← match self.backends.apple with
      | some apple => Method.ofExcept (apple.snapshotEnergyJ r.ioreport)
      | none => pure ∅
    let state : WindowState := ⟨startTime, nvidiaSnap, jetsonSnap, appleSnap⟩
    modify fun self => { self with windows := self.windows.insert key state }

def endWindow [Rounding] (key : String) (r : Reads) : Method EnergyMonitor Measurement := do
  let self ← get
  match self.windows[key]? with
  | none => throw (.windowNotFound key)
  | some state =>
    let endTime := r.now
    let elapsedTime := fl (endTime - state.startTime)
    let gpuEnergy ← match self.backends.nvidia with
      | some nvidia => do
        let gpuDelta ← Method.ofExcept
          (nvidia.computeEnergyDeltaJ r.nvml state.nvidiaSnap state.startTime endTime elapsedTime)
        pure (Map.overwrite (fun _ v => v) ∅ gpuDelta)
      | none => pure ∅
    let socEnergy := match self.backends.jetson with
      | some jetson =>
        Map.overwrite (fun _ v => v) ∅ (jetson.computeEnergyDeltaJ state.jetsonSnap)
      | none => ∅
    let socEnergy ← match self.backends.apple with
      | some apple => do
        let socDelta ← Method.ofExcept (apple.computeEnergyDeltaJ r.ioreport state.appleSnap)
        pure (Map.overwrite (fun _ v => v) socEnergy socDelta)
      | none => pure socEnergy
    modify fun self => { self with windows := self.windows.erase key }
    pure ⟨gpuEnergy, socEnergy, elapsedTime⟩

end EnergyMonitor

/-! ### What a call reads, and what it does -/

namespace BackendPtrs
variable (backends : BackendPtrs)

/-- A null backend reads as no entries. -/
def readNvidia (read : NvidiaGpuBackend → Except Error (Map Int Double)) :
    Except Error (Map Int Double) :=
  match backends.nvidia with
  | some nvidia => read nvidia
  | none => .ok ∅

def readJetson (read : JetsonSoCBackend → Map String Double) : Map String Double :=
  match backends.jetson with
  | some jetson => read jetson
  | none => ∅

def readApple (read : AppleSoCBackend → Except Error (Map String Double)) :
    Except Error (Map String Double) :=
  match backends.apple with
  | some apple => read apple
  | none => .ok ∅

/-- Everything `beginWindow` reads. -/
def takeSnapshots [Rounding] (r : Reads) : Except Error WindowState := do
  let nvidiaSnap ← backends.readNvidia (·.snapshotEnergyJ r.nvml)
  let appleSnap ← backends.readApple (·.snapshotEnergyJ r.ioreport)
  pure ⟨r.now, nvidiaSnap, backends.readJetson (·.snapshotEnergyJ), appleSnap⟩

/-- Everything `endWindow` reads, against a stored window. -/
def measure [Rounding] (state : WindowState) (r : Reads) : Except Error Measurement := do
  let gpuDelta ← backends.readNvidia
    (·.computeEnergyDeltaJ r.nvml state.nvidiaSnap state.startTime r.now (fl (r.now - state.startTime)))
  let socDelta ← backends.readApple (·.computeEnergyDeltaJ r.ioreport state.appleSnap)
  let jetsonDelta := backends.readJetson (·.computeEnergyDeltaJ state.jetsonSnap)
  pure ⟨gpuDelta, Map.overwrite (fun _ v => v) jetsonDelta socDelta, fl (r.now - state.startTime)⟩

end BackendPtrs

namespace EnergyMonitor
variable (key : String) (r : Reads) (m : EnergyMonitor)

/-- A begin stores the snapshots under a new key, or throws and changes nothing. -/
theorem beginWindow_call [Rounding] :
    (beginWindow key r).call m =
      if key ∈ m.windows then (.error (.windowActive key), m)
      else match m.backends.takeSnapshots r with
        | .ok state => (.ok (), { m with windows := m.windows.insert key state })
        | .error e => (.error e, m) := by
  obtain ⟨⟨nvidia, jetson, apple⟩, windows⟩ := m
  by_cases hkey : key ∈ windows
  · simp [beginWindow, hkey]
  · simp only [beginWindow, BackendPtrs.takeSnapshots, BackendPtrs.readNvidia,
      BackendPtrs.readApple, BackendPtrs.readJetson, Method.call_bind, Method.call_get, hkey, if_false]
    rcases nvidia with _ | nvidia
    · rcases apple with _ | apple
      · rfl
      · dsimp only
        rcases apple.snapshotEnergyJ r.ioreport with e | appleSnap <;> rfl
    · dsimp only
      rcases nvidia.snapshotEnergyJ r.nvml with e | nvidiaSnap
      · rfl
      · rcases apple with _ | apple
        · rfl
        · dsimp only
          rcases apple.snapshotEnergyJ r.ioreport with e | appleSnap <;> rfl

/-- An end measures against the stored window and forgets it, or throws and changes
nothing. -/
theorem endWindow_call [Rounding] :
    (endWindow key r).call m =
      match m.windows[key]? with
      | none => (.error (.windowNotFound key), m)
      | some state => match m.backends.measure state r with
        | .ok result => (.ok result, { m with windows := m.windows.erase key })
        | .error e => (.error e, m) := by
  obtain ⟨⟨nvidia, jetson, apple⟩, windows⟩ := m
  -- The loops that copy a delta into the result copy all of it.
  simp only [endWindow, BackendPtrs.measure, BackendPtrs.readNvidia, BackendPtrs.readApple,
    BackendPtrs.readJetson, Method.call_bind, Method.call_get, Map.overwrite_copy]
  cases windows[key]? with
  | none => rfl
  | some state =>
    rcases jetson with _ | jetson <;> rcases apple with _ | apple
    case none.none | some.none =>
      rcases nvidia with _ | nvidia
      · rfl
      · simp only [Method.call_bind, Method.call_ofExcept, Method.call_pure]
        rcases nvidia.computeEnergyDeltaJ r.nvml state.nvidiaSnap state.startTime r.now
          (fl (r.now - state.startTime)) with e | gpuDelta <;> rfl
    all_goals
      rcases nvidia with _ | nvidia
      · simp only [Method.call_bind, Method.call_ofExcept, Method.call_pure]
        rcases apple.computeEnergyDeltaJ r.ioreport state.appleSnap with e | socDelta <;> rfl
      · simp only [Method.call_bind, Method.call_ofExcept, Method.call_pure]
        rcases nvidia.computeEnergyDeltaJ r.nvml state.nvidiaSnap state.startTime r.now
          (fl (r.now - state.startTime)) with e | gpuDelta
        · rfl
        · rcases apple.computeEnergyDeltaJ r.ioreport state.appleSnap with e | socDelta <;> rfl

end EnergyMonitor

end ZeusPower.Monitor
