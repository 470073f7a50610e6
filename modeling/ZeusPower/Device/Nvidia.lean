import Mathlib.Data.List.Sort
import ZeusPower.Basic

/-! The NVIDIA GPU backend (`device/gpu_nvidia.h`).

NVML is the driver's, so what it answers is a parameter: a call of the library is
given the results of its reads, one for each turn of the loop over `gpuIndices`
that makes it, because two turns may ask the same GPU and get different answers.

GPUs from Volta on have a hardware energy counter and are measured by its
difference. Older ones are polled: the polling thread pushes one power sample a
turn, and a window integrates the samples whose timestamps lie in it. -/
namespace ZeusPower.Device

structure PowerSample where
  /-- seconds (monotonic) -/
  timestamp : Double
  gpuIndex : Int
  /-- Watts -/
  powerW : Double
  deriving DecidableEq, Repr

/-- `nvmlDevice_t`. -/
abbrev Handle := ℕ

/-- What NVML answers to the constructor, read by read. -/
structure NvmlSetup where
  init : Except String Unit
  deviceCount : Except String ℕ
  handleByIndex : ℕ → ℕ → Except String Handle
  architecture : ℕ → Handle → Except String ℕ

/-- What NVML answers to one call, at each turn of its loop. -/
structure NvmlReads where
  /-- `nvmlDeviceGetTotalEnergyConsumption`, in mJ -/
  totalEnergyConsumption : ℕ → Handle → Except String ℕ
  /-- `nvmlDeviceGetPowerUsage`, in mW -/
  powerUsage : ℕ → Handle → Except String ℕ
  /-- `nvmlDeviceGetPowerManagementLimit`, in mW -/
  powerManagementLimit : Handle → Except String ℕ

def nvmlCheck {α : Type} (result : Except String α) (context : String) : Except Error α :=
  result.mapError fun message => .nvml message context

theorem nvmlCheck_eq_ok {α : Type} {result : Except String α} {context : String} {a : α} :
    nvmlCheck result context = .ok a ↔ result = .ok a := by
  cases result with
  | error message =>
    constructor
    · intro h
      cases h
    · intro h
      cases h
  | ok found => exact ⟨fun h => congrArg Except.ok (Except.ok.inj h), fun h => congrArg Except.ok (Except.ok.inj h)⟩

structure NvidiaGpuBackend where
  gpuIndices : List Int
  handles : Map Int Handle
  supportsEnergy : Map Int Bool
  pollingActive : Bool
  samples : List PowerSample
  /-- Both maps have the monitored GPUs as their keys, and no other. -/
  mem_handles : ∀ g, g ∈ handles ↔ g ∈ gpuIndices
  mem_supportsEnergy : ∀ g, g ∈ supportsEnergy ↔ g ∈ gpuIndices

namespace NvidiaGpuBackend

/-! ### Construction -/

/-- The indices to monitor: those asked for, or all. -/
def resolveIndices (gpuIndices : List Int) (count : ℕ) : List Int :=
  if gpuIndices.isEmpty then (List.range count).map Int.ofNat else gpuIndices

/-- What the constructor's loop fills in. -/
structure Registration where
  handles : Map Int Handle
  supportsEnergy : Map Int Bool
  needPolling : Bool

/-- One turn of the constructor's loop. -/
def register (setup : NvmlSetup) (count : ℕ) (reg : Registration) (turn : Int × ℕ) :
    Except Error Registration :=
  let (idx, n) := turn
  if idx < 0 ∨ (count : Int) ≤ idx then .error (.gpuOutOfRange idx count)
  else do
    let handle ← nvmlCheck (setup.handleByIndex n idx.toNat) ""
    -- Volta (arch >= 5) and newer support the hardware energy counter; a failed
    -- query counts as not supported.
    let supports := match setup.architecture n handle with
      | .ok arch => decide (5 ≤ arch)
      | .error _ => false
    pure ⟨reg.handles.insert idx handle, reg.supportsEnergy.insert idx supports,
      reg.needPolling || !supports⟩

def registerAll (setup : NvmlSetup) (count : ℕ) (indices : List Int) : Except Error Registration :=
  indices.zipIdx.foldlM (register setup count) ⟨∅, ∅, false⟩

/-- A turn that completes adds its GPU to the keys of both maps. -/
theorem register_keys {setup : NvmlSetup} {count : ℕ} {reg reg' : Registration} {turn : Int × ℕ}
    (h : register setup count reg turn = .ok reg') (g : Int) :
    (g ∈ reg'.handles ↔ turn.1 = g ∨ g ∈ reg.handles) ∧
      (g ∈ reg'.supportsEnergy ↔ turn.1 = g ∨ g ∈ reg.supportsEnergy) := by
  unfold register at h
  dsimp only at h
  by_cases hrange : turn.1 < 0 ∨ (count : Int) ≤ turn.1
  · rw [if_pos hrange] at h
    cases h
  · rw [if_neg hrange] at h
    obtain ⟨handle, -, h⟩ := Library.Fallible.bind_eq_ok.mp h
    cases h
    simp only [Std.ExtTreeMap.mem_insert, Std.LawfulEqOrd.compare_eq_iff_eq, and_self]

/-- What each turn of the constructor's loop carries on, the whole loop does. -/
theorem registerAll_rec {setup : NvmlSetup} {count : ℕ} {I : List Int → Registration → Prop}
    (hinit : I [] ⟨∅, ∅, false⟩)
    (hturn : ∀ visited turn reg reg', I visited reg → register setup count reg turn = .ok reg' →
      I (visited ++ [turn.1]) reg')
    {indices : List Int} {reg : Registration} (h : registerAll setup count indices = .ok reg) :
    I indices reg := by
  have hloop : I (indices.zipIdx.map Prod.fst) reg := by
    refine Library.Fallible.foldlM_rec (I := fun done (reg : Registration) => I (done.map Prod.fst) reg)
      hinit ?_ h
    intro done turn reg reg' hdone hturn'
    rw [List.map_append]
    exact hturn _ turn reg reg' hdone hturn'
  rwa [List.zipIdx_map_fst] at hloop

theorem registerAll_keys {setup : NvmlSetup} {count : ℕ} {indices : List Int} {reg : Registration}
    (h : registerAll setup count indices = .ok reg) (g : Int) :
    (g ∈ reg.handles ↔ g ∈ indices) ∧ (g ∈ reg.supportsEnergy ↔ g ∈ indices) := by
  refine registerAll_rec (I := fun visited (reg : Registration) =>
    (g ∈ reg.handles ↔ g ∈ visited) ∧ (g ∈ reg.supportsEnergy ↔ g ∈ visited)) ?init ?turn h
  case init => simp only [Std.ExtTreeMap.not_mem_empty, List.not_mem_nil, and_self]
  case turn =>
    intro visited turn reg reg' hvisited hturn
    have hone := register_keys hturn g
    rw [hone.1, hone.2, hvisited.1, hvisited.2, List.mem_append, List.mem_singleton, eq_comm, or_comm,
      and_self]

def construct (compiled : Bool) (setup : NvmlSetup) (gpuIndices : List Int) :
    Except Error NvidiaGpuBackend := do
  if !compiled then
    throw .nvmlNotCompiled
  nvmlCheck setup.init "nvmlInit_v2"
  let count ← nvmlCheck setup.deviceCount ""
  let indices := resolveIndices gpuIndices count
  match h : registerAll setup count indices with
  | .error e => throw e
  | .ok reg =>
    pure ⟨indices, reg.handles, reg.supportsEnergy, reg.needPolling, [],
      fun g => (registerAll_keys h g).1, fun g => (registerAll_keys h g).2⟩

/-- A backend that was built has what the loop filled in, and no sample. -/
theorem construct_cases {compiled : Bool} {setup : NvmlSetup} {gpuIndices : List Int}
    {b : NvidiaGpuBackend} (h : construct compiled setup gpuIndices = .ok b) :
    ∃ count reg, setup.deviceCount = .ok count ∧
      registerAll setup count (resolveIndices gpuIndices count) = .ok reg ∧
      b.gpuIndices = resolveIndices gpuIndices count ∧ b.handles = reg.handles ∧
      b.supportsEnergy = reg.supportsEnergy ∧ b.pollingActive = reg.needPolling ∧ b.samples = [] := by
  unfold construct at h
  cases compiled with
  | false => cases h
  | true =>
    obtain ⟨-, -, h⟩ := Library.Fallible.bind_eq_ok.mp h
    obtain ⟨-, -, h⟩ := Library.Fallible.bind_eq_ok.mp h
    obtain ⟨count, hcount, h⟩ := Library.Fallible.bind_eq_ok.mp h
    dsimp only at h
    split at h
    next => cases h
    next reg hreg =>
      cases h
      exact ⟨count, reg, nvmlCheck_eq_ok.mp hcount, hreg, rfl, rfl, rfl, rfl, rfl⟩

/-! ### Queries -/

variable (b : NvidiaGpuBackend)

def getInstantPowerW [Rounding] (nvml : NvmlReads) (n : ℕ) (gpuIndex : Int) : Except Error Double :=
  match b.handles[gpuIndex]? with
  | none => .error (.notMonitored gpuIndex)
  | some handle => do
    let powerMw ← nvmlCheck (nvml.powerUsage n handle) "nvmlDeviceGetPowerUsage"
    pure (fl (powerMw / 1000))

def supportsEnergyCounter (gpuIndex : Int) : Bool :=
  match b.supportsEnergy[gpuIndex]? with
  | none => false
  | some supports => supports

def getPowerLimitW [Rounding] (nvml : NvmlReads) (gpuIndex : Int) : Except Error Double :=
  match b.handles[gpuIndex]? with
  | none => .error (.notMonitored gpuIndex)
  | some handle => do
    let limitMw ← nvmlCheck (nvml.powerManagementLimit handle) ""
    pure (fl (limitMw / 1000))

def getTotalEnergyMj [Rounding] (nvml : NvmlReads) (n : ℕ) (gpuIndex : Int) : Except Error Double :=
  match b.handles[gpuIndex]? with
  | none => .error (.notMonitored gpuIndex)
  | some handle => do
    let energyMj ← nvmlCheck (nvml.totalEnergyConsumption n handle)
      "nvmlDeviceGetTotalEnergyConsumption"
    pure (fl energyMj)

/-! ### Integration of polled samples -/

/-- `operator<=` of `std::pair<double, double>`: the order `std::sort` uses. -/
def pairLe (p q : Double × Double) : Prop := p.1 < q.1 ∨ p.1 = q.1 ∧ p.2 ≤ q.2

instance : DecidableRel pairLe := fun p q =>
  inferInstanceAs (Decidable (p.1 < q.1 ∨ p.1 = q.1 ∧ p.2 ≤ q.2))

/-- `std::sort` of a timeline. The order is total and antisymmetric, so every
sorting algorithm gives this list. -/
def sortTimeline (timeline : List (Double × Double)) : List (Double × Double) :=
  timeline.insertionSort pairLe

/-- The filter loop: a GPU's samples inside the window, ends included. -/
def timeline (gpuIndex : Int) (startTime endTime : Double) : List (Double × Double) :=
  b.samples.filterMap fun s =>
    if s.gpuIndex = gpuIndex ∧ startTime ≤ s.timestamp ∧ s.timestamp ≤ endTime then
      some (s.timestamp, s.powerW)
    else none

/-- The summation loop: one trapezoid for each `i` from 1. -/
def sumTrapezoids [Rounding] (timeline : List (Double × Double)) : Double :=
  (timeline.zip timeline.tail).foldl (fun energy (prev, cur) =>
    let dt := fl (cur.1 - prev.1)
    let avg := fl (fl (cur.2 + prev.2) / 2)
    fl (energy + fl (avg * dt))) 0

def computeEnergyFromSamples [Rounding] (gpuIndex : Int) (startTime endTime : Double) : Double :=
  let timeline := b.timeline gpuIndex startTime endTime
  if timeline.length < 2 then 0 else sumTrapezoids (sortTimeline timeline)

/-! ### Energy snapshots for windows -/

/-- The counter of one turn's GPU, if it has one. -/
def snapshotTurn [Rounding] (nvml : NvmlReads) (turn : Int × ℕ) : Except Error (Option Double) :=
  let (idx, n) := turn
  if b.supportsEnergyCounter idx then do
    let energyMj ← b.getTotalEnergyMj nvml n idx
    pure (some (fl (energyMj / 1000)))
  else pure none

def snapshotEnergyJ [Rounding] (nvml : NvmlReads) : Except Error (Map Int Double) :=
  Library.Map.writeEach Prod.fst (b.snapshotTurn nvml) ∅ b.gpuIndices.zipIdx

/-- A polled GPU's energy: the integral, or the instant power over the elapsed time
when there is nothing to integrate. -/
def polledEnergy [Rounding] (nvml : NvmlReads) (startTime endTime elapsedTime : Double) (turn : Int × ℕ) :
    Except Error Double := do
  let (idx, n) := turn
  let energy := b.computeEnergyFromSamples idx startTime endTime
  if energy ≤ 0 then
    let powerW ← b.getInstantPowerW nvml n idx
    pure (fl (powerW * elapsedTime))
  else pure energy

def deltaTurn [Rounding] (nvml : NvmlReads) (startSnap : Map Int Double)
    (startTime endTime elapsedTime : Double) (turn : Int × ℕ) : Except Error (Option Double) :=
  let (idx, n) := turn
  if b.supportsEnergyCounter idx then do
    let endE := fl ((← b.getTotalEnergyMj nvml n idx) / 1000)
    let startE := startSnap[idx]?.getD 0
    pure (some (fl (endE - startE)))
  else do
    let energy ← b.polledEnergy nvml startTime endTime elapsedTime turn
    pure (some energy)

def computeEnergyDeltaJ [Rounding] (nvml : NvmlReads) (startSnap : Map Int Double)
    (startTime endTime elapsedTime : Double) : Except Error (Map Int Double) :=
  Library.Map.writeEach Prod.fst (b.deltaTurn nvml startSnap startTime endTime elapsedTime) ∅
    b.gpuIndices.zipIdx

/-! ### Background polling -/

/-- One turn of a polling round that began at `ts`: read the GPU's power and push a
sample if it is positive. A failed read is swallowed. Without the polling thread
there is no turn. -/
def pollTurn [Rounding] (ts : Double) (nvml : NvmlReads) (n : ℕ) : NvidiaGpuBackend :=
  match hn : b.gpuIndices[n]? with
  | none => b
  | some idx =>
    if !b.pollingActive then b
    else
      -- `supports_energy_[idx]` inserts a missing entry.
      let b : NvidiaGpuBackend := { b with
        supportsEnergy := b.supportsEnergy.insertIfNew idx false
        mem_supportsEnergy := by
          intro g
          rw [Std.ExtTreeMap.mem_insertIfNew, Std.LawfulEqOrd.compare_eq_iff_eq, b.mem_supportsEnergy]
          constructor
          · intro h
            rcases h with rfl | h
            · exact List.mem_of_getElem? hn
            · exact h
          · exact Or.inr }
      if b.supportsEnergyCounter idx then b
      else
        match b.getInstantPowerW nvml n idx with
        | .error _ => b
        | .ok power =>
          if 0 < power then { b with samples := b.samples ++ [⟨ts, idx, power⟩] } else b

/-- A whole polling round. -/
def pollRound [Rounding] (ts : Double) (nvml : NvmlReads) : NvidiaGpuBackend :=
  (List.range b.gpuIndices.length).foldl (fun b n => b.pollTurn ts nvml n) b

end NvidiaGpuBackend

end ZeusPower.Device
