import Mathlib.Data.List.Sort
import ZeusPower.Basic
import ZeusPower.Library.Machine

/-! The Python original on GPUs (`zeus/monitor/energy.py`, `zeus/monitor/power.py`).

`ZeusMonitor` here has no CPU and no SoC, does not approximate by instant power, and
its windows are not cancelled. Older GPUs are sampled by another process, which sends
its samples through a queue; `PowerMonitor` moves them into one deque a GPU whenever it
is asked for a timeline. The queue and the deques are those of the one power domain
that `get_energy` reads. `auc` is scikit-learn's, and may raise `ValueError` (`none`).

The sampling process is a fresh one. It holds no GPUs yet, so it checks that they are of one
model before it is ready; its parent holds the GPUs already, and waits for it. -/
namespace ZeusPower.Reference
open Library

inductive Exception where
  | valueError (message : String)
  | keyError (index : Int)
  | runtimeError (message : String)
  /-- `ZeusGPUHeterogeneousError`, with the names of the GPUs. -/
  | heterogeneousError (gpuNames : List String)
  /-- An exception of the GPU library. -/
  | device (message : String)

/-! ### The GPUs of a process -/

inductive PowerDomain where
  | deviceInstant
  | deviceAverage
  | memoryAverage
  deriving DecidableEq

def PowerDomain.value : PowerDomain → String
  | deviceInstant => "device_instant"
  | deviceAverage => "device_average"
  | memoryAverage => "memory_average"

structure GPUs where
  names : List String

/-- What the monitor runs on. -/
structure Host where
  gpus : GPUs
  /-- The power that the first GPU answers in a domain. -/
  powerUsage : PowerDomain → Except Exception ℕ
  /-- `infer_counter_update_period` of some GPUs. -/
  inferCounterUpdatePeriod : List Int → Except Exception Double
  /-- Whether the process of a domain, if it raises nothing, is ready within 10 seconds. -/
  inTime : PowerDomain → Bool

namespace Host
variable (host : Host)

/-- The GPUs that a process holds are not checked again. -/
def getGpus (held : Option GPUs) (ensureHomogeneous : Bool) : Except Exception GPUs :=
  match held with
  | some gpus => .ok gpus
  | none =>
    if ensureHomogeneous ∧ 1 < host.gpus.names.dedup.length then .error (.heterogeneousError host.gpus.names)
    else .ok host.gpus

/-- Whether the polling process of a domain gets to `ready_event.set()` in time. -/
def ready (domain : PowerDomain) : Bool := (host.getGpus none true).isOk && host.inTime domain

/-- What a domain answers decides, whatever the exception. -/
def determineSupportedDomains : List PowerDomain :=
  [.deviceInstant, .deviceAverage, .memoryAverage].filter fun domain => (host.powerUsage domain).isOk

end Host

/-! ### The queue -/

structure PowerSample where
  timestamp : Double
  gpuIndex : Int
  powerMw : Double

/-- What the queue carries. -/
inductive Message where
  | sample (s : PowerSample)
  | stop

/-! ### The power monitor -/

/-- `deque.append`. -/
def append (samples : Map Int (List PowerSample)) (s : PowerSample) : Map Int (List PowerSample) :=
  samples.insert s.gpuIndex (samples[s.gpuIndex]?.getD [] ++ [s])

theorem mem_append {samples : Map Int (List PowerSample)} {s : PowerSample} (h : s.gpuIndex ∈ samples)
    (g : Int) : g ∈ append samples s ↔ g ∈ samples := by
  rw [append, Std.ExtTreeMap.mem_insert, Std.LawfulEqOrd.compare_eq_iff_eq]
  constructor
  · intro hg
    rcases hg with rfl | hg
    · exact h
    · exact hg
  · exact Or.inr

/-- `get_nowait` until the queue is empty or says stop. -/
def drain (samples : Map Int (List PowerSample)) : List Message →
    Map Int (List PowerSample) × List Message
  | [] => (samples, [])
  | .stop :: rest => (samples, rest)
  | .sample s :: rest => drain (append samples s) rest

theorem mem_drain {samples : Map Int (List PowerSample)} {queue : List Message}
    (h : ∀ s, .sample s ∈ queue → s.gpuIndex ∈ samples) (g : Int) :
    g ∈ (drain samples queue).1 ↔ g ∈ samples := by
  induction queue generalizing samples with
  | nil => rfl
  | cons message rest ih =>
    cases message with
    | stop => rfl
    | sample s =>
      have hs := mem_append (h s List.mem_cons_self)
      rw [drain, ih fun s' hs' => (hs _).mpr (h s' (List.mem_cons_of_mem _ hs')), hs]

theorem drain_subset (samples : Map Int (List PowerSample)) (queue : List Message) :
    (drain samples queue).2 ⊆ queue := by
  induction queue generalizing samples with
  | nil => exact List.Subset.refl []
  | cons message rest ih =>
    cases message with
    | stop => exact List.subset_cons_self _ rest
    | sample s => exact List.Subset.trans (ih _) (List.subset_cons_self _ rest)

structure PowerMonitor where
  gpuIndices : List Int
  measurementDomains : List PowerDomain
  samples : Map Int (List PowerSample)
  dataQueue : List Message
  /-- Every GPU has a deque, and there is no other. -/
  mem_samples : ∀ g, g ∈ samples ↔ g ∈ gpuIndices
  /-- The other process samples these GPUs only. -/
  mem_dataQueue : ∀ s, .sample s ∈ dataQueue → s.gpuIndex ∈ gpuIndices

namespace PowerMonitor

/-- With an empty deque a GPU. -/
def empty (gpuIndices : List Int) (measurementDomains : List PowerDomain) : PowerMonitor where
  gpuIndices := gpuIndices
  measurementDomains := measurementDomains
  samples := Map.fill (fun _ => some []) ∅ gpuIndices
  dataQueue := []
  mem_samples := by
    intro g
    rw [Std.ExtTreeMap.mem_iff_isSome_getElem?, Map.lookup_fill, Std.ExtTreeMap.getElem?_empty]
    by_cases hg : g ∈ gpuIndices
    · simp [hg]
    · simp [hg]
  mem_dataQueue := fun _ hs => absurd hs List.not_mem_nil

/-- `gpus` are those the process holds. The domains are waited for in the order of a set. -/
def construct (host : Host) (gpus : GPUs) (gpuIndices : List Int) : Except Exception PowerMonitor := do
  if gpuIndices.isEmpty then throw (.valueError "`gpu_indices` must be either `None` or non-empty")
  let _ ← host.getGpus (some gpus) true
  let _ ← host.inferCounterUpdatePeriod gpuIndices
  let measurementDomains := host.determineSupportedDomains
  match measurementDomains.find? fun domain => !host.ready domain with
  | some domain =>
    throw (.runtimeError ("Power monitor subprocess for " ++ domain.value ++
      " failed to start within 10 seconds"))
  | none => pure (empty gpuIndices measurementDomains)

variable (pm : PowerMonitor)

/-- The other process puts a sample of one of its GPUs. -/
def put (s : PowerSample) : PowerMonitor :=
  if h : s.gpuIndex ∈ pm.gpuIndices then
    { pm with
      dataQueue := pm.dataQueue ++ [.sample s]
      mem_dataQueue := by
        intro s' hs'
        rcases List.mem_append.mp hs' with hs' | hs'
        · exact pm.mem_dataQueue s' hs'
        · obtain rfl := Message.sample.inj (List.mem_singleton.mp hs')
          exact h }
  else pm

def processQueueData : PowerMonitor where
  gpuIndices := pm.gpuIndices
  measurementDomains := pm.measurementDomains
  samples := (drain pm.samples pm.dataQueue).1
  dataQueue := (drain pm.samples pm.dataQueue).2
  mem_samples := by
    intro g
    rw [mem_drain (fun s hs => (pm.mem_samples _).mpr (pm.mem_dataQueue s hs)), pm.mem_samples]
  mem_dataQueue := fun s hs => pm.mem_dataQueue s (drain_subset pm.samples pm.dataQueue hs)

/-- The key of `timeline.sort(key=lambda x: x[0])`. -/
def timeLe (p q : Double × Double) : Prop := p.1 ≤ q.1

instance : DecidableRel timeLe := fun p q => inferInstanceAs (Decidable (p.1 ≤ q.1))

/-- The samples of one deque that pass the filters, in Watts. -/
def timeline [Rounding] (startTime endTime : Option Double) (samples : List PowerSample) :
    List (Double × Double) :=
  samples.filterMap fun s =>
    if startTime.any fun start => s.timestamp < start then none
    else if endTime.any fun finish => finish < s.timestamp then none
    else some (s.timestamp, fl (s.powerMw / 1000))

/-- The sort is stable. -/
def getPowerTimeline [Rounding] (gpuIndex : Option Int) (startTime endTime : Option Double) :
    Map Int (List (Double × Double)) × PowerMonitor :=
  let pm := pm.processQueueData
  let targetGpus := match gpuIndex with
    | some g => [g]
    | none => pm.gpuIndices
  let result := Map.fill (fun g => pm.samples[g]?.map fun samples =>
    (timeline startTime endTime samples).insertionSort timeLe) ∅ targetGpus
  (result, pm)

/-- The energy of one timeline. -/
def timelineEnergy (auc : List Double → List Double → Option Double) (timeline : List (Double × Double)) :
    Double :=
  if timeline.length < 2 then 0
  else
    let timestamps := timeline.map fun t => t.1
    let powers := timeline.map fun t => t.2
    match auc timestamps powers with
    | some energy => energy
    | none => 0

def getEnergy [Rounding] (auc : List Double → List Double → Option Double) (startTime endTime : Double) :
    Except Exception (Option (Map Int Double)) × PowerMonitor :=
  if .deviceInstant ∈ pm.measurementDomains ∨ .deviceAverage ∈ pm.measurementDomains then
    let (timelines, pm) := pm.getPowerTimeline none (some startTime) (some endTime)
    if timelines.isEmpty then (.ok none, pm)
    else (.ok (some (Map.overwrite (fun _ timeline => timelineEnergy auc timeline) ∅ timelines)), pm)
  else
    (.error (.valueError ("Neither PowerDomain.DEVICE_INSTANT nor PowerDomain.DEVICE_AVERAGE is being " ++
      "monitored. Cannot compute energy usage.")), pm)

end PowerMonitor

/-! ### The monitor -/

structure MeasurementState where
  time : Double
  gpuEnergy : Map Int Double

structure Measurement where
  time : Double
  gpuEnergy : Map Int Double

structure ZeusMonitor where
  gpuIndices : List Int
  supportsGetTotalEnergyConsumption : Int → Bool
  measurementStates : Map String MeasurementState
  powerMonitor : Option PowerMonitor

/-- What one window call reads: the clock, and the energy counters (mJ). -/
structure Reads where
  now : Double
  getTotalEnergyConsumption : Int → Except Exception ℕ

namespace ZeusMonitor

/-- `NVML_DEVICE_ARCH_VOLTA` is 5. -/
def construct (host : Host) (held : Option GPUs) (gpuIndices : Option (List Int)) (architecture : Int → ℕ) :
    Except Exception ZeusMonitor := do
  let gpus ← host.getGpus held false
  let gpuIndices := gpuIndices.getD ((List.range gpus.names.length).map Int.ofNat)
  let supports := fun g => decide (5 ≤ architecture g)
  let oldGpuIndices := gpuIndices.filter fun g => !supports g
  if oldGpuIndices.isEmpty then pure ⟨gpuIndices, supports, ∅, none⟩
  else
    let powerMonitor ← PowerMonitor.construct host gpus oldGpuIndices
    pure ⟨gpuIndices, supports, ∅, some powerMonitor⟩

variable (m : ZeusMonitor)

/-- The counter of a GPU at the begin of a window, if it has one. -/
def beginEnergy [Rounding] (r : Reads) (g : Int) : Except Exception (Option Double) :=
  if m.supportsGetTotalEnergyConsumption g then do
    let energyMj ← r.getTotalEnergyConsumption g
    pure (some (fl (fl energyMj / 1000)))
  else pure none

/-- The counter's difference at the end of a window. -/
def endEnergy [Rounding] (r : Reads) (gpuStartEnergy : Map Int Double) (g : Int) :
    Except Exception (Option Double) :=
  if m.supportsGetTotalEnergyConsumption g then do
    let energyMj ← r.getTotalEnergyConsumption g
    match gpuStartEnergy[g]? with
    | none => throw (.keyError g)
    | some startEnergy => pure (some (fl (fl (fl energyMj / 1000) - startEnergy)))
  else pure none

/-- A fallback where the power monitor has no readings: `power` is empty. -/
def fallbackEnergy (pm : PowerMonitor) : Except Exception (Map Int Double) :=
  Map.writeEach id (fun g => .error (.keyError g)) ∅ pm.gpuIndices

def beginWindow [Rounding] (key : String) (r : Reads) : Except Exception Unit × ZeusMonitor :=
  if key ∈ m.measurementStates then
    (.error (.valueError ("Measurement window '" ++ key ++ "' already exists")), m)
  else
    let timestamp := r.now
    match Map.writeEach id (m.beginEnergy r) ∅ m.gpuIndices with
    | .error e => (.error e, m)
    | .ok gpuEnergyState =>
      let state : MeasurementState := ⟨timestamp, gpuEnergyState⟩
      (.ok (), { m with measurementStates := m.measurementStates.insert key state })

/-- The state is popped first, so an exception later loses it. -/
def endWindow [Rounding] (auc : List Double → List Double → Option Double) (key : String) (r : Reads) :
    Except Exception Measurement × ZeusMonitor :=
  match m.measurementStates[key]? with
  | none => (.error (.valueError ("Measurement window '" ++ key ++ "' does not exist")), m)
  | some measurementState =>
    let m := { m with measurementStates := m.measurementStates.erase key }
    let endTime := r.now
    let startTime := measurementState.time
    let timeConsumption := fl (endTime - startTime)
    match Map.writeEach id (m.endEnergy r measurementState.gpuEnergy) ∅ m.gpuIndices with
    | .error e => (.error e, m)
    | .ok gpuEnergyConsumption =>
      match m.powerMonitor with
      | none => (.ok ⟨timeConsumption, gpuEnergyConsumption⟩, m)
      | some pm =>
        let (energy, pm) := pm.getEnergy auc startTime endTime
        let m := { m with powerMonitor := some pm }
        match energy with
        | .error e => (.error e, m)
        | .ok (some energy) =>
          (.ok ⟨timeConsumption, Map.overwrite (fun _ v => v) gpuEnergyConsumption energy⟩, m)
        | .ok none =>
          match fallbackEnergy pm with
          | .error e => (.error e, m)
          | .ok energy =>
            (.ok ⟨timeConsumption, Map.overwrite (fun _ v => v) gpuEnergyConsumption energy⟩, m)

end ZeusMonitor

/-! ### The monitor in operation -/

inductive Event where
  | sample (s : PowerSample)
  | beginWindow (key : String) (r : Reads)
  | endWindow (key : String) (r : Reads)

inductive Outcome where
  | sampled
  | began (result : Except Exception Unit)
  | ended (result : Except Exception Measurement)

namespace ZeusMonitor

def step [Rounding] (auc : List Double → List Double → Option Double) (m : ZeusMonitor) :
    Event → Outcome × ZeusMonitor
  | .sample s => (.sampled, { m with powerMonitor := m.powerMonitor.map (·.put s) })
  | .beginWindow key r =>
    let (result, m) := m.beginWindow key r
    (.began result, m)
  | .endWindow key r =>
    let (result, m) := m.endWindow auc key r
    (.ended result, m)

def machine [Rounding] (auc : List Double → List Double → Option Double) : Machine ZeusMonitor Event Outcome :=
  ⟨step auc⟩

end ZeusMonitor

end ZeusPower.Reference
