import ZeusPower.Device.NvidiaReadings
import ZeusPower.Library.Machine
import ZeusPower.Monitor.EnergyMonitor

/-! The monitor in operation.

A run interleaves four kinds of event: a turn of the NVIDIA polling thread, a round
of the Jetson polling thread, and the two window calls. A call is one event: it meets
the backends as the pollers have left them, and its own reads of the hardware come
with it. Nothing is assumed about the order of events, the clock or the answers. -/
namespace ZeusPower.Monitor
open Device Library

inductive Event where
  | nvidiaTurn (ts : Double) (nvml : NvmlReads) (n : ℕ)
  | jetsonRound (now : Double) (sysfs : ℕ → Sysfs)
  | beginWindow (key : String) (r : Reads)
  | endWindow (key : String) (r : Reads)

/-- What a window call reads. -/
def Event.reads : Event → Option Reads
  | .beginWindow _ r | .endWindow _ r => some r
  | _ => none

inductive Outcome where
  | polled
  | began (result : Except Error Unit)
  | ended (result : Except Error Measurement)

namespace Outcome

/-- The call threw. -/
def threw : Outcome → Bool
  | .began (.error _) | .ended (.error _) => true
  | _ => false

end Outcome

namespace BackendPtrs

def nvidiaTurn [Rounding] (backends : BackendPtrs) (ts : Double) (nvml : NvmlReads) (n : ℕ) : BackendPtrs :=
  { backends with nvidia := backends.nvidia.map (·.pollTurn ts nvml n) }

def jetsonRound [Rounding] (backends : BackendPtrs) (now : Double) (sysfs : ℕ → Sysfs) : BackendPtrs :=
  { backends with jetson := backends.jetson.map (·.pollRound now sysfs) }

end BackendPtrs

namespace EnergyMonitor

def step [Rounding] (m : EnergyMonitor) : Event → Outcome × EnergyMonitor
  | .nvidiaTurn ts nvml n => (.polled, { m with backends := m.backends.nvidiaTurn ts nvml n })
  | .jetsonRound now sysfs => (.polled, { m with backends := m.backends.jetsonRound now sysfs })
  | .beginWindow key r =>
    let (result, m) := (beginWindow key r).call m
    (.began result, m)
  | .endWindow key r =>
    let (result, m) := (endWindow key r).call m
    (.ended result, m)

def machine [Rounding] : Machine EnergyMonitor Event Outcome := ⟨step⟩

end EnergyMonitor

abbrev Entry := Library.Entry EnergyMonitor Event Outcome

open EnergyMonitor (machine)

/-! ### What each event does -/

section Step
variable (m : EnergyMonitor) (key : String) (r : Reads)

theorem answer_begin [Rounding] :
    machine.answer m (.beginWindow key r) = .began ((EnergyMonitor.beginWindow key r).call m).1 := rfl

theorem next_begin [Rounding] :
    machine.next m (.beginWindow key r) = ((EnergyMonitor.beginWindow key r).call m).2 := rfl

theorem answer_end [Rounding] :
    machine.answer m (.endWindow key r) = .ended ((EnergyMonitor.endWindow key r).call m).1 := rfl

theorem next_end [Rounding] :
    machine.next m (.endWindow key r) = ((EnergyMonitor.endWindow key r).call m).2 := rfl

variable {m key r}

/-- A begin that returns found the key free and stored what it read. -/
theorem begin_returns [Rounding] (h : machine.answer m (.beginWindow key r) = .began (.ok ())) :
    key ∉ m.windows ∧ ∃ state, m.backends.takeSnapshots r = .ok state ∧
      machine.next m (.beginWindow key r) =
        { m with windows := m.windows.insert key state } := by
  rw [answer_begin, EnergyMonitor.beginWindow_call] at h
  rw [next_begin, EnergyMonitor.beginWindow_call]
  by_cases hkey : key ∈ m.windows
  · rw [if_pos hkey] at h
    cases h
  · rw [if_neg hkey] at h ⊢
    refine ⟨hkey, ?_⟩
    cases hs : m.backends.takeSnapshots r with
    | error e => rw [hs] at h; cases h
    | ok state => exact ⟨state, rfl, rfl⟩

/-- An end that returns found a stored window, measured against it and forgot it. -/
theorem end_returns [Rounding] {result : Measurement}
    (h : machine.answer m (.endWindow key r) = .ended (.ok result)) :
    ∃ state, m.windows[key]? = some state ∧ m.backends.measure state r = .ok result ∧
      machine.next m (.endWindow key r) = { m with windows := m.windows.erase key } := by
  rw [answer_end, EnergyMonitor.endWindow_call] at h
  rw [next_end, EnergyMonitor.endWindow_call]
  cases hw : m.windows[key]? with
  | none => rw [hw] at h; cases h
  | some state =>
    rw [hw] at h
    cases hm : m.backends.measure state r with
    | error e => simp only [hm] at h; cases h
    | ok result' =>
      simp only [hm] at h
      cases h
      exact ⟨state, rfl, hm, by simp only [hm]⟩

/-- A call that throws changes nothing. -/
theorem threw_next [Rounding] (m : EnergyMonitor) (e : Event) (h : (machine.answer m e).threw = true) :
    machine.next m e = m := by
  cases e with
  | nvidiaTurn ts nvml n => cases h
  | jetsonRound now sysfs => cases h
  | beginWindow key r =>
    rw [answer_begin, EnergyMonitor.beginWindow_call] at h
    rw [next_begin, EnergyMonitor.beginWindow_call]
    by_cases hkey : key ∈ m.windows
    · rw [if_pos hkey]
    · rw [if_neg hkey] at h ⊢
      cases hs : m.backends.takeSnapshots r with
      | error e => rfl
      | ok state => rw [hs] at h; cases h
  | endWindow key r =>
    rw [answer_end, EnergyMonitor.endWindow_call] at h
    rw [next_end, EnergyMonitor.endWindow_call]
    cases hw : m.windows[key]? with
    | none => rfl
    | some state =>
      cases hm : m.backends.measure state r with
      | error e => simp only [hm]
      | ok result => simp only [hw, hm] at h; cases h

/-- No call changes a backend. -/
theorem backends_begin [Rounding] : (machine.next m (.beginWindow key r)).backends = m.backends := by
  rw [next_begin, EnergyMonitor.beginWindow_call]
  split
  · rfl
  · split <;> rfl

theorem backends_end [Rounding] : (machine.next m (.endWindow key r)).backends = m.backends := by
  rw [next_end, EnergyMonitor.endWindow_call]
  split
  · rfl
  · split <;> rfl

end Step

/-! ### The devices

What a backend is built over never changes: the polling threads write samples and
accumulators, and the calls write no backend at all. -/

structure Devices where
  nvidia : Option NvidiaGpuBackend.Devices
  rails : Option (List PowerRail)
  apple : Option AppleSoCBackend

def BackendPtrs.devices (backends : BackendPtrs) : Devices :=
  ⟨backends.nvidia.map (·.devices), backends.jetson.map (·.powerRails), backends.apple⟩

section SameDevices
variable {a b : BackendPtrs} (h : a.devices = b.devices)
include h

theorem apple_of_devices : a.apple = b.apple := congrArg Devices.apple h

theorem nvidia_of_devices {nvidia : NvidiaGpuBackend} (ha : a.nvidia = some nvidia) :
    ∃ nvidia₀, b.nvidia = some nvidia₀ ∧ nvidia.gpuIndices = nvidia₀.gpuIndices ∧
      nvidia.supportsEnergyCounter = nvidia₀.supportsEnergyCounter := by
  have hsame : a.nvidia.map (·.devices) = b.nvidia.map (·.devices) := congrArg Devices.nvidia h
  rw [ha, Option.map_some, eq_comm, Option.map_eq_some_iff] at hsame
  obtain ⟨nvidia₀, hb, hdevices⟩ := hsame
  exact ⟨nvidia₀, hb, congrArg NvidiaGpuBackend.Devices.gpuIndices hdevices.symm,
    congrArg NvidiaGpuBackend.Devices.counters hdevices.symm⟩

theorem jetson_of_devices {jetson : JetsonSoCBackend} (ha : a.jetson = some jetson) :
    ∃ jetson₀, b.jetson = some jetson₀ ∧ jetson.powerRails = jetson₀.powerRails := by
  have hsame : a.jetson.map (·.powerRails) = b.jetson.map (·.powerRails) := congrArg Devices.rails h
  rw [ha, Option.map_some, eq_comm, Option.map_eq_some_iff] at hsame
  obtain ⟨jetson₀, hb, hrails⟩ := hsame
  exact ⟨jetson₀, hb, hrails.symm⟩

theorem nvidia_none_of_devices (hb : b.nvidia = none) : a.nvidia = none := by
  cases ha : a.nvidia with
  | none => rfl
  | some nvidia =>
    obtain ⟨nvidia₀, hsome, -⟩ := nvidia_of_devices h ha
    rw [hb] at hsome
    cases hsome

theorem jetson_none_of_devices (hb : b.jetson = none) : a.jetson = none := by
  cases ha : a.jetson with
  | none => rfl
  | some jetson =>
    obtain ⟨jetson₀, hsome, -⟩ := jetson_of_devices h ha
    rw [hb] at hsome
    cases hsome

end SameDevices

theorem devices_next [Rounding] (m : EnergyMonitor) (e : Event) :
    (machine.next m e).backends.devices = m.backends.devices := by
  cases e with
  | nvidiaTurn ts nvml n =>
    show (m.backends.nvidiaTurn ts nvml n).devices = m.backends.devices
    unfold BackendPtrs.devices BackendPtrs.nvidiaTurn
    cases m.backends.nvidia with
    | none => rfl
    | some nvidia => simp only [Option.map_some, NvidiaGpuBackend.pollTurn_devices]
  | jetsonRound now sysfs =>
    show (m.backends.jetsonRound now sysfs).devices = m.backends.devices
    unfold BackendPtrs.devices BackendPtrs.jetsonRound
    cases m.backends.jetson <;> rfl
  | beginWindow key r => rw [backends_begin]
  | endWindow key r => rw [backends_end]

/-- Every call of a run is made over the devices the run began with. -/
theorem devices_trace [Rounding] {backends : BackendPtrs} {events : List Event} {x : Entry}
    (hx : x ∈ machine.trace (.construct backends) events) :
    x.before.backends.devices = backends.devices :=
  Machine.constant_trace (f := fun m : EnergyMonitor => m.backends.devices) devices_next hx

/-! ### The map of open windows as a register -/

/-- `x` is a begin of `key` that returned. -/
def Begins (key : String) (x : Entry) : Prop :=
  ∃ r, x.event = .beginWindow key r ∧ x.outcome = .began (.ok ())

/-- `x` is an end of `key` that returned. -/
def Ends (key : String) (x : Entry) : Prop :=
  ∃ r result, x.event = .endWindow key r ∧ x.outcome = .ended (.ok result)

/-- What an entry does to the stored window of `key`. -/
def windowWrite [Rounding] (key : String) (x : Entry) : Option (Option WindowState) :=
  match x.event, x.outcome with
  | .beginWindow k r, .began (.ok _) =>
    if k = key then some (x.before.backends.takeSnapshots r).toOption else none
  | .endWindow k _, .ended (.ok _) => if k = key then some none else none
  | _, _ => none

def windowRegister [Rounding] (key : String) : machine.Register (Option WindowState) where
  view := fun m => m.windows[key]?
  write := windowWrite key
  step := by
    intro m e
    cases hthrew : (machine.answer m e).threw with
    | true =>
      have hwrite : windowWrite key ⟨m, e, machine.answer m e⟩ = none := by
        cases hout : machine.answer m e with
        | polled => rw [hout] at hthrew; cases hthrew
        | began result => rw [hout] at hthrew; cases result <;> cases e <;> first | rfl | cases hthrew
        | ended result => rw [hout] at hthrew; cases result <;> cases e <;> first | rfl | cases hthrew
      rw [hwrite, threw_next m e hthrew, Option.getD_none]
    | false =>
      cases e with
      | nvidiaTurn ts nvml n => rfl
      | jetsonRound now sysfs => rfl
      | beginWindow k r =>
        have hok : machine.answer m (.beginWindow k r) = .began (.ok ()) := by
          rw [answer_begin] at hthrew ⊢
          cases hres : ((EnergyMonitor.beginWindow k r).call m).1 with
          | error e => rw [hres] at hthrew; cases hthrew
          | ok returned => rfl
        obtain ⟨-, state, hstate, hnext⟩ := begin_returns hok
        simp only [windowWrite, hok, hnext, hstate, Map.lookup_insert]
        split <;> rfl
      | endWindow k r =>
        obtain ⟨result, hok⟩ : ∃ result, machine.answer m (.endWindow k r) = .ended (.ok result) := by
          rw [answer_end] at hthrew ⊢
          cases hres : ((EnergyMonitor.endWindow k r).call m).1 with
          | error e => rw [hres] at hthrew; cases hthrew
          | ok result => exact ⟨result, rfl⟩
        obtain ⟨state, -, -, hnext⟩ := end_returns hok
        simp only [windowWrite, hok, hnext, Map.lookup_erase]
        split <;> rfl

theorem windowWrite_eq_none [Rounding] {key : String} {x : Entry} :
    windowWrite key x = none ↔ ¬ Begins key x ∧ ¬ Ends key x := by
  obtain ⟨m, e, out⟩ := x
  cases e <;> rcases out with _ | (_ | ⟨⟩) | (_ | _) <;>
    simp [windowWrite, Begins, Ends, eq_comm]

theorem windowWrite_eq_some [Rounding] {key : String} {x : Entry} {state : WindowState}
    (h : windowWrite key x = some (some state)) :
    ∃ r, x.event = .beginWindow key r ∧ x.outcome = .began (.ok ()) ∧
      x.before.backends.takeSnapshots r = .ok state := by
  obtain ⟨m, e, out⟩ := x
  cases e with
  | nvidiaTurn ts nvml n => cases out <;> cases h
  | jetsonRound now sysfs => cases out <;> cases h
  | endWindow k r =>
    rcases out with _ | _ | (_ | _)
    · cases h
    · cases h
    · cases h
    · simp only [windowWrite] at h
      split at h <;> cases h
  | beginWindow k r =>
    rcases out with _ | (_ | ⟨⟩) | _
    · cases h
    · cases h
    · simp only [windowWrite] at h
      split at h
      next hk =>
        subst hk
        refine ⟨r, rfl, rfl, ?_⟩
        cases hs : m.backends.takeSnapshots r with
        | error e => rw [hs] at h; cases h
        | ok state' => rw [hs] at h; cases h; rfl
      next => cases h
    · cases h

end ZeusPower.Monitor
