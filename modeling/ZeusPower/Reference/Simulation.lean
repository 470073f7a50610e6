import ZeusPower.Device.NvidiaSetup
import ZeusPower.Monitor.Run
import ZeusPower.Reference.History

/-! The C++ monitor and the Python original, side by side.

A feed says what happens outside both programs: a power sample of a GPU arrives, or a
window call is made, with the clock reading and the counters it finds. Each program takes
an entry of the feed in its own way, `toCpp` and `toPython`. What their states have in
common is `Lockstep`, and every entry keeps it; so over a whole feed both accept and
refuse the same calls, and measure the same (`port_simulates_original`).

They do not run on the same machines: the original has no older GPU sampled where the GPUs
are of several models, and takes an empty list of GPUs for no GPU (`port_alone`). -/
namespace ZeusPower.Reference
open Library Device
open Monitor (EnergyMonitor WindowState BackendPtrs)
open NvidiaGpuBackend (answers samplesOf)

/-! ### Feeds -/

inductive Feed where
  | sample (ts : Double) (gpuIndex : Int) (powerMw : ℕ)
  | beginWindow (key : String) (now : Double) (counterMj : Int → ℕ)
  | endWindow (key : String) (now : Double) (counterMj powerMw : Int → ℕ)

namespace Feed

/-- The samples of a GPU, in Watts, as they arrive. -/
def samples [Rounding] (feed : List Feed) (g : Int) : List (Double × Double) :=
  feed.filterMap fun f => match f with
    | .sample ts i powerMw => if i = g then some (ts, fl ((powerMw : Double) / 1000)) else none
    | _ => none

theorem samples_append [Rounding] (xs ys : List Feed) (g : Int) :
    samples (xs ++ ys) g = samples xs g ++ samples ys g := List.filterMap_append

theorem samples_other [Rounding] {ts : Double} {i g : Int} {powerMw : ℕ} (h : i ≠ g) :
    samples [.sample ts i powerMw] g = [] := by
  simp [samples, h]

/-- The reads of a window call of the C++ monitor. There is no Apple backend to ask. -/
def reads (now : Double) (nvml : NvmlReads) : Monitor.Reads :=
  ⟨now, nvml, { createSamples := none, createSamplesDelta := fun _ _ => none }⟩

/-- A sample reaches the C++ monitor in the turn that visits its GPU. -/
def toCpp (indices : List Int) : Feed → Monitor.Event
  | sample ts g powerMw =>
    .nvidiaTurn ts (answers indices (fun _ => 0) fun _ => powerMw) (indices.idxOf g)
  | beginWindow key now counterMj =>
    .beginWindow key (reads now (answers indices counterMj fun _ => 0))
  | endWindow key now counterMj powerMw =>
    .endWindow key (reads now (answers indices counterMj powerMw))

def toPython : Feed → Event
  | sample ts g powerMw => .sample ⟨ts, g, powerMw⟩
  | beginWindow key now counterMj => .beginWindow key ⟨now, fun g => .ok (counterMj g)⟩
  | endWindow key now counterMj _ => .endWindow key ⟨now, fun g => .ok (counterMj g)⟩

end Feed

/-! ### What the two have in common -/

section Lockstep
variable (indices : List Int) (arch : Int → ℕ) (history : Int → List (Double × Double))

/-- The same measurement of the GPUs in the list: of each that has a counter and, in exact
arithmetic, of each older one that has two samples in the window. -/
structure SameMeasurement [Rounding] (now : Double) (result : Monitor.Measurement) (result' : Measurement) : Prop where
  time : result.elapsedTime = result'.time
  gpus : ∀ g, (g ∈ result.gpuEnergy ↔ g ∈ indices) ∧ (g ∈ result'.gpuEnergy ↔ g ∈ indices)
  counters : ∀ g ∈ indices, 5 ≤ arch g → result.gpuEnergy[g]? = result'.gpuEnergy[g]?
  polled : Exact → ∀ g ∈ indices, 2 ≤ (Trapezoid.within (now - result'.time) now (history g)).length →
    result.gpuEnergy[g]? = result'.gpuEnergy[g]?

/-- The same answer to an entry of the feed: the same call is refused for the same reason,
or not refused and measured the same. -/
def Agree [Rounding] : Feed → Monitor.Outcome → Outcome → Prop
  | .sample _ _ _, .polled, .sampled => True
  | .beginWindow _ _ _, .began (.ok _), .began (.ok _) => True
  | .beginWindow key _ _, .began (.error e), .began (.error e') =>
    e = .windowActive key ∧ e' = .valueError ("Measurement window '" ++ key ++ "' already exists")
  | .endWindow _ now _ _, .ended (.ok result), .ended (.ok result') =>
    SameMeasurement indices arch history now result result'
  | .endWindow key _ _ _, .ended (.error e), .ended (.error e') =>
    e = .windowNotFound key ∧ e' = .valueError ("Measurement window '" ++ key ++ "' does not exist")
  | _, _, _ => False

/-- The same stored window: its time, and the counters of the GPUs that have one. -/
def SameWindow (window : WindowState) (state : MeasurementState) : Prop :=
  window.startTime = state.time ∧ ∀ g ∈ indices, 5 ≤ arch g →
    ∃ energy, window.nvidiaSnap[g]? = some energy ∧ state.gpuEnergy[g]? = some energy

/-- The C++ backend has the samples of `history`. -/
structure Backend (b : NvidiaGpuBackend) : Prop where
  monitored : ∀ g, g ∈ b.gpuIndices ↔ g ∈ indices
  counters : ∀ g ∈ b.gpuIndices, b.supportsEnergyCounter g = decide (5 ≤ arch g)
  active : ∀ g ∈ b.gpuIndices, arch g < 5 → b.pollingActive = true
  sampled : ∀ g ∈ indices, arch g < 5 → samplesOf b.samples g = history g

/-- The Python power monitor has them too; there is none without older GPUs. -/
def Monitored [Rounding] : Option PowerMonitor → Prop
  | none => ∀ g ∈ indices, 5 ≤ arch g
  | some pm => pm.MonitorsPower ∧ pm.Running ∧ pm.gpuIndices ≠ [] ∧ (∀ g, g ∈ pm.gpuIndices ↔ g ∈ indices ∧ arch g < 5) ∧
      ∀ g ∈ pm.gpuIndices, (pm.history g).map (fun s => (s.timestamp, fl (s.powerMw / 1000))) = history g

/-- The two monitors, after a feed with the samples of `history`. -/
structure Lockstep [Rounding] (polled : List Int) (m : EnergyMonitor) (z : ZeusMonitor) : Prop where
  backend : ∃ b, m.backends = { nvidia := some b } ∧ b.gpuIndices = polled ∧ Backend indices arch history b
  gpus : z.gpuIndices = indices
  counters : z.supportsGetTotalEnergyConsumption = fun g => decide (5 ≤ arch g)
  monitor : Monitored indices arch history z.powerMonitor
  windows : Map.Related (SameWindow indices arch) m.windows z.measurementStates

end Lockstep

section Steps
variable {indices : List Int} {arch : Int → ℕ} {polled : List Int} {history : Int → List (Double × Double)}

/-! ### A sample -/

theorem backend_sample [Rounding] {b : NvidiaGpuBackend} (h : Backend indices arch history b) (ts : Double)
    (i : Int)
    {powerMw : ℕ} (hpos : 0 < powerMw) :
    Backend indices arch (fun g => history g ++ Feed.samples [.sample ts i powerMw] g) (b.pollTurn ts
      (answers b.gpuIndices (fun _ => 0) fun _ => powerMw) (b.gpuIndices.idxOf i)) := by
  refine ⟨?monitored, ?counters, ?active, ?sampled⟩
  case monitored =>
    intro g
    rw [b.gpuIndices_pollTurn]
    exact h.monitored g
  case counters =>
    intro g hg
    rw [b.gpuIndices_pollTurn] at hg
    rw [b.supportsEnergyCounter_pollTurn]
    exact h.counters g hg
  case active =>
    intro g hg hold
    rw [b.gpuIndices_pollTurn] at hg
    rw [b.pollingActive_pollTurn]
    exact h.active g hg hold
  case sampled =>
    intro g hg hold
    have hmonitored := (h.monitored g).mpr hg
    rw [← h.sampled g hg hold]
    by_cases hi : i = g
    · subst hi
      have hvisits : b.gpuIndices[b.gpuIndices.idxOf i]? = some i := by
        have hlt := List.idxOf_lt_length_of_mem hmonitored
        rw [List.getElem?_eq_getElem hlt, List.getElem_idxOf]
      have hpolled : b.supportsEnergyCounter i = false := by
        rw [h.counters i hmonitored, decide_eq_false (by omega)]
      rw [b.pollTurn_answers (fun _ => 0) (fun _ => powerMw) ts hvisits (h.active i hmonitored hold) hpolled
        hpos, NvidiaGpuBackend.samplesOf_append]
      simp [samplesOf, Feed.samples]
    · have hother : b.gpuIndices[b.gpuIndices.idxOf i]? ≠ some g := by
        intro hvisits
        obtain ⟨hlt, hget⟩ := List.getElem?_eq_some_iff.mp hvisits
        rw [List.getElem_idxOf] at hget
        exact hi hget
      rw [b.samplesOf_pollTurn_ne ts _ hother, Feed.samples_other hi, List.append_nil]

theorem monitored_sample [Rounding] {pm : Option PowerMonitor} (h : Monitored indices arch history pm)
    (ts : Double)
    (i : Int) (powerMw : ℕ) :
    Monitored indices arch (fun g => history g ++ Feed.samples [.sample ts i powerMw] g)
      (pm.map (·.put ⟨ts, i, powerMw⟩)) := by
  cases pm with
  | none => exact h
  | some pm =>
    obtain ⟨hdomains, hrunning, hany, holder, hhistory⟩ := h
    have hindices := pm.gpuIndices_put ⟨ts, i, powerMw⟩
    refine ⟨?_, PowerMonitor.running_put _ hrunning, ?_, ?_, ?_⟩
    · unfold PowerMonitor.MonitorsPower
      rw [pm.measurementDomains_put]
      exact hdomains
    · rw [hindices]
      exact hany
    · rw [hindices]
      exact holder
    · intro g hg
      rw [hindices] at hg
      rw [pm.history_put ⟨ts, i, powerMw⟩ hg, List.map_append, hhistory g hg]
      congr 1
      by_cases hi : i = g
      · simp [queued, Feed.samples, hi]
      · simp [queued, Feed.samples, hi]

theorem lockstep_sample [Rounding] {auc : List Double → List Double → Option Double} {m : EnergyMonitor}
    {z : ZeusMonitor} (h : Lockstep indices arch history polled m z) (ts : Double) (i : Int) {powerMw : ℕ}
    (hpos : 0 < powerMw) :
    Lockstep indices arch (fun g => history g ++ Feed.samples [.sample ts i powerMw] g) polled
      (EnergyMonitor.machine.next m (Feed.toCpp polled (.sample ts i powerMw)))
      ((ZeusMonitor.machine auc).next z (Feed.toPython (.sample ts i powerMw))) := by
  obtain ⟨b, hbackends, hpolled, hb⟩ := h.backend
  refine ⟨⟨b.pollTurn ts (answers polled (fun _ => 0) fun _ => powerMw) (polled.idxOf i), ?_, ?_, ?_⟩,
    h.gpus, h.counters, monitored_sample h.monitor ts i powerMw, h.windows⟩
  · show m.backends.nvidiaTurn _ _ _ = _
    rw [hbackends]
    rfl
  · rw [b.gpuIndices_pollTurn]
    exact hpolled
  · rw [← hpolled]
    exact backend_sample hb ts i hpos

/-! ### A begin -/

theorem takeSnapshots_nvidia [Rounding] {b : NvidiaGpuBackend} {nvml : NvmlReads} {snap : Map Int Double}
    (now : Double) (h : b.snapshotEnergyJ nvml = .ok snap) :
    ({ nvidia := some b } : BackendPtrs).takeSnapshots (Feed.reads now nvml) = .ok ⟨now, snap, ∅, ∅⟩ := by
  show (do
    let nvidiaSnap ← b.snapshotEnergyJ nvml
    let appleSnap ← (.ok ∅ : Except Error (Map String Double))
    pure (⟨now, nvidiaSnap, ∅, appleSnap⟩ : WindowState)) = _
  rw [h]
  rfl

/-- The counters that Python stores at the begin of a window. -/
theorem beginEnergy_ok [Rounding] (z : ZeusMonitor)
    (hcounters : z.supportsGetTotalEnergyConsumption = fun g => decide (5 ≤ arch g)) (now : Double)
    (counterMj : Int → ℕ) : ∃ energies : Map Int Double,
      Map.writeEach id (z.beginEnergy ⟨now, fun g => .ok (counterMj g)⟩) ∅ z.gpuIndices = .ok energies ∧
        ∀ g ∈ z.gpuIndices, 5 ≤ arch g → energies[g]? = some (fl (fl (counterMj g) / 1000)) := by
  have hturn : ∀ g, z.beginEnergy ⟨now, fun g => .ok (counterMj g)⟩ g =
      .ok (if 5 ≤ arch g then some (fl (fl (counterMj g) / 1000)) else none) := by
    intro g
    simp only [ZeusMonitor.beginEnergy, hcounters, decide_eq_true_eq]
    split
    · rfl
    · rfl
  obtain ⟨energies, henergies⟩ := (Map.writeEach_ok_iff id (z.beginEnergy ⟨now, fun g => .ok (counterMj g)⟩)
    (∅ : Map Int Double) z.gpuIndices).mpr fun g _ => ⟨_, hturn g⟩
  refine ⟨energies, henergies, ?_⟩
  intro g hg hnew
  apply Map.lookup_writeEach_of_mem henergies hg
  rw [hturn, if_pos hnew]

theorem lockstep_begin [Rounding] {m : EnergyMonitor} {z : ZeusMonitor}
    (h : Lockstep indices arch history polled m z) (key : String) (now : Double) (counterMj : Int → ℕ) :
    Agree indices arch history (.beginWindow key now counterMj)
        (EnergyMonitor.machine.answer m (Feed.toCpp polled (.beginWindow key now counterMj)))
        (.began (z.beginWindow key ⟨now, fun g => .ok (counterMj g)⟩).1) ∧
      Lockstep indices arch history polled
        (EnergyMonitor.machine.next m (Feed.toCpp polled (.beginWindow key now counterMj)))
        (z.beginWindow key ⟨now, fun g => .ok (counterMj g)⟩).2 := by
  obtain ⟨b, hbackends, hpolled, hb⟩ := h.backend
  obtain ⟨snap, hsnap, hcounters⟩ := b.snapshot_answers counterMj fun _ => 0
  rw [hpolled] at hsnap
  have htake := takeSnapshots_nvidia now hsnap
  rw [← hbackends] at htake
  obtain ⟨energies, henergies, hstored⟩ := beginEnergy_ok z h.counters now counterMj
  rw [Feed.toCpp, Monitor.answer_begin, Monitor.next_begin, EnergyMonitor.beginWindow_call,
    ZeusMonitor.beginWindow]
  by_cases hkey : key ∈ m.windows
  · rw [if_pos hkey, if_pos ((h.windows.mem_iff key).mp hkey)]
    exact ⟨⟨rfl, rfl⟩, h⟩
  · rw [if_neg hkey, if_neg fun hz => hkey ((h.windows.mem_iff key).mpr hz), htake, henergies]
    refine ⟨trivial, ⟨b, hbackends, hpolled, hb⟩, h.gpus, h.counters, h.monitor, ?_⟩
    apply h.windows.insert
    refine ⟨rfl, ?_⟩
    intro g hg hnew
    have hmonitored := (hb.monitored g).mpr hg
    refine ⟨fl (fl (counterMj g) / 1000), hcounters g hmonitored ?_, hstored g (h.gpus ▸ hg) hnew⟩
    rw [hb.counters g hmonitored, decide_eq_true hnew]

/-! ### An end -/

/-- No two samples of a GPU share a time, and none is without power. -/
def Proper (history : Int → List (Double × Double)) : Prop :=
  ∀ g, ((history g).map Prod.fst).Nodup ∧ ∀ p ∈ history g, 0 < p.2

theorem measure_nvidia [Rounding] {b : NvidiaGpuBackend} {nvml : NvmlReads} {window : WindowState} {now : Double}
    {delta : Map Int Double} (h : b.computeEnergyDeltaJ nvml window.nvidiaSnap window.startTime now
      (fl (now - window.startTime)) = .ok delta) :
    ({ nvidia := some b } : BackendPtrs).measure window (Feed.reads now nvml) =
      .ok ⟨delta, Map.overwrite (fun _ v => v) ∅ ∅, fl (now - window.startTime)⟩ := by
  show (do
    let gpuDelta ← b.computeEnergyDeltaJ nvml window.nvidiaSnap window.startTime now
      (fl (now - window.startTime))
    let socDelta ← (.ok ∅ : Except Error (Map String Double))
    pure (⟨gpuDelta, Map.overwrite (fun _ v => v) ∅ socDelta, fl (now - window.startTime)⟩ :
      Monitor.Measurement)) = _
  rw [h]
  rfl

/-- What the C++ backend integrates, of the samples both have. -/
theorem computeEnergyFromSamples_history [Rounding] {b : NvidiaGpuBackend} (h : Backend indices arch history b)
    {g : Int} (hg : g ∈ indices) (hold : arch g < 5) (startTime endTime : Double) :
    b.computeEnergyFromSamples g startTime endTime = Trapezoid.summed 0
      (NvidiaGpuBackend.sortTimeline (Trapezoid.within startTime endTime (history g))) := by
  rw [NvidiaGpuBackend.computeEnergyFromSamples_eq, NvidiaGpuBackend.timeline_eq_within,
    h.sampled g hg hold]

/-- Two proper samples in the window leave something to integrate. -/
theorem summed_sorted_pos [Rounding] [Exact] (hproper : Proper history) {g : Int} {startTime endTime : Double}
    (htwo : 2 ≤ (Trapezoid.within startTime endTime (history g)).length) :
    0 < Trapezoid.summed 0
      (NvidiaGpuBackend.sortTimeline (Trapezoid.within startTime endTime (history g))) := by
  have hperm := List.perm_insertionSort NvidiaGpuBackend.pairLe
    (Trapezoid.within startTime endTime (history g))
  have hdistinct : ((Trapezoid.within startTime endTime (history g)).map Prod.fst).Nodup :=
    (hproper g).1.sublist (List.filter_sublist.map Prod.fst)
  rw [Trapezoid.summed_eq, zero_add]
  apply Trapezoid.integral_pos
  · apply (NvidiaGpuBackend.sortTimeline_inOrder _).lt_of_nodup
    exact (hperm.map Prod.fst).nodup_iff.mpr hdistinct
  · intro p hp
    exact (hproper g).2 p (List.mem_of_mem_filter (NvidiaGpuBackend.mem_sortTimeline.mp hp))
  · rw [NvidiaGpuBackend.sortTimeline, List.length_insertionSort]
    exact htwo

/-- The counter differences that Python measures at the end of a window. -/
theorem endEnergy_ok [Rounding] (z : ZeusMonitor)
    (hcounters : z.supportsGetTotalEnergyConsumption = fun g => decide (5 ≤ arch g)) (now : Double)
    (counterMj : Int → ℕ) {startEnergy : Map Int Double}
    (hstored : ∀ g ∈ z.gpuIndices, 5 ≤ arch g → ∃ energy, startEnergy[g]? = some energy) :
    ∃ energies : Map Int Double,
      Map.writeEach id (z.endEnergy ⟨now, fun g => .ok (counterMj g)⟩ startEnergy) ∅ z.gpuIndices =
        .ok energies ∧
      ∀ g : Int, energies[g]? = if g ∈ z.gpuIndices ∧ 5 ≤ arch g then
        some (fl (fl (fl (counterMj g) / 1000) - startEnergy[g]?.getD 0)) else none := by
  have hturn : ∀ g ∈ z.gpuIndices, z.endEnergy ⟨now, fun g => .ok (counterMj g)⟩ startEnergy g =
      .ok (if 5 ≤ arch g then some (fl (fl (fl (counterMj g) / 1000) - startEnergy[g]?.getD 0)) else none) := by
    intro g hg
    simp only [ZeusMonitor.endEnergy, hcounters, decide_eq_true_eq]
    split
    next hnew =>
      obtain ⟨energy, henergy⟩ := hstored g hg hnew
      rw [henergy]
      rfl
    next => rfl
  obtain ⟨energies, henergies⟩ :=
    (Map.writeEach_ok_iff id (z.endEnergy ⟨now, fun g => .ok (counterMj g)⟩ startEnergy)
      (∅ : Map Int Double) z.gpuIndices).mpr fun g hg => ⟨_, hturn g hg⟩
  refine ⟨energies, henergies, ?_⟩
  intro g
  split
  next hg =>
    apply Map.lookup_writeEach_of_mem henergies hg.1
    rw [hturn g hg.1, if_pos hg.2]
  next hg =>
    rw [Map.lookup_writeEach_skip id _ henergies, Std.ExtTreeMap.getElem?_empty]
    rintro i hi rfl v hv
    rw [hturn i hi] at hv
    split at hv
    next hnew => exact hg ⟨hi, hnew⟩
    next => cases hv

/-- The window that Python ends: its measurement, and what is left of the monitor. -/
theorem endWindow_ok [Rounding] {auc : List Double → List Double → Option Double}
    (hauc : Exact → IsTrapezoidal auc)
    (hproper : Proper history) {z : ZeusMonitor} (hgpus : z.gpuIndices = indices)
    (hcounters : z.supportsGetTotalEnergyConsumption = fun g => decide (5 ≤ arch g))
    (hmonitor : Monitored indices arch history z.powerMonitor) {key : String} {state : MeasurementState}
    (hkey : z.measurementStates[key]? = some state)
    (hstored : ∀ g ∈ indices, 5 ≤ arch g → ∃ energy, state.gpuEnergy[g]? = some energy) (now : Double)
    (counterMj : Int → ℕ) :
    ∃ result, z.endWindow auc key ⟨now, fun g => .ok (counterMj g)⟩ = (.ok result, { z with
        measurementStates := z.measurementStates.erase key
        powerMonitor := z.powerMonitor.map (·.processQueueData) }) ∧
      result.time = fl (now - state.time) ∧ (∀ g, g ∈ result.gpuEnergy ↔ g ∈ indices) ∧
      (∀ g ∈ indices, 5 ≤ arch g →
        result.gpuEnergy[g]? = some (fl (fl (fl (counterMj g) / 1000) - state.gpuEnergy[g]?.getD 0))) ∧
      (Exact → ∀ g ∈ indices, arch g < 5 → result.gpuEnergy[g]? = some (Trapezoid.summed 0
        (NvidiaGpuBackend.sortTimeline (Trapezoid.within state.time now (history g))))) := by
  obtain ⟨gpuIndices, supports, states, powerMonitor⟩ := z
  obtain rfl : gpuIndices = indices := hgpus
  obtain ⟨energies, henergies, hlookup⟩ :=
    endEnergy_ok ⟨gpuIndices, supports, states.erase key, powerMonitor⟩ hcounters now counterMj hstored
  have hnews : ∀ g, g ∈ energies ↔ g ∈ gpuIndices ∧ 5 ≤ arch g := by
    intro g
    rw [Map.mem_iff_lookup, hlookup g]
    split
    next hg => exact ⟨fun _ => hg, fun _ => ⟨_, rfl⟩⟩
    next hg => exact ⟨fun hsome => absurd hsome (by simp), fun hnew => absurd hnew hg⟩
  replace hkey : states[key]? = some state := hkey
  simp only [ZeusMonitor.endWindow, hkey, henergies]
  cases powerMonitor with
  | none =>
    have hnew : ∀ g ∈ gpuIndices, 5 ≤ arch g := hmonitor
    refine ⟨_, rfl, rfl, ?_, ?_, ?_⟩
    · intro g
      exact (hnews g).trans (and_iff_left_of_imp (hnew g))
    · intro g hg _
      exact (hlookup g).trans (if_pos ⟨hg, hnew g hg⟩)
    · intro _ g hg hold
      exact absurd (hnew g hg) (by omega)
  | some pm =>
    obtain ⟨hdomains, hrunning, hany, holder, hhistory⟩ := hmonitor
    obtain ⟨polledEnergies, hsome, hpolled⟩ := pm.lookup_getEnergy auc state.time now hdomains hrunning hany
    have hget : pm.getEnergy auc state.time now = (.ok (some polledEnergies), pm.processQueueData) :=
      Prod.ext hsome (pm.getEnergy_snd auc state.time now hdomains)
    have holds : ∀ g, g ∈ polledEnergies ↔ g ∈ gpuIndices ∧ arch g < 5 := by
      intro g
      rw [Map.mem_iff_lookup, hpolled g, ← holder g]
      split
      next hg => exact ⟨fun _ => hg, fun _ => ⟨_, rfl⟩⟩
      next hg => exact ⟨fun hsome => absurd hsome (by simp), fun hpm => absurd hpm hg⟩
    simp only [hget]
    refine ⟨_, rfl, rfl, ?_, ?_, ?_⟩
    · intro g
      rw [Map.mem_overwrite, holds g, hnews g, ← and_or_left, and_iff_left_iff_imp]
      intro _
      omega
    · intro g hg hnew
      have hcounter : g ∉ pm.gpuIndices := by
        intro hpm
        have hold := ((holder g).mp hpm).2
        omega
      rw [Map.lookup_overwrite, hpolled g, if_neg hcounter]
      exact (hlookup g).trans (if_pos ⟨hg, hnew⟩)
    · intro _ g hg hold
      have hpm : g ∈ pm.gpuIndices := (holder g).mpr ⟨hg, hold⟩
      have hdistinct : ((Trapezoid.within state.time now (history g)).map Prod.fst).Nodup :=
        (hproper g).1.sublist (List.filter_sublist.map Prod.fst)
      rw [Map.lookup_overwrite, hpolled g, if_pos hpm, PowerMonitor.timeline_eq_within, hhistory g hpm,
        timelineEnergy_eq (hauc ‹_›) hdistinct]
      rfl

theorem monitored_process [Rounding] {pm : Option PowerMonitor} (h : Monitored indices arch history pm) :
    Monitored indices arch history (pm.map (·.processQueueData)) := by
  cases pm with
  | none => exact h
  | some pm =>
    obtain ⟨hdomains, hrunning, hany, holder, hhistory⟩ := h
    refine ⟨hdomains, PowerMonitor.running_process hrunning, hany, holder, ?_⟩
    intro g hg
    rw [PowerMonitor.history_process hrunning]
    exact hhistory g hg

/-- The same deltas and counter differences from the same stored window, and the same
integrals of the same samples. -/
theorem sameMeasurement_end [Rounding] (hproper : Proper history) {b : NvidiaGpuBackend}
    (hb : Backend indices arch history b) {window : WindowState} {state : MeasurementState}
    (hsame : SameWindow indices arch window state) {now : Double} {counterMj : Int → ℕ}
    {delta energies : Map Int Double} (hdelta : ∀ g, g ∈ delta ↔ g ∈ b.gpuIndices)
    (hcounter : ∀ g ∈ b.gpuIndices, b.supportsEnergyCounter g = true →
      delta[g]? = some (fl (fl (fl (counterMj g) / 1000) - window.nvidiaSnap[g]?.getD 0)))
    (hpolled : ∀ g ∈ b.gpuIndices, b.supportsEnergyCounter g = false →
      0 < b.computeEnergyFromSamples g window.startTime now →
      delta[g]? = some (b.computeEnergyFromSamples g window.startTime now))
    (henergies : ∀ g, g ∈ energies ↔ g ∈ indices)
    (hnews : ∀ g ∈ indices, 5 ≤ arch g →
      energies[g]? = some (fl (fl (fl (counterMj g) / 1000) - state.gpuEnergy[g]?.getD 0)))
    (holds : Exact → ∀ g ∈ indices, arch g < 5 → energies[g]? = some (Trapezoid.summed 0
      (NvidiaGpuBackend.sortTimeline (Trapezoid.within state.time now (history g))))) :
    SameMeasurement indices arch history now
      ⟨delta, Map.overwrite (fun _ v => v) ∅ ∅, fl (now - window.startTime)⟩
      ⟨fl (now - state.time), energies⟩ := by
  obtain ⟨htime, hsnaps⟩ := hsame
  have hcounters : ∀ g ∈ indices, 5 ≤ arch g → delta[g]? = energies[g]? := by
    intro g hg hnew
    obtain ⟨energy, hsnap, hstart⟩ := hsnaps g hg hnew
    have hsupports : b.supportsEnergyCounter g = true := by
      rw [hb.counters g ((hb.monitored g).mpr hg), decide_eq_true hnew]
    rw [hcounter g ((hb.monitored g).mpr hg) hsupports, hnews g hg hnew, hsnap, hstart]
  refine ⟨congrArg (fun start => fl (now - start)) htime, ?_, hcounters, ?_⟩
  · intro g
    exact ⟨(hdelta g).trans (hb.monitored g), henergies g⟩
  · intro hexact g hg htwo
    by_cases hnew : 5 ≤ arch g
    · exact hcounters g hg hnew
    have hold : arch g < 5 := by omega
    simp only [Exact.fl_eq, sub_sub_cancel] at htwo
    have hsupports : b.supportsEnergyCounter g = false := by
      rw [hb.counters g ((hb.monitored g).mpr hg), decide_eq_false hnew]
    have hintegral := computeEnergyFromSamples_history hb hg hold window.startTime now
    rw [htime] at hintegral hpolled
    have hpos := summed_sorted_pos hproper htwo
    rw [← hintegral] at hpos
    show delta[g]? = energies[g]?
    rw [hpolled g ((hb.monitored g).mpr hg) hsupports hpos, holds hexact g hg hold, hintegral]

theorem lockstep_end [Rounding] {auc : List Double → List Double → Option Double}
    (hauc : Exact → IsTrapezoidal auc)
    (hproper : Proper history) {m : EnergyMonitor} {z : ZeusMonitor}
    (h : Lockstep indices arch history polled m z) (key : String) (now : Double)
    (counterMj powerMw : Int → ℕ) :
    Agree indices arch history (.endWindow key now counterMj powerMw)
        (EnergyMonitor.machine.answer m (Feed.toCpp polled (.endWindow key now counterMj powerMw)))
        (.ended (z.endWindow auc key ⟨now, fun g => .ok (counterMj g)⟩).1) ∧
      Lockstep indices arch history polled
        (EnergyMonitor.machine.next m (Feed.toCpp polled (.endWindow key now counterMj powerMw)))
        (z.endWindow auc key ⟨now, fun g => .ok (counterMj g)⟩).2 := by
  obtain ⟨b, hbackends, hpolled, hb⟩ := h.backend
  rw [Feed.toCpp, Monitor.answer_end, Monitor.next_end, EnergyMonitor.endWindow_call]
  rcases h.windows.lookup key with ⟨hwindow, hstate⟩ | ⟨window, state, hwindow, hstate, hsame⟩
  · simp only [hwindow, ZeusMonitor.endWindow, hstate]
    exact ⟨⟨rfl, rfl⟩, h⟩
  · have hstored : ∀ g ∈ indices, 5 ≤ arch g → ∃ energy, state.gpuEnergy[g]? = some energy := by
      intro g hg hnew
      obtain ⟨energy, -, henergy⟩ := hsame.2 g hg hnew
      exact ⟨energy, henergy⟩
    obtain ⟨⟨time, energies⟩, hend, htime, henergies, hnews, holds⟩ := endWindow_ok hauc hproper h.gpus
      h.counters h.monitor hstate hstored now counterMj
    obtain rfl : time = fl (now - state.time) := htime
    obtain ⟨delta, hdelta, hcounter, hpolls⟩ := b.delta_answers counterMj powerMw window.nvidiaSnap
      window.startTime now (fl (now - window.startTime))
    have hkeys := NvidiaGpuBackend.mem_delta hdelta
    rw [hpolled] at hdelta
    have hmeasure := measure_nvidia hdelta
    rw [← hbackends] at hmeasure
    simp only [hwindow, hmeasure, hend]
    exact ⟨sameMeasurement_end hproper hb hsame hkeys hcounter hpolls henergies hnews holds,
      ⟨b, hbackends, hpolled, hb⟩, h.gpus, h.counters, monitored_process h.monitor, h.windows.erase key⟩

/-! ### The start -/

/-- The GPUs of a machine are of one model, and all that is waited for comes in time. -/
structure Host.Starts (host : Host) (gpuIndices : List Int) : Prop where
  homogeneous : host.gpus.names.dedup.length ≤ 1
  period : ∃ period, host.inferCounterUpdatePeriod gpuIndices = .ok period
  inTime : ∀ domain ∈ host.determineSupportedDomains, host.inTime domain = true

theorem Host.ready_iff (host : Host) (domain : PowerDomain) :
    host.ready domain = true ↔ host.gpus.names.dedup.length ≤ 1 ∧ host.inTime domain = true := by
  rw [Host.ready, Bool.and_eq_true]
  apply and_congr_left'
  unfold Host.getGpus
  by_cases hmixed : 1 < host.gpus.names.dedup.length
  · simp [hmixed, Except.isOk, Except.toBool]
  · simp [hmixed, not_lt.mp hmixed, Except.isOk, Except.toBool]

/-- A power monitor starts on a machine with one model of GPUs, and on no other. -/
theorem PowerMonitor.construct_ok_iff {host : Host} {gpuIndices : List Int} (hany : gpuIndices ≠ [])
    (hpower : .deviceInstant ∈ host.determineSupportedDomains) (gpus : GPUs) (pm : PowerMonitor) :
    construct host gpus gpuIndices = .ok pm ↔
      host.Starts gpuIndices ∧ pm = empty gpuIndices host.determineSupportedDomains := by
  have hready : (∀ domain ∈ host.determineSupportedDomains, host.ready domain = true) ↔
      host.gpus.names.dedup.length ≤ 1 ∧
        ∀ domain ∈ host.determineSupportedDomains, host.inTime domain = true := by
    simp only [host.ready_iff]
    exact ⟨fun h => ⟨(h _ hpower).1, fun domain hd => (h domain hd).2⟩, fun h domain hd => ⟨h.1, h.2 domain hd⟩⟩
  have hstarts : host.Starts gpuIndices ↔ (∃ period, host.inferCounterUpdatePeriod gpuIndices = .ok period) ∧
      ∀ domain ∈ host.determineSupportedDomains, host.ready domain = true := by
    rw [hready]
    exact ⟨fun h => ⟨h.period, h.homogeneous, h.inTime⟩, fun h => ⟨h.2.1, h.1, h.2.2⟩⟩
  rw [hstarts]
  unfold construct
  rw [if_neg (by simpa using hany)]
  dsimp only
  cases hperiod : host.inferCounterUpdatePeriod gpuIndices with
  | error e =>
    constructor
    · intro h
      cases h
    · rintro ⟨⟨⟨period, h⟩, -⟩, -⟩
      cases h
  | ok period =>
    cases hfound : host.determineSupportedDomains.find? fun domain => !host.ready domain with
    | none =>
      have hall : ∀ domain ∈ host.determineSupportedDomains, host.ready domain = true := by
        simpa using hfound
      constructor
      · intro h
        exact ⟨⟨⟨period, rfl⟩, hall⟩, (Except.ok.inj h).symm⟩
      · rintro ⟨-, rfl⟩
        rfl
    | some domain =>
      constructor
      · intro h
        cases h
      · rintro ⟨⟨-, hall⟩, -⟩
        have hnot := List.find?_some hfound
        rw [hall domain (List.mem_of_find?_eq_some hfound)] at hnot
        cases hnot

/-- The GPUs that are sampled. -/
def olderGpus (indices : List Int) (arch : Int → ℕ) : List Int := indices.filter fun g => !decide (5 ≤ arch g)

theorem mem_olderGpus (g : Int) : g ∈ olderGpus indices arch ↔ g ∈ indices ∧ arch g < 5 := by
  simp [olderGpus]

/-- The original starts where it has nothing to sample, or its power monitor starts. -/
theorem zeus_construct_ok_iff {host : Host} (hpower : .deviceInstant ∈ host.determineSupportedDomains)
    (held : Option GPUs) (z : ZeusMonitor) :
    ZeusMonitor.construct host held (some indices) arch = .ok z ↔
      (olderGpus indices arch = [] ∧ z = ⟨indices, fun g => decide (5 ≤ arch g), ∅, none⟩) ∨
      (olderGpus indices arch ≠ [] ∧ host.Starts (olderGpus indices arch) ∧
        z = ⟨indices, fun g => decide (5 ≤ arch g), ∅,
          some (.empty (olderGpus indices arch) host.determineSupportedDomains)⟩) := by
  obtain ⟨gpus, hgpus⟩ : ∃ gpus, host.getGpus held false = .ok gpus := by
    cases held with
    | none => exact ⟨_, rfl⟩
    | some gpus => exact ⟨gpus, rfl⟩
  have hbody : ZeusMonitor.construct host held (some indices) arch =
      if (olderGpus indices arch).isEmpty then .ok ⟨indices, fun g => decide (5 ≤ arch g), ∅, none⟩
      else (PowerMonitor.construct host gpus (olderGpus indices arch)).map fun powerMonitor =>
        ⟨indices, fun g => decide (5 ≤ arch g), ∅, some powerMonitor⟩ := by
    unfold ZeusMonitor.construct
    rw [hgpus]
    rfl
  rw [hbody]
  by_cases hnone : olderGpus indices arch = []
  · rw [if_pos (by simpa using hnone)]
    simp [hnone, eq_comm]
  · rw [if_neg (by simpa using hnone)]
    have hstart := PowerMonitor.construct_ok_iff hnone hpower gpus
    constructor
    · intro h
      cases hpm : PowerMonitor.construct host gpus (olderGpus indices arch) with
      | error e =>
        rw [hpm] at h
        cases h
      | ok pm =>
        rw [hpm] at h
        obtain ⟨hstarts, rfl⟩ := (hstart pm).mp hpm
        exact Or.inr ⟨hnone, hstarts, (Except.ok.inj h).symm⟩
    · rintro (⟨hempty, -⟩ | ⟨-, hstarts, rfl⟩)
      · exact absurd hempty hnone
      · rw [(hstart _).mpr ⟨hstarts, rfl⟩]
        rfl

theorem zeus_starts_iff {host : Host} (hpower : .deviceInstant ∈ host.determineSupportedDomains)
    (held : Option GPUs) :
    (∃ z, ZeusMonitor.construct host held (some indices) arch = .ok z) ↔
      (∀ g ∈ indices, 5 ≤ arch g) ∨ host.Starts (olderGpus indices arch) := by
  have hnone : olderGpus indices arch = [] ↔ ∀ g ∈ indices, 5 ≤ arch g := by
    simp [olderGpus]
  rw [← hnone]
  constructor
  · intro ⟨z, hz⟩
    rcases (zeus_construct_ok_iff hpower held z).mp hz with ⟨hempty, -⟩ | ⟨-, hstarts, -⟩
    · exact Or.inl hempty
    · exact Or.inr hstarts
  · intro h
    by_cases hempty : olderGpus indices arch = []
    · exact ⟨_, (zeus_construct_ok_iff hpower held _).mpr (Or.inl ⟨hempty, rfl⟩)⟩
    · exact ⟨_, (zeus_construct_ok_iff hpower held _).mpr
        (Or.inr ⟨hempty, h.resolve_left hempty, rfl⟩)⟩

theorem monitored_empty [Rounding] {host : Host} (hpower : .deviceInstant ∈ host.determineSupportedDomains)
    (hany : olderGpus indices arch ≠ []) :
    Monitored indices arch (fun _ => [])
      (some (.empty (olderGpus indices arch) host.determineSupportedDomains)) := by
  refine ⟨Or.inl hpower, List.not_mem_nil, hany, mem_olderGpus, ?_⟩
  intro g _
  rw [PowerMonitor.history_empty]
  rfl

theorem lockstep_start [Rounding] {setup : NvmlSetup} (hreports : NvidiaGpuBackend.Reports setup arch)
    (hany : indices ≠ []) {b : NvidiaGpuBackend}
    (hb : NvidiaGpuBackend.construct true setup indices = .ok b) {host : Host}
    (hpower : .deviceInstant ∈ host.determineSupportedDomains) {held : Option GPUs} {z : ZeusMonitor}
    (hz : ZeusMonitor.construct host held (some indices) arch = .ok z) :
    Lockstep indices arch (Feed.samples []) b.gpuIndices (.construct { nvidia := some b }) z := by
  obtain ⟨hasked, hsamples, hcounters, hactive⟩ := NvidiaGpuBackend.construct_settled hreports hb
  have hbackend : Backend indices arch (fun _ => []) b := by
    refine ⟨?monitored, hcounters, hactive, ?sampled⟩
    case monitored =>
      intro g
      rw [hasked hany]
    case sampled =>
      intro g _ _
      rw [hsamples]
      rfl
  rcases (zeus_construct_ok_iff hpower held z).mp hz with ⟨hnone, rfl⟩ | ⟨hold, -, rfl⟩
  · refine ⟨⟨b, rfl, rfl, hbackend⟩, rfl, rfl, ?_, Map.Related.empty⟩
    intro g hg
    by_contra hnew
    have hold := (mem_olderGpus g).mpr ⟨hg, not_le.mp hnew⟩
    rw [hnone] at hold
    exact List.not_mem_nil hold
  · exact ⟨⟨b, rfl, rfl, hbackend⟩, rfl, rfl, monitored_empty hpower hold, Map.Related.empty⟩

/-! ### A whole feed -/

/-- Every sample has power. -/
def Powered (feed : List Feed) : Prop := ∀ ts g powerMw, Feed.sample ts g powerMw ∈ feed → 0 < powerMw

theorem lockstep_step [Rounding] {auc : List Double → List Double → Option Double}
    (hauc : Exact → IsTrapezoidal auc)
    {feed : List Feed} {f : Feed} (hpowered : Powered (feed ++ [f])) (hproper : Proper (Feed.samples feed))
    {m : EnergyMonitor} {z : ZeusMonitor} (h : Lockstep indices arch (Feed.samples feed) polled m z) :
    Agree indices arch (Feed.samples feed) f (EnergyMonitor.machine.answer m (f.toCpp polled))
        ((ZeusMonitor.machine auc).answer z f.toPython) ∧
      Lockstep indices arch (Feed.samples (feed ++ [f])) polled
        (EnergyMonitor.machine.next m (f.toCpp polled)) ((ZeusMonitor.machine auc).next z f.toPython) := by
  have hsamples : Feed.samples (feed ++ [f]) = fun g => Feed.samples feed g ++ Feed.samples [f] g := by
    funext g
    exact Feed.samples_append feed [f] g
  rw [hsamples]
  cases f with
  | sample ts i powerMw =>
    exact ⟨trivial, lockstep_sample h ts i (hpowered ts i powerMw (by simp))⟩
  | beginWindow key now counterMj =>
    have hsame : (fun g => Feed.samples feed g ++ Feed.samples [.beginWindow key now counterMj] g) =
        Feed.samples feed := by
      funext g
      exact List.append_nil _
    rw [hsame]
    exact lockstep_begin h key now counterMj
  | endWindow key now counterMj powerMw =>
    have hsame : (fun g => Feed.samples feed g ++ Feed.samples [.endWindow key now counterMj powerMw] g) =
        Feed.samples feed := by
      funext g
      exact List.append_nil _
    rw [hsame]
    exact lockstep_end hauc hproper h key now counterMj powerMw

/-- The samples of a powered feed have power. -/
theorem powered_samples [Rounding] {feed : List Feed} (hpowered : Powered feed) (g : Int) :
    ∀ p ∈ Feed.samples feed g, 0 < p.2 := by
  intro p hp
  obtain ⟨f, hf, hsample⟩ := List.mem_filterMap.mp hp
  cases f with
  | sample ts i powerMw =>
    have hpos : (0 : Double) < powerMw := Nat.cast_pos.mpr (hpowered ts i powerMw hf)
    dsimp only at hsample
    split at hsample
    next =>
      obtain rfl := Option.some.inj hsample
      exact Rounding.fl_pos _ (by linarith)
    next => cases hsample
  | beginWindow key now counterMj => cases hsample
  | endWindow key now counterMj powerMw => cases hsample

end Steps

/-- **The port simulates the original** on GPUs. The original starts on a machine whose
first GPU answers its power where it has no older GPU to sample, or the GPUs are of one model
and its other processes are ready in time. Then both are taken through the same feed, over a
driver that answers every read. If the samples have power, and no two of a GPU share a time,
both answer alike at every entry: they refuse the same calls, and measure the same time, the
same energy of every GPU with a counter and, in exact arithmetic, the same energy of every
older GPU that has two samples in the window. -/
theorem port_simulates_original [Rounding] (auc : List Double → List Double → Option Double)
    (hauc : Exact → IsTrapezoidal auc) (indices : List Int) (hany : indices ≠ []) (arch : Int → ℕ)
    (setup : NvmlSetup) (b : NvidiaGpuBackend) (hb : NvidiaGpuBackend.construct true setup indices = .ok b)
    (hreports : NvidiaGpuBackend.Reports setup arch) (host : Host) (held : Option GPUs)
    (hpower : .deviceInstant ∈ host.determineSupportedDomains) (feed : List Feed) (hpowered : Powered feed)
    (hdistinct : ∀ g, ((Feed.samples feed g).map Prod.fst).Nodup) :
    ((∃ z, ZeusMonitor.construct host held (some indices) arch = .ok z) ↔
      (∀ g ∈ indices, 5 ≤ arch g) ∨ host.Starts (olderGpus indices arch)) ∧
    ∀ z, ZeusMonitor.construct host held (some indices) arch = .ok z →
      ∀ i f, feed[i]? = some f → ∃ x y,
        (EnergyMonitor.machine.trace (.construct { nvidia := some b })
          (feed.map (Feed.toCpp b.gpuIndices)))[i]? = some x ∧
        ((ZeusMonitor.machine auc).trace z (feed.map Feed.toPython))[i]? = some y ∧
        Agree indices arch (Feed.samples (feed.take i)) f x.outcome y.outcome := by
  constructor
  · exact zeus_starts_iff hpower held
  intro z hz i f hf
  have hx := EnergyMonitor.machine.getElem?_trace (.construct { nvidia := some b })
    (feed.map (Feed.toCpp b.gpuIndices)) i
  have hy := (ZeusMonitor.machine auc).getElem?_trace z (feed.map Feed.toPython) i
  rw [List.getElem?_map, hf] at hx hy
  refine ⟨_, _, hx, hy, ?_⟩
  have hrule : ∀ l, l <+: [] ++ feed → Powered l ∧ ∀ g, ((Feed.samples l g).map Prod.fst).Nodup := by
    intro l hl
    refine ⟨fun ts g powerMw hs => hpowered ts g powerMw (hl.sublist.subset hs), ?_⟩
    intro g
    exact (hdistinct g).sublist ((hl.sublist.filterMap _).map Prod.fst)
  have hstep : ∀ pre f m z,
      (Powered (pre ++ [f]) ∧ ∀ g, ((Feed.samples (pre ++ [f]) g).map Prod.fst).Nodup) →
      Lockstep indices arch (Feed.samples pre) b.gpuIndices m z →
      Agree indices arch (Feed.samples pre) f (EnergyMonitor.machine.answer m (f.toCpp b.gpuIndices))
          ((ZeusMonitor.machine auc).answer z f.toPython) ∧
        Lockstep indices arch (Feed.samples (pre ++ [f])) b.gpuIndices
          (EnergyMonitor.machine.next m (f.toCpp b.gpuIndices))
          ((ZeusMonitor.machine auc).next z f.toPython) := by
    intro pre f m z hpre h
    apply lockstep_step hauc hpre.1 _ h
    intro g
    have hsub : (Feed.samples pre g).Sublist (Feed.samples (pre ++ [f]) g) :=
      (List.sublist_append_left pre [f]).filterMap _
    exact ⟨(hpre.2 g).sublist (hsub.map Prod.fst), fun p hp =>
      powered_samples hpre.1 g p (hsub.subset hp)⟩
  exact Machine.simulation hstep feed [] hrule (lockstep_start hreports hany hb hpower hz) hf hx hy

/-- GPU 0 has a counter, GPU 1 is polled. -/
def mixedArch (g : Int) : ℕ := if g = 0 then 7 else 4

/-- Both GPUs are polled. -/
def oldArch (_ : Int) : ℕ := 4

def setupOf (arch : Int → ℕ) : NvmlSetup where
  init := .ok ()
  deviceCount := .ok 2
  handleByIndex := fun _ i => .ok i
  architecture := fun _ handle => .ok (arch handle)

theorem setupOf_reports (arch : Int → ℕ) : NvidiaGpuBackend.Reports (setupOf arch) arch := by
  intro n i handle hhandle
  obtain rfl := Except.ok.inj hhandle
  rfl

/-- A machine that answers every read, and starts every process in time. -/
def hostOf (names : List String) : Host := ⟨⟨names⟩, fun _ => .ok 2000, fun _ => .ok 0, fun _ => true⟩

/-- The trapezoidal rule, rounded once. -/
def sampleAuc [Rounding] (x y : List Double) : Option Double := some (fl (Trapezoid.integral (x.zip y)))

theorem sampleAuc_isTrapezoidal [Rounding] [Exact] : IsTrapezoidal sampleAuc := by
  intro points _ _
  show some (fl (Trapezoid.integral ((points.map fun p => p.1).zip (points.map fun p => p.2)))) = _
  rw [List.zip_map', List.map_id'', Exact.fl_eq]
  intro p
  rfl

/-- What the ends of a feed give a GPU, in the port and in the original. -/
def portEnergies [Rounding] (b : NvidiaGpuBackend) (feed : List Feed) (g : Int) : List (Option Double) :=
  (EnergyMonitor.machine.trace (.construct { nvidia := some b })
    (feed.map (Feed.toCpp b.gpuIndices))).filterMap fun x => match x.outcome with
    | .ended (.ok result) => some result.gpuEnergy[g]?
    | _ => none

def originalEnergies [Rounding] (z : ZeusMonitor) (feed : List Feed) (g : Int) : List (Option Double) :=
  ((ZeusMonitor.machine sampleAuc).trace z (feed.map Feed.toPython)).filterMap fun x => match x.outcome with
    | .ended (.ok result) => some result.gpuEnergy[g]?
    | _ => none

/-- Two samples of GPU 1 in the one window. -/
def sampleFeed : List Feed :=
  [.beginWindow "epoch" 0 fun _ => 1000, .sample 1 1 2000, .sample 3 1 4000,
    .endWindow "epoch" 4 (fun _ => 6000) fun _ => 0]

theorem sampleFeed_powered : Powered sampleFeed := by
  intro ts g powerMw hs
  simp only [sampleFeed, List.mem_cons, Feed.sample.injEq, List.not_mem_nil, or_false, false_or,
    reduceCtorEq] at hs
  omega

attribute [local instance] Rounding.exact Rounding.exact_exact in
theorem sampleFeed_distinct (g : Int) : ((Feed.samples sampleFeed g).map Prod.fst).Nodup := by
  by_cases hg : 1 = g
  · subst hg
    decide +kernel
  · simp [sampleFeed, Feed.samples, hg]

attribute [local instance] Rounding.exact Rounding.exact_exact in
/-- 6 J of a GPU that is sampled, where both are of one model; 5 J of a GPU with a counter. -/
theorem port_simulates_original_sample :
    (∃ b, NvidiaGpuBackend.construct true (setupOf oldArch) [0, 1] = .ok b ∧
      ∃ z, ZeusMonitor.construct (hostOf ["Tesla P100", "Tesla P100"]) none (some [0, 1]) oldArch = .ok z ∧
        portEnergies b sampleFeed 1 = [some 6] ∧ originalEnergies z sampleFeed 1 = [some 6] ∧
        ∀ i f, sampleFeed[i]? = some f → ∃ x y,
          (EnergyMonitor.machine.trace (.construct { nvidia := some b })
            (sampleFeed.map (Feed.toCpp b.gpuIndices)))[i]? = some x ∧
          ((ZeusMonitor.machine sampleAuc).trace z (sampleFeed.map Feed.toPython))[i]? = some y ∧
          Agree [0, 1] oldArch (Feed.samples (sampleFeed.take i)) f x.outcome y.outcome) ∧
    (∃ b, NvidiaGpuBackend.construct true (setupOf mixedArch) [0] = .ok b ∧
      ∃ z, ZeusMonitor.construct (hostOf ["Tesla V100", "Tesla P100"]) none (some [0]) mixedArch = .ok z ∧
        portEnergies b sampleFeed 0 = [some 5] ∧ originalEnergies z sampleFeed 0 = [some 5] ∧
        ∀ i f, sampleFeed[i]? = some f → ∃ x y,
          (EnergyMonitor.machine.trace (.construct { nvidia := some b })
            (sampleFeed.map (Feed.toCpp b.gpuIndices)))[i]? = some x ∧
          ((ZeusMonitor.machine sampleAuc).trace z (sampleFeed.map Feed.toPython))[i]? = some y ∧
          Agree [0] mixedArch (Feed.samples (sampleFeed.take i)) f x.outcome y.outcome) := by
  have hauc : Exact → IsTrapezoidal sampleAuc := fun _ => sampleAuc_isTrapezoidal
  constructor
  · obtain ⟨b, hb, henergy⟩ : ∃ b, NvidiaGpuBackend.construct true (setupOf oldArch) [0, 1] = .ok b ∧
        portEnergies b sampleFeed 1 = [some 6] := by
      decide +kernel
    obtain ⟨z, hz, henergy'⟩ : ∃ z, ZeusMonitor.construct (hostOf ["Tesla P100", "Tesla P100"]) none
        (some [0, 1]) oldArch = .ok z ∧ originalEnergies z sampleFeed 1 = [some 6] := by
      decide +kernel
    exact ⟨b, hb, z, hz, henergy, henergy', (port_simulates_original sampleAuc hauc [0, 1] (by decide) oldArch
      (setupOf oldArch) b hb (setupOf_reports oldArch) (hostOf ["Tesla P100", "Tesla P100"]) none (by decide)
      sampleFeed sampleFeed_powered sampleFeed_distinct).2 z hz⟩
  · obtain ⟨b, hb, henergy⟩ : ∃ b, NvidiaGpuBackend.construct true (setupOf mixedArch) [0] = .ok b ∧
        portEnergies b sampleFeed 0 = [some 5] := by
      decide +kernel
    obtain ⟨z, hz, henergy'⟩ : ∃ z, ZeusMonitor.construct (hostOf ["Tesla V100", "Tesla P100"]) none
        (some [0]) mixedArch = .ok z ∧ originalEnergies z sampleFeed 0 = [some 5] := by
      decide +kernel
    exact ⟨b, hb, z, hz, henergy, henergy', (port_simulates_original sampleAuc hauc [0] (by decide) mixedArch
      (setupOf mixedArch) b hb (setupOf_reports mixedArch) (hostOf ["Tesla V100", "Tesla P100"]) none (by decide)
      sampleFeed sampleFeed_powered sampleFeed_distinct).2 z hz⟩

/-- Nine samples of 150 W of GPU 1, a tenth of a second apart. -/
def tenthsFeed : List Feed :=
  .beginWindow "epoch" 0 (fun _ => 1000) ::
    ((List.range 9).map fun n => .sample (Rounding.binary64.fl (n / 10)) 1 150000) ++
    [.endWindow "epoch" 1 (fun _ => 6000) fun _ => 0]

attribute [local instance] Rounding.binary64 in
/-- **Where the two part.** The original does not start beside a GPU of another model, when one
of its own is sampled; asked to measure no GPU it measures none, where the port measures all;
and an `auc` that rounds once does not give a sampled GPU the port's last digit. -/
theorem port_alone :
    (∃ b, NvidiaGpuBackend.construct true (setupOf mixedArch) [0, 1] = .ok b ∧
      ZeusMonitor.construct (hostOf ["Tesla V100", "Tesla P100"]) none (some [0, 1]) mixedArch =
        .error (.runtimeError
          "Power monitor subprocess for device_instant failed to start within 10 seconds")) ∧
    (∃ b, NvidiaGpuBackend.construct true (setupOf mixedArch) [] = .ok b ∧
      ∃ z, ZeusMonitor.construct (hostOf ["Tesla V100", "Tesla P100"]) none (some []) mixedArch = .ok z ∧
        portEnergies b tenthsFeed 0 = [some 5] ∧ originalEnergies z tenthsFeed 0 = [none]) ∧
    (∃ b, NvidiaGpuBackend.construct true (setupOf oldArch) [0, 1] = .ok b ∧
      ∃ z, ZeusMonitor.construct (hostOf ["Tesla P100", "Tesla P100"]) none (some [0, 1]) oldArch = .ok z ∧
        portEnergies b tenthsFeed 1 = [some (8444249301319681 / 2 ^ 46)] ∧
        originalEnergies z tenthsFeed 1 = [some 120]) := by
  refine ⟨?mixed, ?none, ?doubles⟩
  case mixed =>
    obtain ⟨b, hb, -⟩ : ∃ b, NvidiaGpuBackend.construct true (setupOf mixedArch) [0, 1] = .ok b ∧ True := by
      decide +kernel
    exact ⟨b, hb, rfl⟩
  case none =>
    obtain ⟨b, hb, henergy⟩ : ∃ b, NvidiaGpuBackend.construct true (setupOf mixedArch) [] = .ok b ∧
        portEnergies b tenthsFeed 0 = [some 5] := by
      decide +kernel
    obtain ⟨z, hz, hnone⟩ : ∃ z, ZeusMonitor.construct (hostOf ["Tesla V100", "Tesla P100"]) none (some [])
        mixedArch = .ok z ∧ originalEnergies z tenthsFeed 0 = [none] := by
      decide +kernel
    exact ⟨b, hb, z, hz, henergy, hnone⟩
  case doubles =>
    obtain ⟨b, hb, henergy⟩ : ∃ b, NvidiaGpuBackend.construct true (setupOf oldArch) [0, 1] = .ok b ∧
        portEnergies b tenthsFeed 1 = [some (8444249301319681 / 2 ^ 46)] := by
      decide +kernel
    obtain ⟨z, hz, hrounded⟩ : ∃ z, ZeusMonitor.construct (hostOf ["Tesla P100", "Tesla P100"]) none
        (some [0, 1]) oldArch = .ok z ∧ originalEnergies z tenthsFeed 1 = [some 120] := by
      decide +kernel
    exact ⟨b, hb, z, hz, henergy, hrounded⟩

end ZeusPower.Reference
