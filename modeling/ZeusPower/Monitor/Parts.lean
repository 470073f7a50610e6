import Mathlib.Tactic.IntervalCases
import ZeusPower.Device.NvidiaTimeline
import ZeusPower.Library.Intervals
import ZeusPower.Monitor.Windows

/-! Windows inside a window.

Every window of a run spans an interval of the run's entries (`Window.ends`). For a
source that is read cumulatively, the energy of a window is a difference of two readings;
for a polled GPU it is an integral, over the samples that had arrived when the window
was evaluated. Both are superadditive on intervals, so in exact arithmetic disjoint windows
inside another never add up to more than it. Rounding is monotone, so one window inside
another is never more than it in any arithmetic (`parts_never_outweigh`); but two windows can
be, by the last digit (`thirds_outweigh`). -/
namespace ZeusPower.Monitor
open Device Library
open EnergyMonitor (machine)

/-- A window of a run: a begin that returned, and the end that returned and is matched
with it. -/
structure Window (t : List Entry) where
  key : String
  openAt : ℕ
  closeAt : ℕ
  opening : Entry
  closing : Entry
  rb : Reads
  re : Reads
  result : Measurement
  opened : t[openAt]? = some opening
  closed : t[closeAt]? = some closing
  begins : opening.event = .beginWindow key rb ∧ opening.outcome = .began (.ok ())
  finishes : closing.event = .endWindow key re ∧ closing.outcome = .ended (.ok result)
  before : openAt < closeAt
  quiet : ∀ k y, openAt < k → k < closeAt → t[k]? = some y → ¬ Begins key y ∧ ¬ Ends key y

namespace Window
variable {t : List Entry} (w : Window t)

/-- The interval of the run that the window spans. -/
def ends : ℕ × ℕ := (w.openAt, w.closeAt)

theorem split : t = t.take w.closeAt ++ w.closing :: t.drop (w.closeAt + 1) := by
  obtain ⟨hlt, hget⟩ := List.getElem?_eq_some_iff.mp w.closed
  rw [← hget, ← List.drop_eq_getElem_cons hlt, List.take_append_drop]

/-- Its begin is the one that is open when its end is called. -/
theorem openSince : OpenSince (t.take w.closeAt) w.key w.opening := by
  obtain ⟨hlt, hget⟩ := List.getElem?_eq_some_iff.mp w.opened
  have hopen : w.openAt < (t.take w.closeAt).length := by
    have hclose := (List.getElem?_eq_some_iff.mp w.closed).1
    have := w.before
    rw [List.length_take]
    omega
  refine ⟨(t.take w.closeAt).take w.openAt, (t.take w.closeAt).drop (w.openAt + 1), ?_,
    ⟨w.rb, w.begins⟩, ?_⟩
  · rw [← hget, ← List.getElem_take (h := hopen), ← List.drop_eq_getElem_cons hopen,
      List.take_append_drop]
  · intro y hy
    obtain ⟨k, hk⟩ := List.mem_iff_getElem?.mp hy
    rw [List.getElem?_drop, List.getElem?_take] at hk
    split at hk
    next hlt' => exact w.quiet _ y (by omega) hlt' hk
    next => cases hk

end Window

theorem Window.closing_before [Rounding] {s : EnergyMonitor} {events : List Event}
    (w : Window (machine.trace s events)) : w.closing.before = machine.run s (events.take w.closeAt) := by
  have hclosed := w.closed
  rw [Machine.getElem?_trace] at hclosed
  obtain ⟨e, -, he⟩ := Option.map_eq_some_iff.mp hclosed
  rw [← he]

/-- A begin and an end of one key that return, with no call of that key between them,
are a window. -/
theorem exists_window [Rounding] {s : EnergyMonitor} {events : List Event} {i j : ℕ} {key : String}
    {rb re : Reads} {result : Measurement}
    (hi : events[i]? = some (.beginWindow key rb)) (hj : events[j]? = some (.endWindow key re))
    (hij : i < j)
    (hmid : ∀ k e, i < k → k < j → events[k]? = some e →
      ∀ r, e ≠ .beginWindow key r ∧ e ≠ .endWindow key r)
    (hbegin : ((EnergyMonitor.beginWindow key rb).call (machine.run s (events.take i))).1 = .ok ())
    (hend : ((EnergyMonitor.endWindow key re).call (machine.run s (events.take j))).1 = .ok result) :
    ∃ w : Window (machine.trace s events), w.ends = (i, j) ∧ w.rb = rb ∧ w.re = re ∧ w.result = result := by
  have hopened : machine.answer (machine.run s (events.take i)) (.beginWindow key rb) =
      .began (.ok ()) := by
    rw [answer_begin, hbegin]
  have hresult : machine.answer (machine.run s (events.take j)) (.endWindow key re) =
      .ended (.ok result) := by
    rw [answer_end, hend]
  have hopening := Machine.getElem?_trace machine s events i
  have hclosing := Machine.getElem?_trace machine s events j
  rw [hi, Option.map_some, hopened] at hopening
  rw [hj, Option.map_some, hresult] at hclosing
  refine ⟨⟨key, i, j, _, _, rb, re, result, hopening, hclosing, ⟨rfl, rfl⟩, ⟨rfl, rfl⟩, hij, ?_⟩,
    rfl, rfl, rfl, rfl⟩
  intro k y hik hkj hy
  rw [Machine.getElem?_trace] at hy
  obtain ⟨e, he, rfl⟩ := Option.map_eq_some_iff.mp hy
  have hother := hmid k e hik hkj he
  exact ⟨fun ⟨r, hevent, _⟩ => (hother r).1 hevent, fun ⟨r, _, hevent, _⟩ => (hother r).2 hevent⟩

/-! ### Sources -/

/-- What is measured: a GPU, a Jetson rail, or an Apple metric. -/
inductive Source where
  | gpu (g : Int)
  | rail (metric : String)
  | channel (metric : String)

namespace Source

/-- The cumulative reading of a source, by a call with the reads `r`; a source that is
not reported reads 0. -/
def reading [Rounding] (backends : BackendPtrs) (r : Reads) : Source → Double
  | gpu g =>
    ((backends.readNvidia (·.snapshotEnergyJ r.nvml)).toOption.bind fun snap => snap[g]?).getD 0
  | rail metric => (backends.readJetson (·.snapshotEnergyJ))[metric]?.getD 0
  | channel metric =>
    ((backends.readApple (·.snapshotEnergyJ r.ioreport)).toOption.bind
      fun snap => snap[metric]?).getD 0

/-- The energy of a source in a measurement. -/
def energy (result : Measurement) : Source → Double
  | gpu g => result.gpuEnergy[g]?.getD 0
  | rail metric | channel metric => result.socEnergy[metric]?.getD 0

/-- The source is read cumulatively: the GPU has a counter. There is one SoC backend at
most, so a rail is Jetson's and a channel Apple's. -/
def Cumulative (backends : BackendPtrs) : Source → Prop
  | gpu g => ∀ nvidia, backends.nvidia = some nvidia → nvidia.supportsEnergyCounter g = true
  | rail _ => backends.apple = none
  | channel _ => backends.jetson = none

theorem Cumulative.of_devices {source : Source} {a b : BackendPtrs} (h : a.devices = b.devices)
    (hb : source.Cumulative b) : source.Cumulative a := by
  cases source with
  | gpu g =>
    intro nvidia ha
    obtain ⟨nvidia₀, hn, -, hcounters⟩ := nvidia_of_devices h ha
    rw [hcounters]
    exact hb nvidia₀ hn
  | rail metric => exact (apple_of_devices h).trans hb
  | channel metric => exact jetson_none_of_devices h hb

/-- The reading made by the call at place `i` of a run. -/
def readingAt [Rounding] (source : Source) (t : List Entry) (i : ℕ) : Double :=
  match t[i]? with
  | none => 0
  | some x => match x.event.reads with
    | none => 0
    | some r => source.reading x.before.backends r

end Source

/-- At place `i` of the run stands a window call that returned. -/
def Returned (t : List Entry) (i : ℕ) : Prop :=
  ∃ x r, t[i]? = some x ∧ x.event.reads = some r ∧ x.outcome.threw = false

/-- The readings of a source never decrease from one call that returned to a later one. -/
def NeverDecreases [Rounding] (source : Source) (t : List Entry) : Prop :=
  ∀ i j, Returned t i → Returned t j → i ≤ j → source.readingAt t i ≤ source.readingAt t j

namespace Window
variable {t : List Entry} (w : Window t)

theorem returned_open : Returned t w.openAt :=
  ⟨w.opening, w.rb, w.opened, by rw [w.begins.1]; rfl, by rw [w.begins.2]; rfl⟩

theorem returned_close : Returned t w.closeAt :=
  ⟨w.closing, w.re, w.closed, by rw [w.finishes.1]; rfl, by rw [w.finishes.2]; rfl⟩

theorem readingAt_open [Rounding] (source : Source) :
    source.readingAt t w.openAt = source.reading w.opening.before.backends w.rb := by
  simp only [Source.readingAt, w.opened, w.begins.1, Event.reads]

theorem readingAt_close [Rounding] (source : Source) :
    source.readingAt t w.closeAt = source.reading w.closing.before.backends w.re := by
  simp only [Source.readingAt, w.closed, w.finishes.1, Event.reads]

end Window

/-! ### The energy of a cumulative source -/

section Energy
variable [Rounding] {atBegin atEnd : BackendPtrs} {rb re : Reads} {state : WindowState} {result : Measurement}
  (hdevices : atEnd.devices = atBegin.devices) (hbegin : atBegin.takeSnapshots rb = .ok state)
  (hend : atEnd.measure state re = .ok result)
include hdevices hbegin hend

theorem gpu_energy {g : Int} (hcumulative : (Source.gpu g).Cumulative atEnd) :
    (Source.gpu g).energy result =
      fl ((Source.gpu g).reading atEnd re - (Source.gpu g).reading atBegin rb) := by
  obtain ⟨hsnap, -, -, -⟩ := takeSnapshots_ok hbegin
  obtain ⟨hgpu, -⟩ := measure_ok hend
  have hstart : (Source.gpu g).reading atBegin rb = state.nvidiaSnap[g]?.getD 0 := by
    simp only [Source.reading, hsnap, Except.toOption, Option.bind_some]
  cases h₁ : atEnd.nvidia with
  | none =>
    have h₀ : atBegin.nvidia = none := nvidia_none_of_devices hdevices.symm h₁
    simp only [BackendPtrs.readNvidia, h₀] at hsnap
    simp only [BackendPtrs.readNvidia, h₁] at hgpu
    rw [hstart, ← Except.ok.inj hsnap]
    simp [Source.energy, Source.reading, ← Except.ok.inj hgpu, BackendPtrs.readNvidia, h₁,
      Except.toOption]
  | some nvidia =>
    have hcounter := hcumulative nvidia h₁
    simp only [BackendPtrs.readNvidia, h₁] at hgpu
    obtain ⟨endSnap, hendSnap⟩ := NvidiaGpuBackend.snapshot_of_delta hgpu
    obtain ⟨n, hn⟩ := LastTurn.exists_of_mem (NvidiaGpuBackend.listed_of_counter hcounter)
    obtain ⟨endMj, hendMj, hdelta⟩ := NvidiaGpuBackend.lookup_delta_counter hgpu hn hcounter
    obtain ⟨endMj', hendMj', hlookup⟩ := NvidiaGpuBackend.lookup_snapshot hendSnap hn hcounter
    obtain rfl : endMj = endMj' := Except.ok.inj (hendMj.symm.trans hendMj')
    have hfinish : (Source.gpu g).reading atEnd re = fl (endMj / 1000) := by
      simp only [Source.reading, BackendPtrs.readNvidia, h₁, hendSnap, Except.toOption,
        Option.bind_some, hlookup, Option.getD_some]
    rw [hstart, hfinish, Source.energy, hdelta, Option.getD_some]

/-- The SoC energies of a window, metric by metric. -/
theorem soc_energy : ∃ endSnap : Map String Double,
    atBegin.readApple (·.snapshotEnergyJ rb.ioreport) = .ok state.appleSnap ∧
    atEnd.readApple (·.snapshotEnergyJ re.ioreport) = .ok endSnap ∧
    ∀ metric : String, result.socEnergy[metric]? =
      (endSnap[metric]?.map fun endE => fl (endE - state.appleSnap[metric]?.getD 0)).or
        ((atEnd.readJetson (·.snapshotEnergyJ))[metric]?.map fun endE =>
          fl (endE - (atBegin.readJetson (·.snapshotEnergyJ))[metric]?.getD 0)) := by
  obtain ⟨startSnap, endSnap, hstart, hfinish, hsoc⟩ := (measures_of_reads hdevices hbegin hend).soc
  obtain ⟨-, happle, -, -⟩ := takeSnapshots_ok hbegin
  obtain rfl : state.appleSnap = startSnap := Except.ok.inj (happle.symm.trans hstart)
  exact ⟨endSnap, hstart, hfinish, hsoc⟩

theorem rail_energy {metric : String} (hcumulative : (Source.rail metric).Cumulative atEnd) :
    (Source.rail metric).energy result =
      fl ((Source.rail metric).reading atEnd re - (Source.rail metric).reading atBegin rb) := by
  obtain ⟨endSnap, -, hfinish, hsoc⟩ := soc_energy hdevices hbegin hend
  have hnone : endSnap[metric]? = none := by
    rw [BackendPtrs.readApple, show atEnd.apple = none from hcumulative] at hfinish
    rw [← Except.ok.inj hfinish]
    exact Std.ExtTreeMap.getElem?_empty
  have hlookup := hsoc metric
  rw [hnone, Option.map_none, Option.none_or] at hlookup
  rw [Source.energy, hlookup, Source.reading, Source.reading]
  cases hend' : (atEnd.readJetson (·.snapshotEnergyJ))[metric]? with
  | some endE => rfl
  | none =>
    -- A rail without a reading at the end had none at the begin.
    have hstart' : (atBegin.readJetson (·.snapshotEnergyJ))[metric]? = none := by
      rw [← Map.not_mem_iff_lookup] at hend' ⊢
      unfold BackendPtrs.readJetson at hend' ⊢
      cases h₀ : atBegin.jetson with
      | none => simp
      | some jetson₀ =>
        obtain ⟨jetson₁, h₁, hrails⟩ := jetson_of_devices hdevices.symm h₀
        simp only [h₁, JetsonSoCBackend.mem_snapshotEnergyJ] at hend'
        simpa only [JetsonSoCBackend.mem_snapshotEnergyJ, hrails] using hend'
    rw [hstart', Option.map_none, Option.getD_none, sub_zero, Rounding.fl_zero]

theorem channel_energy {metric : String} (hcumulative : (Source.channel metric).Cumulative atEnd)
    (hmono : (Source.channel metric).reading atBegin rb ≤ (Source.channel metric).reading atEnd re) :
    (Source.channel metric).energy result =
      fl ((Source.channel metric).reading atEnd re - (Source.channel metric).reading atBegin rb) := by
  obtain ⟨endSnap, hstart, hfinish, hsoc⟩ := soc_energy hdevices hbegin hend
  have hreadStart : (Source.channel metric).reading atBegin rb = state.appleSnap[metric]?.getD 0 := by
    simp only [Source.reading, hstart, Except.toOption, Option.bind_some]
  have hreadEnd : (Source.channel metric).reading atEnd re = endSnap[metric]?.getD 0 := by
    simp only [Source.reading, hfinish, Except.toOption, Option.bind_some]
  have hjetson : atEnd.readJetson (·.snapshotEnergyJ) = ∅ := by
    rw [BackendPtrs.readJetson, show atEnd.jetson = none from hcumulative]
  have hlookup := hsoc metric
  rw [hjetson, Std.ExtTreeMap.getElem?_empty, Option.map_none, Option.or_none] at hlookup
  rw [hreadStart, hreadEnd] at hmono ⊢
  rw [Source.energy, hlookup]
  cases hs : endSnap[metric]? with
  | some endE => rfl
  | none =>
    -- No reading is negative, so one that does not decrease to nothing was nothing.
    have hnonneg : 0 ≤ state.appleSnap[metric]?.getD 0 := by
      unfold BackendPtrs.readApple at hstart
      split at hstart
      next apple => exact AppleSoCBackend.snapshotEnergyJ_nonneg hstart metric
      next => rw [← Except.ok.inj hstart]; simp
    rw [hs, Option.getD_none] at hmono
    rw [Option.map_none, Option.getD_none, zero_sub, le_antisymm hmono hnonneg, neg_zero, Rounding.fl_zero]

/-- A cumulative source measures the difference of its readings, if they do not decrease. -/
theorem energy_of_reads {source : Source} (hcumulative : source.Cumulative atEnd)
    (hmono : source.reading atBegin rb ≤ source.reading atEnd re) :
    source.energy result = fl (source.reading atEnd re - source.reading atBegin rb) := by
  cases source with
  | gpu g => exact gpu_energy hdevices hbegin hend hcumulative
  | rail metric => exact rail_energy hdevices hbegin hend hcumulative
  | channel metric => exact channel_energy hdevices hbegin hend hcumulative hmono

end Energy

/-! ### Polled GPUs -/

/-- All samples the polling thread has pushed. -/
def samplesOf (m : EnergyMonitor) (g : Int) : List (Double × Double) :=
  match m.backends.nvidia with
  | some nvidia => NvidiaGpuBackend.samplesOf nvidia.samples g
  | none => []

/-- Samples are only ever appended. -/
theorem samplesOf_next [Rounding] (g : Int) (m : EnergyMonitor) (e : Event) :
    samplesOf m g <+: samplesOf (machine.next m e) g := by
  cases e with
  | nvidiaTurn ts nvml n =>
    show samplesOf m g <+: samplesOf { m with backends := m.backends.nvidiaTurn ts nvml n } g
    unfold samplesOf BackendPtrs.nvidiaTurn
    cases m.backends.nvidia with
    | none => exact List.prefix_rfl
    | some nvidia =>
      rcases nvidia.pollTurn_cases ts nvml n with h | ⟨i, power, -, -, -, -, h⟩
      · simp only [Option.map_some, h, List.prefix_rfl]
      · simp only [Option.map_some, h, NvidiaGpuBackend.samplesOf_append, List.prefix_append]
  | jetsonRound now sysfs => exact List.prefix_rfl
  | beginWindow key r =>
    unfold samplesOf
    rw [backends_begin]
  | endWindow key r =>
    unfold samplesOf
    rw [backends_end]

/-- The clock reading of the call at place `i` of a run. -/
def clockAt (t : List Entry) (i : ℕ) : Double :=
  match t[i]? with
  | none => 0
  | some x => match x.event.reads with
    | none => 0
    | some r => r.now

/-- The clock does not go back from one window call to a later one. -/
def ClockSteady (t : List Entry) : Prop :=
  ∀ i j, Returned t i → Returned t j → i ≤ j → clockAt t i ≤ clockAt t j

namespace Window
variable {t : List Entry} (w : Window t)

/-- The window of GPU `g` was integrated, without the fallback. -/
def Integrates [Rounding] (g : Int) : Prop :=
  ∃ nvidia, w.closing.before.backends.nvidia = some nvidia ∧
    0 < nvidia.computeEnergyFromSamples g w.rb.now w.re.now

theorem clockAt_open : clockAt t w.openAt = w.rb.now := by
  simp only [clockAt, w.opened, w.begins.1, Event.reads]

theorem clockAt_close : clockAt t w.closeAt = w.re.now := by
  simp only [clockAt, w.closed, w.finishes.1, Event.reads]

end Window

section Run
variable {backends : BackendPtrs} {events : List Event}

/-- What the two calls of a window read, over the devices of the run. -/
theorem Window.reads [Rounding] (w : Window (machine.trace (.construct backends) events)) :
    ∃ state, w.opening.before.backends.takeSnapshots w.rb = .ok state ∧
      w.closing.before.backends.measure state w.re = .ok w.result ∧
      w.closing.before.backends.devices = w.opening.before.backends.devices ∧
      w.closing.before.backends.devices = backends.devices := by
  obtain ⟨rb, state, hbegin, hstate, hmeasure, hdevices⟩ :=
    reads_of_openSince w.split w.finishes.1 w.finishes.2 w.openSince
  obtain ⟨-, rfl⟩ := Event.beginWindow.inj (w.begins.1.symm.trans hbegin)
  exact ⟨state, hstate, hmeasure, hdevices, devices_trace (List.mem_of_getElem? w.closed)⟩

/-- A window that was integrated has the trapezoids of the samples at its end, in order
as they arrived. -/
theorem polled_energy [Rounding] {g : Int}
    (hpolled : ∀ nvidia, backends.nvidia = some nvidia →
      g ∈ nvidia.gpuIndices ∧ nvidia.supportsEnergyCounter g = false)
    (w : Window (machine.trace (.construct backends) events)) (hw : w.Integrates g)
    (hsamples : (samplesOf w.closing.before g).Pairwise fun p q => p.1 < q.1) :
    (Source.gpu g).energy w.result = Trapezoid.summed 0
      (Trapezoid.within w.rb.now w.re.now (samplesOf w.closing.before g)) := by
  obtain ⟨state, hstate, hmeasure, hdevices, hrun⟩ := w.reads
  obtain ⟨nvidia, hn, hpos⟩ := hw
  obtain ⟨nvidia₀, h₀, hindices, hcounters⟩ := nvidia_of_devices hrun hn
  obtain ⟨hlisted, hcounter⟩ := hpolled nvidia₀ h₀
  obtain ⟨n, hturn⟩ := LastTurn.exists_of_mem (hindices ▸ hlisted)
  have hmeasures := (measures_of_reads hdevices hstate hmeasure).polled nvidia hn g n hturn
    (by rw [hcounters]; exact hcounter)
  rw [NvidiaGpuBackend.computeEnergyFromSamples_eq] at hpos
  have hown : samplesOf w.closing.before g = NvidiaGpuBackend.samplesOf nvidia.samples g := by
    simp only [samplesOf, hn]
  rw [hown] at hsamples ⊢
  have hsorted : NvidiaGpuBackend.sortTimeline (nvidia.timeline g w.rb.now w.re.now) =
      Trapezoid.within w.rb.now w.re.now (NvidiaGpuBackend.samplesOf nvidia.samples g) := by
    rw [NvidiaGpuBackend.timeline_eq_within]
    exact NvidiaGpuBackend.sortTimeline_eq (hsamples.filter _)
  rcases hmeasures with ⟨-, henergy⟩ | ⟨hnone, -⟩
  · rw [Source.energy, henergy, hsorted, Option.getD_some]
  · exact absurd hpos hnone.not_gt

theorem cumulative_energy [Rounding] {source : Source} (hcumulative : source.Cumulative backends)
    (hmono : NeverDecreases source (machine.trace (.construct backends) events))
    (w : Window (machine.trace (.construct backends) events)) :
    source.energy w.result =
      fl (source.readingAt (machine.trace (.construct backends) events) w.closeAt -
        source.readingAt (machine.trace (.construct backends) events) w.openAt) := by
  obtain ⟨state, hstate, hmeasure, hdevices, hrun⟩ := w.reads
  have hle := hmono w.openAt w.closeAt w.returned_open w.returned_close w.before.le
  rw [w.readingAt_open, w.readingAt_close] at hle ⊢
  exact energy_of_reads hdevices hstate hmeasure (hcumulative.of_devices hrun) hle

/-- The intervals of windows inside `outer`, as the rule for superadditive measures asks. -/
theorem ends_inside [Rounding] {outer : Window (machine.trace (.construct backends) events)}
    {inner : List (Window (machine.trace (.construct backends) events))}
    (hinside : ∀ w ∈ inner, outer.openAt ≤ w.openAt ∧ w.closeAt ≤ outer.closeAt) :
    ∀ p ∈ inner.map Window.ends, Returned (machine.trace (.construct backends) events) p.1 ∧
      Returned (machine.trace (.construct backends) events) p.2 ∧ p.1 < p.2 ∧
      outer.openAt ≤ p.1 ∧ p.2 ≤ outer.closeAt := by
  intro p hp
  obtain ⟨w, hw, rfl⟩ := List.mem_map.mp hp
  exact ⟨w.returned_open, w.returned_close, w.before, hinside w hw⟩

/-- Rounding keeps the order of the differences. -/
theorem cumulative_part [Rounding] {source : Source} (hcumulative : source.Cumulative backends)
    (hmono : NeverDecreases source (machine.trace (.construct backends) events))
    {outer w : Window (machine.trace (.construct backends) events)}
    (hinside : outer.openAt ≤ w.openAt ∧ w.closeAt ≤ outer.closeAt) :
    source.energy w.result ≤ source.energy outer.result := by
  rw [cumulative_energy hcumulative hmono w, cumulative_energy hcumulative hmono outer]
  have hopen := hmono outer.openAt w.openAt outer.returned_open w.returned_open hinside.1
  have hclose := hmono w.closeAt outer.closeAt w.returned_close outer.returned_close hinside.2
  exact Rounding.mono (sub_le_sub hclose hopen)

theorem exact_energies [Rounding] [Exact] {source : Source} (hcumulative : source.Cumulative backends)
    (hmono : NeverDecreases source (machine.trace (.construct backends) events))
    (windows : List (Window (machine.trace (.construct backends) events))) :
    (windows.map fun w => source.energy w.result) = (windows.map Window.ends).map fun p =>
      source.readingAt (machine.trace (.construct backends) events) p.2 -
        source.readingAt (machine.trace (.construct backends) events) p.1 := by
  rw [List.map_map]
  apply List.map_congr_left
  intro w _
  exact (cumulative_energy hcumulative hmono w).trans (Exact.fl_eq _)

theorem cumulative_parts [Rounding] [Exact] {source : Source} (hcumulative : source.Cumulative backends)
    (hmono : NeverDecreases source (machine.trace (.construct backends) events))
    {outer : Window (machine.trace (.construct backends) events)}
    {inner : List (Window (machine.trace (.construct backends) events))}
    (hinside : ∀ w ∈ inner, outer.openAt ≤ w.openAt ∧ w.closeAt ≤ outer.closeAt)
    (hapart : inner.Pairwise fun v w => Intervals.Apart v.ends w.ends) :
    (inner.map fun w => source.energy w.result).sum ≤ source.energy outer.result := by
  rw [exact_energies hcumulative hmono inner, cumulative_energy hcumulative hmono outer, Exact.fl_eq]
  exact (Intervals.superadditive_of_monotone hmono).sum_parts_le outer.returned_open
    outer.returned_close outer.before.le (ends_inside hinside) (List.pairwise_map.mpr hapart)

theorem cumulative_tiles [Rounding] [Exact] {source : Source} (hcumulative : source.Cumulative backends)
    (hmono : NeverDecreases source (machine.trace (.construct backends) events))
    {outer : Window (machine.trace (.construct backends) events)}
    {tiling : List (Window (machine.trace (.construct backends) events))}
    (h : Intervals.Tiles (source.readingAt (machine.trace (.construct backends) events)) outer.openAt
      (tiling.map Window.ends) outer.closeAt) :
    (tiling.map fun w => source.energy w.result).sum = source.energy outer.result := by
  rw [exact_energies hcumulative hmono tiling, cumulative_energy hcumulative hmono outer, Exact.fl_eq]
  exact Intervals.sum_tiles h

/-! ### The energy of a polled GPU -/

/-- What a window saw is a prefix of all samples. -/
theorem samples_of_window [Rounding] (w : Window (machine.trace (.construct backends) events)) (g : Int) :
    samplesOf w.closing.before g <+: samplesOf (machine.run (.construct backends) events) g :=
  machine.related_end (R := fun s s' => samplesOf s g <+: samplesOf s' g)
    (fun _ => List.prefix_rfl) (fun h h' => h.trans h') (samplesOf_next g)
    (List.mem_of_getElem? w.closed)

/-- What a window saw is a prefix of what a later one saw. -/
theorem samples_before [Rounding] {w later : Window (machine.trace (.construct backends) events)}
    (h : w.closeAt ≤ later.closeAt) (g : Int) :
    samplesOf w.closing.before g <+: samplesOf later.closing.before g :=
  machine.related_trace (R := fun s s' => samplesOf s g <+: samplesOf s' g)
    (fun _ => List.prefix_rfl) (fun h h' => h.trans h') (samplesOf_next g) _ _ h w.closed later.closed

/-- The integral of fixed samples between the clock readings of two calls. -/
theorem integral_superadditive {t : List Entry} (hclock : ClockSteady t) {l : List (Double × Double)}
    (hs : Trapezoid.InOrder l) (hpos : ∀ q ∈ l, 0 ≤ q.2) :
    Intervals.Superadditive (Returned t) fun i j =>
      Trapezoid.integral (Trapezoid.within (clockAt t i) (clockAt t j) l) where
  nonneg := fun _ _ _ _ _ => Trapezoid.integral_within_nonneg hs hpos _ _
  cut := fun i j k hi hj hk hij hjk =>
    Trapezoid.integral_within_superadditive hs hpos (hclock i j hi hj hij) (hclock j k hj hk hjk)

/-- More samples, over more time, do not lower a sum, rounded or not. -/
theorem polled_part [Rounding] {g : Int}
    (hpolled : ∀ nvidia, backends.nvidia = some nvidia →
      g ∈ nvidia.gpuIndices ∧ nvidia.supportsEnergyCounter g = false)
    (hclock : ClockSteady (machine.trace (.construct backends) events))
    (hsamples : (samplesOf (machine.run (.construct backends) events) g).Pairwise
      fun p q => p.1 < q.1)
    (hpositive : ∀ p ∈ samplesOf (machine.run (.construct backends) events) g, 0 < p.2)
    {outer w : Window (machine.trace (.construct backends) events)}
    (hinside : outer.openAt ≤ w.openAt ∧ w.closeAt ≤ outer.closeAt)
    (hw : w.Integrates g) (houter : outer.Integrates g) :
    (Source.gpu g).energy w.result ≤ (Source.gpu g).energy outer.result := by
  have hseen := samples_of_window outer g
  have hordered := hsamples.sublist hseen.sublist
  have hprefix := samples_before hinside.2 g
  have hopen := hclock outer.openAt w.openAt outer.returned_open w.returned_open hinside.1
  have hclose := hclock w.closeAt outer.closeAt w.returned_close outer.returned_close hinside.2
  rw [outer.clockAt_open, w.clockAt_open] at hopen
  rw [w.clockAt_close, outer.clockAt_close] at hclose
  rw [polled_energy hpolled w hw (hordered.sublist hprefix.sublist),
    polled_energy hpolled outer houter hordered]
  exact Trapezoid.summed_within_le hprefix hopen hclose (hordered.imp fun h => h.le)
    fun p hp => (hpositive p (hseen.subset hp)).le

theorem polled_parts [Rounding] [Exact] {g : Int}
    (hpolled : ∀ nvidia, backends.nvidia = some nvidia →
      g ∈ nvidia.gpuIndices ∧ nvidia.supportsEnergyCounter g = false)
    (hclock : ClockSteady (machine.trace (.construct backends) events))
    (hsamples : (samplesOf (machine.run (.construct backends) events) g).Pairwise
      fun p q => p.1 < q.1)
    (hpositive : ∀ p ∈ samplesOf (machine.run (.construct backends) events) g, 0 < p.2)
    {outer : Window (machine.trace (.construct backends) events)}
    {inner : List (Window (machine.trace (.construct backends) events))}
    (hinside : ∀ w ∈ inner, outer.openAt ≤ w.openAt ∧ w.closeAt ≤ outer.closeAt)
    (hapart : inner.Pairwise fun v w => Intervals.Apart v.ends w.ends)
    (hintegrates : ∀ w ∈ outer :: inner, w.Integrates g) :
    (inner.map fun w => (Source.gpu g).energy w.result).sum ≤ (Source.gpu g).energy outer.result := by
  have hseen := samples_of_window outer g
  have hordered := hsamples.sublist hseen.sublist
  have hinorder : Trapezoid.InOrder (samplesOf outer.closing.before g) := hordered.imp fun h => h.le
  have hnonneg : ∀ p ∈ samplesOf outer.closing.before g, 0 ≤ p.2 :=
    fun p hp => (hpositive p (hseen.subset hp)).le
  have henergy : ∀ w ∈ inner, (Source.gpu g).energy w.result ≤ Trapezoid.integral
      (Trapezoid.within (clockAt (machine.trace (.construct backends) events) w.openAt)
        (clockAt (machine.trace (.construct backends) events) w.closeAt)
        (samplesOf outer.closing.before g)) := by
    intro w hw
    have hprefix := samples_before (hinside w hw).2 g
    rw [polled_energy hpolled w (hintegrates w (List.mem_cons_of_mem _ hw))
      (hordered.sublist hprefix.sublist), Trapezoid.summed_eq, zero_add, w.clockAt_open, w.clockAt_close]
    exact Trapezoid.integral_within_prefix_le hprefix hinorder hnonneg _ _
  have hparts := (integral_superadditive hclock hinorder hnonneg).sum_parts_le outer.returned_open
    outer.returned_close outer.before.le (ends_inside hinside) (List.pairwise_map.mpr hapart)
  rw [List.map_map, outer.clockAt_open, outer.clockAt_close] at hparts
  rw [polled_energy hpolled outer (hintegrates outer List.mem_cons_self) hordered, Trapezoid.summed_eq,
    zero_add]
  exact (List.sum_le_sum henergy).trans hparts

/-- **Parts never outweigh the whole.** Let `inner` be windows of a run inside the window
`outer`, no two of them overlapping. For a cumulative source whose readings never decrease,
no window's energy is negative and no inner one's is more than the outer one's; in exact
arithmetic the inner energies add up to at most the outer one, and to exactly the outer one
when the inner windows tile it. For a polled GPU whose samples arrive in order and are
positive, when none of the windows was measured by the fallback, no inner energy is more than
the outer one, and in exact arithmetic they add up to at most that. -/
theorem parts_never_outweigh [Rounding] (backends : BackendPtrs) (events : List Event)
    (outer : Window (machine.trace (.construct backends) events))
    (inner : List (Window (machine.trace (.construct backends) events)))
    (hinside : ∀ w ∈ inner, outer.openAt ≤ w.openAt ∧ w.closeAt ≤ outer.closeAt)
    (hapart : inner.Pairwise fun v w => Intervals.Apart v.ends w.ends) :
    (∀ source : Source, source.Cumulative backends →
      NeverDecreases source (machine.trace (.construct backends) events) →
      (∀ w ∈ outer :: inner, 0 ≤ source.energy w.result) ∧
        (∀ w ∈ inner, source.energy w.result ≤ source.energy outer.result) ∧
        (Exact → (inner.map fun w => source.energy w.result).sum ≤ source.energy outer.result ∧
          ∀ tiling : List (Window (machine.trace (.construct backends) events)), tiling.Perm inner →
            Intervals.Tiles (source.readingAt (machine.trace (.construct backends) events)) outer.openAt
              (tiling.map Window.ends) outer.closeAt →
            (inner.map fun w => source.energy w.result).sum = source.energy outer.result)) ∧
    ∀ g : Int, (∀ nvidia, backends.nvidia = some nvidia →
        g ∈ nvidia.gpuIndices ∧ nvidia.supportsEnergyCounter g = false) →
      ClockSteady (machine.trace (.construct backends) events) →
      ((samplesOf (machine.run (.construct backends) events) g).Pairwise fun p q => p.1 < q.1) →
      (∀ p ∈ samplesOf (machine.run (.construct backends) events) g, 0 < p.2) →
      (∀ w ∈ outer :: inner, w.Integrates g) →
      (∀ w ∈ inner, (Source.gpu g).energy w.result ≤ (Source.gpu g).energy outer.result) ∧
        (Exact → (inner.map fun w => (Source.gpu g).energy w.result).sum ≤
          (Source.gpu g).energy outer.result) := by
  constructor
  · intro source hcumulative hmono
    refine ⟨?_, fun w hw => cumulative_part hcumulative hmono (hinside w hw), ?_⟩
    · intro w _
      rw [cumulative_energy hcumulative hmono w]
      exact Rounding.fl_nonneg
        (sub_nonneg.mpr (hmono w.openAt w.closeAt w.returned_open w.returned_close w.before.le))
    · intro _
      refine ⟨cumulative_parts hcumulative hmono hinside hapart, ?_⟩
      intro tiling hperm htiles
      rw [← (hperm.map fun w => source.energy w.result).sum_eq]
      exact cumulative_tiles hcumulative hmono htiles
  · intro g hpolled hclock hsamples hpositive hintegrates
    refine ⟨?_, fun _ => polled_parts hpolled hclock hsamples hpositive hinside hapart hintegrates⟩
    intro w hw
    exact polled_part hpolled hclock hsamples hpositive (hinside w hw)
      (hintegrates w (List.mem_cons_of_mem _ hw)) (hintegrates outer List.mem_cons_self)

end Run

section Sample

/-- A step inside an epoch, with the polling threads at work. -/
def stepEvents : List Event :=
  [.beginWindow "epoch" (sampleReads 10 5000), .nvidiaTurn 11 (sampleReads 11 5500).nvml 1,
    .beginWindow "step" (sampleReads 11 5500), .nvidiaTurn 12 (sampleReads 12 6000).nvml 1,
    .jetsonRound 12 (fun _ _ => some "7000"), .endWindow "step" (sampleReads 12 6000),
    .nvidiaTurn 13 (sampleReads 13 6500).nvml 1, .endWindow "epoch" (sampleReads 13 6500)]

/-- Two windows that tile a third: the counter stands at 0, 300 and 900 mJ. -/
def thirdEvents : List Event :=
  [.beginWindow "whole" (sampleReads 1 0), .beginWindow "third" (sampleReads 1 0),
    .endWindow "third" (sampleReads 2 300), .beginWindow "rest" (sampleReads 2 300),
    .endWindow "rest" (sampleReads 3 900), .endWindow "whole" (sampleReads 3 900)]

/-- The places of a run that can have a window call that returned. -/
def callPlaces (events : List Event) : List ℕ :=
  (List.range events.length).filter fun i => ((events[i]?.bind Event.reads).isSome : Bool)

theorem mem_callPlaces [Rounding] {s : EnergyMonitor} {events : List Event} {i : ℕ}
    (h : Returned (machine.trace s events) i) : i ∈ callPlaces events := by
  obtain ⟨x, r, hx, hr, -⟩ := h
  rw [Machine.getElem?_trace] at hx
  obtain ⟨e, he, rfl⟩ := Option.map_eq_some_iff.mp hx
  refine List.mem_filter.mpr ⟨List.mem_range.mpr (List.getElem?_eq_some_iff.mp he).1, ?_⟩
  have hreads : e.reads = some r := hr
  rw [he, Option.bind_some, hreads]
  rfl

theorem neverDecreases_of_places [Rounding] {source : Source} {events : List Event} {s : EnergyMonitor}
    (h : ∀ i ∈ callPlaces events, ∀ j ∈ callPlaces events, i ≤ j →
      source.readingAt (machine.trace s events) i ≤ source.readingAt (machine.trace s events) j) :
    NeverDecreases source (machine.trace s events) :=
  fun i j hi hj hij => h i (mem_callPlaces hi) j (mem_callPlaces hj) hij

theorem clockSteady_of_places [Rounding] {events : List Event} {s : EnergyMonitor}
    (h : ∀ i ∈ callPlaces events, ∀ j ∈ callPlaces events, i ≤ j →
      clockAt (machine.trace s events) i ≤ clockAt (machine.trace s events) j) :
    ClockSteady (machine.trace s events) :=
  fun i j hi hj hij => h i (mem_callPlaces hi) j (mem_callPlaces hj) hij

/-- The sample board's first GPU has a counter. -/
theorem sampleBackends_counter : (Source.gpu 0).Cumulative sampleBackends := by
  intro nvidia hn
  have hcounter : (sampleBackends.nvidia.map fun n => n.supportsEnergyCounter 0) = some true := by
    decide +kernel
  rw [hn] at hcounter
  exact Option.some.inj hcounter

theorem stepEvents_integrates [Rounding] (w : Window (machine.trace (.construct sampleBackends) stepEvents))
    (h : ((machine.run (.construct sampleBackends) (stepEvents.take w.closeAt)).backends.nvidia.map
      fun nvidia => decide (0 < nvidia.computeEnergyFromSamples 1 w.rb.now w.re.now)) = some true) :
    w.Integrates 1 := by
  obtain ⟨nvidia, hn, hpos⟩ := Option.map_eq_some_iff.mp h
  rw [← w.closing_before] at hn
  exact ⟨nvidia, hn, of_decide_eq_true hpos⟩

attribute [local instance] Rounding.exact Rounding.exact_exact in
theorem parts_never_outweigh_sample :
    ∃ outer inner : Window (machine.trace (.construct sampleBackends) stepEvents),
      outer.ends = (0, 7) ∧ inner.ends = (2, 5) ∧
      (Source.gpu 0).energy inner.result = 1 / 2 ∧ (Source.gpu 0).energy outer.result = 3 / 2 ∧
      (Source.gpu 1).energy inner.result = 200 ∧ (Source.gpu 1).energy outer.result = 400 ∧
      ([inner].map fun w => (Source.gpu 0).energy w.result).sum ≤ (Source.gpu 0).energy outer.result ∧
      ([inner].map fun w => (Source.gpu 1).energy w.result).sum ≤ (Source.gpu 1).energy outer.result := by
  have hend : ∃ result, ((EnergyMonitor.endWindow "epoch" (sampleReads 13 6500)).call (machine.run
        (.construct sampleBackends) (stepEvents.take 7))).1 = .ok result ∧
      (Source.gpu 0).energy result = 3 / 2 ∧ (Source.gpu 1).energy result = 400 := by
    decide +kernel
  have hend' : ∃ result, ((EnergyMonitor.endWindow "step" (sampleReads 12 6000)).call (machine.run
        (.construct sampleBackends) (stepEvents.take 5))).1 = .ok result ∧
      (Source.gpu 0).energy result = 1 / 2 ∧ (Source.gpu 1).energy result = 200 := by
    decide +kernel
  obtain ⟨whole, hwhole, hwhole0, hwhole1⟩ := hend
  obtain ⟨part, hpart, hpart0, hpart1⟩ := hend'
  obtain ⟨outer, houter, hrb, hre, rfl⟩ := exists_window
    (show stepEvents[0]? = some (.beginWindow "epoch" (sampleReads 10 5000)) from rfl) rfl (by omega)
    (by intro k e h0 h7 he r; interval_cases k <;> cases he <;> simp) (by decide +kernel) hwhole
  obtain ⟨inner, hinner, hrb', hre', rfl⟩ := exists_window
    (show stepEvents[2]? = some (.beginWindow "step" (sampleReads 11 5500)) from rfl) rfl (by omega)
    (by intro k e h2 h5 he r; interval_cases k <;> cases he <;> simp) (by decide +kernel) hpart
  obtain ⟨hopen, hclose⟩ := Prod.mk.inj houter
  obtain ⟨hopen', hclose'⟩ := Prod.mk.inj hinner
  have hinside : ∀ w ∈ [inner], outer.openAt ≤ w.openAt ∧ w.closeAt ≤ outer.closeAt := by
    intro w hw
    rw [List.mem_singleton.mp hw]
    omega
  obtain ⟨hcumulative, hpolled⟩ :=
    parts_never_outweigh sampleBackends stepEvents outer [inner] hinside (List.pairwise_singleton _ _)
  refine ⟨outer, inner, houter, hinner, hpart0, hwhole0, hpart1, hwhole1, ?_, ?_⟩
  · have hsteady : NeverDecreases (.gpu 0) (machine.trace (.construct sampleBackends) stepEvents) :=
      neverDecreases_of_places (by decide +kernel)
    exact ((hcumulative _ sampleBackends_counter hsteady).2.2 Rounding.exact_exact).1
  · have hlisted : ∀ nvidia, sampleBackends.nvidia = some nvidia →
        (1 : Int) ∈ nvidia.gpuIndices ∧ nvidia.supportsEnergyCounter 1 = false := by
      intro nvidia hn
      have hpre : (sampleBackends.nvidia.map fun n =>
          decide ((1 : Int) ∈ n.gpuIndices ∧ n.supportsEnergyCounter 1 = false)) = some true := by
        decide +kernel
      rw [hn] at hpre
      exact of_decide_eq_true (Option.some.inj hpre)
    have hclock : ClockSteady (machine.trace (.construct sampleBackends) stepEvents) :=
      clockSteady_of_places (by decide +kernel)
    refine (hpolled 1 hlisted hclock (by decide +kernel) (by decide +kernel) ?_).2 Rounding.exact_exact
    intro w hw
    apply stepEvents_integrates
    obtain rfl | rfl : w = outer ∨ w = inner := by simpa using hw
    · rw [hclose, hrb, hre]
      decide +kernel
    · rw [hclose', hrb', hre']
      decide +kernel

attribute [local instance] Rounding.binary64 in
/-- **Two windows can outweigh the one they tile.** The counter of a GPU stands at 0, 300 and
900 mJ. The two windows between these readings are given 0.3 and 0.6000000000000001 J, and
the one around both 0.9 J, which is less. -/
theorem thirds_outweigh :
    ∃ outer first second : Window (machine.trace (.construct sampleBackends) thirdEvents),
      outer.ends = (0, 5) ∧ first.ends = (1, 2) ∧ second.ends = (3, 4) ∧
      (Source.gpu 0).Cumulative sampleBackends ∧
      NeverDecreases (.gpu 0) (machine.trace (.construct sampleBackends) thirdEvents) ∧
      Intervals.Tiles ((Source.gpu 0).readingAt (machine.trace (.construct sampleBackends) thirdEvents))
        outer.openAt ([first, second].map Window.ends) outer.closeAt ∧
      (Source.gpu 0).energy first.result = fl (3 / 10) ∧
      (Source.gpu 0).energy second.result = 5404319552844596 / 2 ^ 53 ∧
      (Source.gpu 0).energy outer.result = fl (9 / 10) ∧
      ¬ ([first, second].map fun w => (Source.gpu 0).energy w.result).sum ≤
        (Source.gpu 0).energy outer.result := by
  have hwhole : ∃ result, ((EnergyMonitor.endWindow "whole" (sampleReads 3 900)).call (machine.run
        (.construct sampleBackends) (thirdEvents.take 5))).1 = .ok result ∧
      (Source.gpu 0).energy result = fl (9 / 10) := by
    decide +kernel
  have hthird : ∃ result, ((EnergyMonitor.endWindow "third" (sampleReads 2 300)).call (machine.run
        (.construct sampleBackends) (thirdEvents.take 2))).1 = .ok result ∧
      (Source.gpu 0).energy result = fl (3 / 10) := by
    decide +kernel
  have hrest : ∃ result, ((EnergyMonitor.endWindow "rest" (sampleReads 3 900)).call (machine.run
        (.construct sampleBackends) (thirdEvents.take 4))).1 = .ok result ∧
      (Source.gpu 0).energy result = 5404319552844596 / 2 ^ 53 := by
    decide +kernel
  obtain ⟨whole, hwhole, henergy⟩ := hwhole
  obtain ⟨third, hthird, henergy1⟩ := hthird
  obtain ⟨rest, hrest, henergy2⟩ := hrest
  obtain ⟨outer, houter, -, -, rfl⟩ := exists_window
    (show thirdEvents[0]? = some (.beginWindow "whole" (sampleReads 1 0)) from rfl) rfl (by omega)
    (by intro k e h0 h5 he r; interval_cases k <;> cases he <;> simp) (by decide +kernel) hwhole
  obtain ⟨first, hfirst, -, -, rfl⟩ := exists_window
    (show thirdEvents[1]? = some (.beginWindow "third" (sampleReads 1 0)) from rfl) rfl (by omega)
    (by intro k e h1 h2; omega) (by decide +kernel) hthird
  obtain ⟨second, hsecond, -, -, rfl⟩ := exists_window
    (show thirdEvents[3]? = some (.beginWindow "rest" (sampleReads 2 300)) from rfl) rfl (by omega)
    (by intro k e h3 h4; omega) (by decide +kernel) hrest
  refine ⟨outer, first, second, houter, hfirst, hsecond, sampleBackends_counter,
    neverDecreases_of_places (by decide +kernel), ?_, henergy1, henergy2, henergy, ?_⟩
  · rw [List.map_cons, List.map_cons, hfirst, hsecond]
    obtain ⟨hopen, hclose⟩ := Prod.mk.inj houter
    rw [hopen, hclose]
    have hsame : ∀ ends ∈ [(0, 1), (2, 3), (4, 5)],
        (Source.gpu 0).readingAt (machine.trace (.construct sampleBackends) thirdEvents) ends.1 =
          (Source.gpu 0).readingAt (machine.trace (.construct sampleBackends) thirdEvents) ends.2 := by
      decide +kernel
    exact ⟨hsame (0, 1) (by decide), hsame (2, 3) (by decide), hsame (4, 5) (by decide)⟩
  · rw [List.map_cons, List.map_cons, henergy1, henergy2, henergy]
    decide +kernel

end Sample

end ZeusPower.Monitor
