import ZeusPower.Device.AppleMetrics
import ZeusPower.Monitor.Windows
import ZeusPower.PowerMonitor

/-! The keys of a monitor.

What a monitor lists (`gpuIndices`, `socMetrics`), what it measures and what it answers
to an instant query are read from different containers, filled by different loops. The
backends carry the agreement of their own containers (`mem_handles`, `mem_cumulative`,
`discovered`); here it is carried through the calls: a delta has the listed keys, a
stored snapshot has every key a later delta looks up, and a query knows what is listed.

One thing is asked of the outside: IOReport goes on listing the channels it listed when
the backend was built (`KeepsChannels`). -/
namespace ZeusPower.Monitor
open Device Library
open EnergyMonitor (machine)

namespace BackendPtrs

/-- IOReport answers one call with the channels of the baseline. -/
def KeepsChannels (backends : BackendPtrs) (ioreport : IOReport) : Prop :=
  ∀ apple, backends.apple = some apple → ioreport.KeepsChannels apple.baselineSample

end BackendPtrs

/-- The stored window has exactly the keys the deltas of an end with the reads `r` look
up, so that no start value is missing. -/
structure FindsStart [Rounding] (backends : BackendPtrs) (r : Reads) (state : WindowState) : Prop where
  nvidia : ∀ nvidia, backends.nvidia = some nvidia →
    ∀ g, g ∈ state.nvidiaSnap ↔ g ∈ nvidia.gpuIndices ∧ nvidia.supportsEnergyCounter g = true
  jetson : ∀ jetson, backends.jetson = some jetson →
    ∀ metric, metric ∈ state.jetsonSnap ↔ metric ∈ jetson.snapshotEnergyJ
  apple : ∀ apple endSnap, backends.apple = some apple →
    apple.snapshotEnergyJ r.ioreport = .ok endSnap → ∀ metric, metric ∈ state.appleSnap ↔ metric ∈ endSnap

/-- In a run of `m`, everything is measured, stored and answered under the listed keys. -/
structure KeysAgree [Rounding] (m : PowerMonitor) (events : List Event) : Prop where
  /-- A measurement has the listed keys. -/
  measured : ∀ x ∈ machine.trace m.energyMonitor events, ∀ result, x.outcome = .ended (.ok result) →
    (∀ g, g ∈ result.gpuEnergy ↔ g ∈ m.powerQuery.gpuIndices) ∧
      ∀ metric, metric ∈ result.socEnergy ↔ metric ∈ m.powerQuery.socMetrics
  /-- An end finds a start value for every key it looks up. -/
  stored : ∀ x ∈ machine.trace m.energyMonitor events, ∀ key r state, x.event = .endWindow key r →
    x.before.windows[key]? = some state → FindsStart x.before.backends r state
  /-- Whatever the run, a query for a listed key does not fail for its key. -/
  gpuQueried : ∀ g ∈ m.powerQuery.gpuIndices, ∀ nvml e,
    let q := (PowerMonitor.mk (machine.run m.energyMonitor events)).powerQuery
    (q.getInstantPower nvml g = .error e → e.unknownKey = false) ∧
      (q.getPowerLimit nvml g = .error e → e.unknownKey = false)
  socQueried : ∀ metric ∈ m.powerQuery.socMetrics, ∀ r : SocReads,
    m.energyMonitor.backends.KeepsChannels r.ioreport1 →
    m.energyMonitor.backends.KeepsChannels r.ioreport2 → ∀ e,
    let q := (PowerMonitor.mk (machine.run m.energyMonitor events)).powerQuery
    q.getInstantSocPower r metric = .error e → e.unknownKey = false

/-! ### What is listed depends on the devices alone -/

section Listed
variable (backends : BackendPtrs)

theorem mem_gpuIndices (g : Int) :
    g ∈ (PowerQuery.mk backends).gpuIndices ↔
      ∃ devices, backends.devices.nvidia = some devices ∧ g ∈ devices.gpuIndices := by
  unfold PowerQuery.gpuIndices BackendPtrs.devices
  cases backends.nvidia <;> simp [NvidiaGpuBackend.devices]

theorem mem_socMetrics (metric : String) :
    metric ∈ (PowerQuery.mk backends).socMetrics ↔
      (∃ jetson, backends.jetson = some jetson ∧ metric ∈ jetson.availableMetrics) ∨
        ∃ apple, backends.apple = some apple ∧ metric ∈ apple.availableMetrics := by
  unfold PowerQuery.socMetrics
  cases backends.jetson <;> cases backends.apple <;> simp [Std.ExtTreeSet.mem_union_iff]

theorem mem_socMetrics_devices (metric : String) :
    metric ∈ (PowerQuery.mk backends).socMetrics ↔
      (∃ rails, backends.devices.rails = some rails ∧ ∃ rail ∈ rails, rail.key = metric) ∨
        ∃ apple, backends.devices.apple = some apple ∧ metric ∈ apple.availableMetrics := by
  rw [mem_socMetrics]
  simp only [BackendPtrs.devices, Option.map_eq_some_iff, JetsonSoCBackend.mem_availableMetrics]
  apply or_congr_left
  constructor
  · intro ⟨jetson, hjetson, hrail⟩
    exact ⟨jetson.powerRails, ⟨jetson, hjetson, rfl⟩, hrail⟩
  · intro h
    obtain ⟨rails, ⟨jetson, hjetson, rfl⟩, hrail⟩ := h
    exact ⟨jetson, hjetson, hrail⟩

end Listed

/-! ### Measured keys -/

theorem measure_keys [Rounding] {backends : BackendPtrs} {state : WindowState} {r : Reads} {result : Measurement}
    (h : backends.measure state r = .ok result) (hkeeps : backends.KeepsChannels r.ioreport) :
    (∀ g, g ∈ result.gpuEnergy ↔ g ∈ (PowerQuery.mk backends).gpuIndices) ∧
      ∀ metric, metric ∈ result.socEnergy ↔ metric ∈ (PowerQuery.mk backends).socMetrics := by
  obtain ⟨hgpu, socDelta, hsoc, hsocEnergy, -⟩ := measure_ok h
  constructor
  · intro g
    unfold BackendPtrs.readNvidia at hgpu
    unfold PowerQuery.gpuIndices
    cases hn : backends.nvidia with
    | none =>
      rw [hn] at hgpu
      obtain hempty : ∅ = result.gpuEnergy := Except.ok.inj hgpu
      simp [← hempty]
    | some nvidia =>
      rw [hn] at hgpu
      exact NvidiaGpuBackend.mem_delta hgpu g
  · intro metric
    rw [hsocEnergy, Map.mem_overwrite, mem_socMetrics, or_comm]
    apply or_congr
    · unfold BackendPtrs.readJetson
      cases backends.jetson with
      | none => simp
      | some jetson =>
        simp [JetsonSoCBackend.mem_computeEnergyDeltaJ, JetsonSoCBackend.mem_availableMetrics]
    · unfold BackendPtrs.readApple at hsoc
      cases ha : backends.apple with
      | none =>
        rw [ha] at hsoc
        obtain rfl : ∅ = socDelta := Except.ok.inj hsoc
        simp
      | some apple =>
        rw [ha] at hsoc
        obtain ⟨endSnap, hs, hsoc⟩ := Fallible.bind_eq_ok.mp hsoc
        cases hsoc
        rw [Map.mem_overwrite, or_iff_left Std.ExtTreeMap.not_mem_empty,
          apple.mem_snapshotEnergyJ (hkeeps apple ha) hs]
        simp

/-- A begin stores every key that an end over the same devices looks up. -/
theorem findsStart_of_snapshots [Rounding] {atBegin atEnd : BackendPtrs} {rb re : Reads} {state : WindowState}
    (hdevices : atEnd.devices = atBegin.devices) (h : atBegin.takeSnapshots rb = .ok state)
    (hkeepsBegin : atBegin.KeepsChannels rb.ioreport) (hkeepsEnd : atEnd.KeepsChannels re.ioreport) :
    FindsStart atEnd re state := by
  obtain ⟨hnvidia, happle, hjetson, -⟩ := takeSnapshots_ok h
  refine ⟨?nvidia, ?jetson, ?apple⟩
  case nvidia =>
    intro nvidia₁ h₁ g
    obtain ⟨nvidia₀, h₀, hindices, hcounters⟩ := nvidia_of_devices hdevices h₁
    simp only [BackendPtrs.readNvidia, h₀] at hnvidia
    rw [hindices, hcounters]
    exact NvidiaGpuBackend.mem_snapshot hnvidia g
  case jetson =>
    intro jetson₁ h₁ metric
    obtain ⟨jetson₀, h₀, hrails⟩ := jetson_of_devices hdevices h₁
    simp only [BackendPtrs.readJetson, h₀] at hjetson
    rw [hjetson, JetsonSoCBackend.mem_snapshotEnergyJ, JetsonSoCBackend.mem_snapshotEnergyJ, hrails]
  case apple =>
    intro apple endSnap h₁ hend metric
    have h₀ : atBegin.apple = some apple := (apple_of_devices hdevices).symm.trans h₁
    simp only [BackendPtrs.readApple, h₀] at happle
    rw [apple.mem_snapshotEnergyJ (hkeepsBegin apple h₀) happle,
      apple.mem_snapshotEnergyJ (hkeepsEnd apple h₁) hend]

/-! ### Queries -/

section Queries
variable {backends : BackendPtrs} {g : Int} (h : g ∈ (PowerQuery.mk backends).gpuIndices)
include h

theorem nvidia_of_listed : ∃ nvidia, backends.nvidia = some nvidia ∧ g ∈ nvidia.gpuIndices := by
  unfold PowerQuery.gpuIndices at h
  cases hn : backends.nvidia with
  | none => rw [hn] at h; cases h
  | some nvidia => rw [hn] at h; exact ⟨nvidia, rfl, h⟩

theorem getInstantPower_listed [Rounding] {nvml : NvmlReads} {e : Error}
    (he : (PowerQuery.mk backends).getInstantPower nvml g = .error e) : e.unknownKey = false := by
  obtain ⟨nvidia, hn, hg⟩ := nvidia_of_listed h
  simp only [PowerQuery.getInstantPower, hn] at he
  obtain ⟨hmissing, -⟩ | ⟨message, rfl⟩ := NvidiaGpuBackend.getInstantPowerW_error he
  · exact absurd hg hmissing
  · rfl

theorem getPowerLimit_listed [Rounding] {nvml : NvmlReads} {e : Error}
    (he : (PowerQuery.mk backends).getPowerLimit nvml g = .error e) : e.unknownKey = false := by
  obtain ⟨nvidia, hn, hg⟩ := nvidia_of_listed h
  simp only [PowerQuery.getPowerLimit, hn] at he
  obtain ⟨hmissing, -⟩ | ⟨message, rfl⟩ := NvidiaGpuBackend.getPowerLimitW_error he
  · exact absurd hg hmissing
  · rfl

end Queries

/-- On one platform a listed metric belongs to the backend that is asked. -/
theorem getInstantSocPower_listed [Rounding] {platform : Platform} {backends : BackendPtrs}
    (hon : PowerMonitor.OnPlatform platform backends) {metric : String}
    (h : metric ∈ (PowerQuery.mk backends).socMetrics) {r : SocReads}
    (h₁ : backends.KeepsChannels r.ioreport1) (h₂ : backends.KeepsChannels r.ioreport2) {e : Error}
    (he : (PowerQuery.mk backends).getInstantSocPower r metric = .error e) : e.unknownKey = false := by
  rw [mem_socMetrics] at h
  unfold PowerQuery.getInstantSocPower at he
  cases hj : backends.jetson with
  | some jetson =>
    have happle : backends.apple = none := by
      by_contra ha
      have hlinux := hon.1 (by rw [hj]; exact Option.some_ne_none jetson)
      rw [hon.2 ha] at hlinux
      cases hlinux
    have hmetric : metric ∈ jetson.availableMetrics := by simpa [hj, happle] using h
    simp only [hj] at he
    obtain ⟨path, rfl⟩ := jetson.getInstantPowerW_error hmetric he
    rfl
  | none =>
    cases ha : backends.apple with
    | none => simp [hj, ha] at h
    | some apple =>
      have hmetric : metric ∈ apple.availableMetrics := by simpa [hj, ha] using h
      simp only [hj, ha] at he
      obtain rfl | rfl := AppleSoCBackend.getInstantPowerW_error hmetric (h₁ apple ha) (h₂ apple ha) he
      · rfl
      · rfl

/-! ### Over a run -/

/-- A state over the same devices lists the same GPUs and metrics, on the same platform. -/
theorem listed_of_devices {a b : BackendPtrs} (h : a.devices = b.devices) :
    (∀ g, g ∈ (PowerQuery.mk a).gpuIndices ↔ g ∈ (PowerQuery.mk b).gpuIndices) ∧
      ∀ metric, metric ∈ (PowerQuery.mk a).socMetrics ↔ metric ∈ (PowerQuery.mk b).socMetrics := by
  constructor
  · intro g
    rw [mem_gpuIndices, mem_gpuIndices, h]
  · intro metric
    rw [mem_socMetrics_devices, mem_socMetrics_devices, h]

theorem keepsChannels_of_devices {a b : BackendPtrs} (h : a.devices = b.devices) {ioreport : IOReport}
    (hkeeps : b.KeepsChannels ioreport) : a.KeepsChannels ioreport := by
  intro apple ha
  exact hkeeps apple ((apple_of_devices h).symm.trans ha)

theorem onPlatform_of_devices {platform : Platform} {a b : BackendPtrs} (h : a.devices = b.devices)
    (hon : PowerMonitor.OnPlatform platform b) : PowerMonitor.OnPlatform platform a := by
  constructor
  · intro hj
    apply hon.1
    intro hnone
    exact hj (jetson_none_of_devices h hnone)
  · rw [apple_of_devices h]
    exact hon.2

/-- **Keys agree.** A constructed monitor lists, measures, stores and answers under the
same keys in every run in which IOReport keeps its channels. -/
theorem keys_agree [Rounding] {hw : Machinery} {devices : List DeviceType} {cfg : PowerMonitorConfig}
    {m : PowerMonitor} (h : PowerMonitor.construct hw devices cfg = .ok m) {events : List Event}
    (hkeeps : ∀ e ∈ events, ∀ r, e.reads = some r →
      m.energyMonitor.backends.KeepsChannels r.ioreport) : KeysAgree m events := by
  obtain ⟨monitor⟩ := m
  obtain ⟨backends, hm, hon⟩ := PowerMonitor.construct_ok h
  obtain rfl : monitor = .construct backends := hm
  have hentry : ∀ x ∈ machine.trace (.construct backends) events,
      x.before.backends.devices = backends.devices := fun x hx => devices_trace hx
  have hreads : ∀ x ∈ machine.trace (.construct backends) events, ∀ r, x.event.reads = some r →
      x.before.backends.KeepsChannels r.ioreport := by
    intro x hx r hr
    exact keepsChannels_of_devices (hentry x hx) (hkeeps x.event (machine.mem_trace hx).2 r hr)
  have hrun : (machine.run (.construct backends) events).backends.devices = backends.devices :=
    Machine.constant_run (f := fun m : EnergyMonitor => m.backends.devices) devices_next _ events
  refine ⟨?measured, ?stored, ?gpuQueried, ?socQueried⟩
  case measured =>
    intro x hx result hresult
    obtain ⟨houtcome, -⟩ := machine.mem_trace hx
    rw [hresult] at houtcome
    cases hevent : x.event with
    | endWindow key r =>
      rw [hevent] at houtcome
      obtain ⟨state, -, hmeasure, -⟩ := end_returns houtcome.symm
      have hkeys := measure_keys hmeasure (hreads x hx r (by rw [hevent]; rfl))
      have hlisted := listed_of_devices (hentry x hx)
      exact ⟨fun g => (hkeys.1 g).trans (hlisted.1 g), fun k => (hkeys.2 k).trans (hlisted.2 k)⟩
    | nvidiaTurn ts nvml n => rw [hevent] at houtcome; cases houtcome
    | jetsonRound now sysfs => rw [hevent] at houtcome; cases houtcome
    | beginWindow key r => rw [hevent] at houtcome; cases houtcome
  case stored =>
    intro x hx key r state hevent hstored
    obtain ⟨history, rest, hsplit⟩ := List.append_of_mem hx
    obtain ⟨hhistory, hbefore, -, -⟩ := machine.trace_split hsplit
    rw [hbefore] at hstored
    obtain ⟨b, hopen⟩ := openSince_of_window hstored
    obtain ⟨rb, state', hbegin, hsnapshots, hstored'⟩ := window_of_openSince hopen
    obtain rfl : state = state' := Option.some.inj (hstored.symm.trans hstored')
    rw [← hhistory] at hopen
    obtain ⟨pre, post, hpre, -⟩ := hopen
    have hb : b ∈ machine.trace (.construct backends) events := by
      rw [hsplit, hpre]
      simp
    exact findsStart_of_snapshots ((hentry x hx).trans (hentry b hb).symm) hsnapshots
      (hreads b hb rb (by rw [hbegin]; rfl)) (hreads x hx r (by rw [hevent]; rfl))
  case gpuQueried =>
    intro g hg nvml e
    have hlisted := ((listed_of_devices hrun).1 g).mpr hg
    exact ⟨getInstantPower_listed hlisted, getPowerLimit_listed hlisted⟩
  case socQueried =>
    intro metric hmetric r h₁ h₂ e
    exact getInstantSocPower_listed (onPlatform_of_devices hrun hon)
      (((listed_of_devices hrun).2 metric).mpr hmetric) (keepsChannels_of_devices hrun h₁)
      (keepsChannels_of_devices hrun h₂)

/-- Two channels, with the raw value `raw` in each. -/
def sampleChannels (raw : Int) : IOReportSample where
  channels := some [some ⟨"ECPU0", some "mJ", raw⟩, some ⟨"DRAM", none, raw⟩]

/-- IOReport, with the counters at `raw`; the delta is from a baseline at 3. -/
def sampleIOReport (raw : Int) : IOReport where
  createSamples := some (sampleChannels raw)
  createSamplesDelta := fun _ _ => some (sampleChannels (raw - 3))

theorem sampleIOReport_keeps (raw : Int) : (sampleIOReport raw).KeepsChannels (sampleChannels 3) := by
  intro current delta _ hdelta name
  obtain rfl : sampleChannels (raw - 3) = delta := Option.some.inj hdelta
  simp [IOReportSample.Lists, sampleChannels]

def sampleMachinery : Machinery where
  platform := .macosArm64
  nvmlCompiled := false
  nvml := fun _ => ⟨.error "", .error "", fun _ _ => .error "", fun _ _ => .error ""⟩
  jetsonAvailable := fun _ => false
  powerRails := fun _ => []
  now := fun _ => 0
  ioreport := fun _ => ⟨true, true, true, true, some (sampleChannels 3), true⟩

def sampleBegin : Reads := { sampleReads 1 0 with ioreport := sampleIOReport 5 }

def sampleEnd : Reads := { sampleReads 2 0 with ioreport := sampleIOReport 7 }

attribute [local instance] Rounding.binary64 in
theorem keys_agree_sample :
    ∃ m result, PowerMonitor.construct sampleMachinery [.appleSoC] {} = .ok m ∧
      KeysAgree m [.beginWindow "step" sampleBegin, .endWindow "step" sampleEnd] ∧
      machine.answer (machine.run m.energyMonitor [.beginWindow "step" sampleBegin])
        (.endWindow "step" sampleEnd) = .ended (.ok result) ∧
      (∀ metric, metric ∈ result.socEnergy ↔ metric ∈ m.powerQuery.socMetrics) ∧
      result.socEnergy["apple_cpu_total"]? = some (fl (2 / 10 ^ 3)) ∧
      result.socEnergy["apple_dram"]? = some (fl (2 / 10 ^ 9)) ∧ result.elapsedTime = 1 := by
  let apple : AppleSoCBackend := .ofBaseline true (sampleChannels 3)
  let s := EnergyMonitor.construct { apple := some apple }
  have hm : PowerMonitor.construct sampleMachinery [.appleSoC] {} = .ok ⟨s⟩ := rfl
  have hagree : KeysAgree ⟨s⟩ [.beginWindow "step" sampleBegin, .endWindow "step" sampleEnd] := by
    refine keys_agree hm ?_
    intro e he r hr found hfound
    obtain rfl : apple = found := Option.some.inj hfound
    simp only [List.mem_cons, List.not_mem_nil, or_false] at he
    obtain rfl | rfl := he
    · obtain rfl := Option.some.inj hr
      exact sampleIOReport_keeps 5
    · obtain rfl := Option.some.inj hr
      exact sampleIOReport_keeps 7
  have hends : ∃ result, ((EnergyMonitor.endWindow "step" sampleEnd).call
        (machine.run s [.beginWindow "step" sampleBegin])).1 = .ok result ∧
      result.socEnergy["apple_cpu_total"]? = some (fl (2 / 10 ^ 3)) ∧
      result.socEnergy["apple_dram"]? = some (fl (2 / 10 ^ 9)) ∧ result.elapsedTime = 1 := by
    decide +kernel
  obtain ⟨result, hresult, hcpu, hdram, helapsed⟩ := hends
  have hkeys := (hagree.measured _ (List.mem_cons_of_mem _ List.mem_cons_self) result
    (congrArg Outcome.ended hresult)).2
  exact ⟨⟨s⟩, result, hm, hagree, congrArg Outcome.ended hresult, hkeys, hcpu, hdram, helapsed⟩

end ZeusPower.Monitor
