import ZeusPower.Device.AppleMetrics
import ZeusPower.Monitor.Run

/-! What a window measures.

The stored window of a key is what the last begin of that key read, until an end of
that key returns: so an end that returns is matched with one begin of the run
(`OpenSince`), and its measurement is made of the readings of those two calls alone
(`Measures`). A call that throws leaves no trace in a run at all. -/
namespace ZeusPower.Monitor
open Device Library
open EnergyMonitor (machine)

/-- `b` is the begin of `key` that is still open after `history`: it returned, and no
begin or end of `key` has returned since. -/
def OpenSince (history : List Entry) (key : String) (b : Entry) : Prop :=
  ∃ pre post, history = pre ++ b :: post ∧ Begins key b ∧
    ∀ y ∈ post, ¬ Begins key y ∧ ¬ Ends key y

/-- `result` is what a window measures that begins over `atBegin` with the reads `rb`
and ends over `atEnd` with the reads `re`. -/
structure Measures [Rounding] (atBegin : BackendPtrs) (rb : Reads) (atEnd : BackendPtrs) (re : Reads)
    (result : Measurement) : Prop where
  elapsed : result.elapsedTime = fl (re.now - rb.now)
  gpus : ∀ g, g ∈ result.gpuEnergy ↔ ∃ nvidia, atEnd.nvidia = some nvidia ∧ g ∈ nvidia.gpuIndices
  /-- A GPU with a counter: the difference of its two readings. -/
  counter : ∀ nvidia₀ nvidia₁, atBegin.nvidia = some nvidia₀ → atEnd.nvidia = some nvidia₁ →
    ∀ g n, LastTurn nvidia₁.gpuIndices g n → nvidia₁.supportsEnergyCounter g = true →
    ∃ startMj endMj, nvidia₀.getTotalEnergyMj rb.nvml n g = .ok startMj ∧
      nvidia₁.getTotalEnergyMj re.nvml n g = .ok endMj ∧
      result.gpuEnergy[g]? = some (fl (fl (endMj / 1000) - fl (startMj / 1000)))
  /-- A polled GPU: the trapezoids of its samples in the window, or the fallback. -/
  polled : ∀ nvidia, atEnd.nvidia = some nvidia →
    ∀ g n, LastTurn nvidia.gpuIndices g n → nvidia.supportsEnergyCounter g = false →
    let energy := Trapezoid.summed 0
      (NvidiaGpuBackend.sortTimeline (nvidia.timeline g rb.now re.now))
    (0 < energy ∧ result.gpuEnergy[g]? = some energy) ∨
      (energy ≤ 0 ∧ ∃ powerW, nvidia.getInstantPowerW re.nvml n g = .ok powerW ∧
        result.gpuEnergy[g]? = some (fl (powerW * fl (re.now - rb.now))))
  /-- A SoC metric: the difference of the two cumulative readings of its backend. Apple
  is written last; a metric the begin did not report has read 0. -/
  soc : ∃ startSnap endSnap : Map String Double,
    atBegin.readApple (·.snapshotEnergyJ rb.ioreport) = .ok startSnap ∧
    atEnd.readApple (·.snapshotEnergyJ re.ioreport) = .ok endSnap ∧
    ∀ metric : String, result.socEnergy[metric]? =
      (endSnap[metric]?.map fun endE => fl (endE - startSnap[metric]?.getD 0)).or
        ((atEnd.readJetson (·.snapshotEnergyJ))[metric]?.map fun endE =>
          fl (endE - (atBegin.readJetson (·.snapshotEnergyJ))[metric]?.getD 0))

/-! ### The two calls of a window -/

theorem takeSnapshots_ok [Rounding] {backends : BackendPtrs} {r : Reads} {state : WindowState}
    (h : backends.takeSnapshots r = .ok state) :
    backends.readNvidia (·.snapshotEnergyJ r.nvml) = .ok state.nvidiaSnap ∧
      backends.readApple (·.snapshotEnergyJ r.ioreport) = .ok state.appleSnap ∧
      state.jetsonSnap = backends.readJetson (·.snapshotEnergyJ) ∧ state.startTime = r.now := by
  obtain ⟨nvidiaSnap, hn, h⟩ := Fallible.bind_eq_ok.mp h
  obtain ⟨appleSnap, ha, h⟩ := Fallible.bind_eq_ok.mp h
  cases h
  exact ⟨hn, ha, rfl, rfl⟩

theorem measure_ok [Rounding] {backends : BackendPtrs} {state : WindowState} {r : Reads} {result : Measurement}
    (h : backends.measure state r = .ok result) :
    backends.readNvidia (·.computeEnergyDeltaJ r.nvml state.nvidiaSnap state.startTime r.now
        (fl (r.now - state.startTime))) = .ok result.gpuEnergy ∧
      ∃ socDelta, backends.readApple (·.computeEnergyDeltaJ r.ioreport state.appleSnap) = .ok socDelta ∧
        result.socEnergy = Map.overwrite (fun _ v => v)
          (backends.readJetson (·.computeEnergyDeltaJ state.jetsonSnap)) socDelta ∧
        result.elapsedTime = fl (r.now - state.startTime) := by
  obtain ⟨gpuDelta, hn, h⟩ := Fallible.bind_eq_ok.mp h
  obtain ⟨socDelta, ha, h⟩ := Fallible.bind_eq_ok.mp h
  cases h
  exact ⟨hn, socDelta, ha, rfl, rfl⟩

/-- Apple's delta is its reading in this call, less the stored one. -/
theorem readApple_delta [Rounding] {backends : BackendPtrs} {r : Reads} {startSnap socDelta : Map String Double}
    (h : backends.readApple (·.computeEnergyDeltaJ r.ioreport startSnap) = .ok socDelta) :
    ∃ endSnap : Map String Double, backends.readApple (·.snapshotEnergyJ r.ioreport) = .ok endSnap ∧
      ∀ metric : String, socDelta[metric]? = endSnap[metric]?.map fun endE => fl (endE - startSnap[metric]?.getD 0) := by
  unfold BackendPtrs.readApple at h ⊢
  cases ha : backends.apple with
  | none =>
    rw [ha] at h
    cases h
    exact ⟨∅, rfl, fun metric => by simp⟩
  | some apple =>
    simp only [ha] at h ⊢
    obtain ⟨endSnap, hs, h⟩ := Fallible.bind_eq_ok.mp h
    cases h
    exact ⟨endSnap, hs, fun metric => Map.lookup_overwrite_empty _ endSnap metric⟩

theorem readJetson_delta [Rounding] (backends : BackendPtrs) (startSnap : Map String Double) (metric : String) :
    (backends.readJetson (·.computeEnergyDeltaJ startSnap))[metric]? =
      (backends.readJetson (·.snapshotEnergyJ))[metric]?.map fun endE =>
        fl (endE - startSnap[metric]?.getD 0) := by
  unfold BackendPtrs.readJetson
  cases backends.jetson with
  | none => simp
  | some jetson => exact Map.lookup_overwrite_empty _ jetson.snapshotEnergyJ metric

/-- Over the same devices, a begin and an end that read what they need measure the
window between them. -/
theorem measures_of_reads [Rounding] {atBegin atEnd : BackendPtrs} {rb re : Reads} {state : WindowState}
    {result : Measurement} (hdevices : atEnd.devices = atBegin.devices)
    (hbegin : atBegin.takeSnapshots rb = .ok state) (hend : atEnd.measure state re = .ok result) :
    Measures atBegin rb atEnd re result := by
  obtain ⟨hsnap, happle, hjetson, hstart⟩ := takeSnapshots_ok hbegin
  obtain ⟨hgpu, socDelta, hsoc, hsocEnergy, helapsed⟩ := measure_ok hend
  rw [hstart] at hgpu helapsed
  refine ⟨helapsed, ?gpus, ?counter, ?polled, ?soc⟩
  case gpus =>
    intro g
    unfold BackendPtrs.readNvidia at hgpu
    cases hn : atEnd.nvidia with
    | none =>
      rw [hn] at hgpu
      obtain hempty : ∅ = result.gpuEnergy := Except.ok.inj hgpu
      simp [← hempty]
    | some nvidia =>
      rw [hn] at hgpu
      simp [NvidiaGpuBackend.mem_delta hgpu g]
  case counter =>
    intro nvidia₀ nvidia₁ h₀ h₁ g n hturn hcounter
    obtain ⟨nvidia, hn, hindices, hcounters⟩ := nvidia_of_devices hdevices h₁
    obtain rfl : nvidia₀ = nvidia := Option.some.inj (h₀.symm.trans hn)
    simp only [BackendPtrs.readNvidia, h₀] at hsnap
    simp only [BackendPtrs.readNvidia, h₁] at hgpu
    obtain ⟨startMj, hstartMj, hlookup⟩ := NvidiaGpuBackend.lookup_snapshot hsnap (hindices ▸ hturn)
      (hcounters ▸ hcounter)
    obtain ⟨endMj, hendMj, hdelta⟩ := NvidiaGpuBackend.lookup_delta_counter hgpu hturn hcounter
    rw [hlookup] at hdelta
    exact ⟨startMj, endMj, hstartMj, hendMj, hdelta⟩
  case polled =>
    intro nvidia hn g n hturn hpolled
    simp only [BackendPtrs.readNvidia, hn] at hgpu
    obtain ⟨energy, henergy, hdelta⟩ := NvidiaGpuBackend.lookup_delta_polled hgpu hturn hpolled
    rw [hdelta]
    dsimp only
    rw [← NvidiaGpuBackend.computeEnergyFromSamples_eq]
    rcases NvidiaGpuBackend.polledEnergy_cases henergy with ⟨hpos, rfl⟩ | ⟨hle, powerW, hp, rfl⟩
    · exact Or.inl ⟨hpos, rfl⟩
    · exact Or.inr ⟨hle, powerW, hp, rfl⟩
  case soc =>
    obtain ⟨endSnap, hendSnap, hdelta⟩ := readApple_delta hsoc
    refine ⟨state.appleSnap, endSnap, happle, hendSnap, ?_⟩
    intro metric
    rw [hsocEnergy, Map.lookup_overwrite, hdelta metric, Option.map_id', readJetson_delta, hjetson]

/-! ### The stored window and the history -/

/-- The stored window of a key is what the begin still open read. -/
theorem window_of_openSince [Rounding] {s : EnergyMonitor} {events : List Event} {key : String} {b : Entry}
    (h : OpenSince (machine.trace s events) key b) :
    ∃ rb state, b.event = .beginWindow key rb ∧ b.before.backends.takeSnapshots rb = .ok state ∧
      (machine.run s events).windows[key]? = some state := by
  obtain ⟨pre, post, hsplit, ⟨rb, hevent, hreturned⟩, hquiet⟩ := h
  have hanswer : machine.answer b.before (.beginWindow key rb) = .began (.ok ()) := by
    have houtcome := (machine.trace_split hsplit).2.2.1
    rwa [hevent, hreturned, eq_comm] at houtcome
  obtain ⟨-, state, hstate, -⟩ := begin_returns hanswer
  refine ⟨rb, state, hevent, hstate, ?_⟩
  have hwrite : windowWrite key b = some (some state) := by
    simp only [windowWrite, hevent, hreturned, if_true, hstate, Except.toOption]
  have hview := (windowRegister key).view_run s events
  have hlast : ((machine.trace s events).filterMap (windowRegister key).write).getLast? =
      some (some state) := by
    rw [hsplit]
    exact Machine.last_write_eq (windowWrite key) hwrite fun y hy => windowWrite_eq_none.mpr (hquiet y hy)
  rw [hlast] at hview
  exact hview

/-- A key with a stored window has a begin still open. -/
theorem openSince_of_window [Rounding] {backends : BackendPtrs} {events : List Event} {key : String}
    {state : WindowState}
    (h : (machine.run (.construct backends) events).windows[key]? = some state) :
    ∃ b, OpenSince (machine.trace (.construct backends) events) key b := by
  have hview := (windowRegister key).view_run (.construct backends) events
  have hstored : (windowRegister key).view (machine.run (.construct backends) events) = some state := h
  have hempty : (windowRegister key).view (.construct backends) = none :=
    Std.ExtTreeMap.getElem?_empty
  rw [hstored, hempty] at hview
  cases hlast : ((machine.trace (.construct backends) events).filterMap
      (windowRegister key).write).getLast? with
  | none => rw [hlast] at hview; cases hview
  | some written =>
    rw [hlast] at hview
    obtain rfl : some state = written := hview
    obtain ⟨pre, b, post, hsplit, hwrite, hpost⟩ := Machine.last_write _ _ hlast
    obtain ⟨rb, hevent, hreturned, -⟩ := windowWrite_eq_some hwrite
    exact ⟨b, pre, post, hsplit, ⟨rb, hevent, hreturned⟩,
      fun y hy => windowWrite_eq_none.mp (hpost y hy)⟩

/-- An end that returns measures, over the same devices, from what the begin that is
open before it stored. -/
theorem reads_of_openSince [Rounding] {backends : BackendPtrs} {events : List Event}
    {history rest : List Entry} {x b : Entry} {key : String} {r : Reads} {result : Measurement}
    (h : machine.trace (.construct backends) events = history ++ x :: rest)
    (hx : x.event = .endWindow key r) (hresult : x.outcome = .ended (.ok result))
    (hopen : OpenSince history key b) :
    ∃ rb state, b.event = .beginWindow key rb ∧ b.before.backends.takeSnapshots rb = .ok state ∧
      x.before.backends.measure state r = .ok result ∧
      x.before.backends.devices = b.before.backends.devices := by
  obtain ⟨hhistory, hbefore, houtcome, -⟩ := machine.trace_split h
  rw [hx, hresult] at houtcome
  obtain ⟨state, hw, hmeasure, -⟩ := end_returns houtcome.symm
  have hopen' := hopen
  rw [hhistory] at hopen'
  obtain ⟨rb, state', hevent, hstate, hw'⟩ := window_of_openSince hopen'
  rw [← hbefore, hw] at hw'
  obtain rfl : state = state' := Option.some.inj hw'
  refine ⟨rb, state, hevent, hstate, hmeasure, ?_⟩
  obtain ⟨pre, post, hsplit, -⟩ := hopen
  have hxmem : x ∈ machine.trace (.construct backends) events := by
    rw [h]
    exact List.mem_append_right _ List.mem_cons_self
  have hbmem : b ∈ machine.trace (.construct backends) events := by
    rw [h, hsplit]
    simp
  rw [devices_trace hxmem, devices_trace hbmem]

/-! ### Reads that fail

A device that cannot be read says so in its own words, never as a window error. -/

theorem measure_error [Rounding] {backends : BackendPtrs} {state : WindowState} {r : Reads} {e : Error}
    (h : backends.measure state r = .error e) (key : String) : e ≠ .windowNotFound key := by
  obtain hn | ⟨gpuDelta, -, h⟩ := Fallible.bind_eq_error.mp h
  · unfold BackendPtrs.readNvidia at hn
    split at hn
    next nvidia =>
      obtain ⟨message, context, rfl⟩ := NvidiaGpuBackend.computeEnergyDeltaJ_error hn
      exact fun he => Error.noConfusion he
    next => cases hn
  · obtain ha | ⟨socDelta, -, h⟩ := Fallible.bind_eq_error.mp h
    · unfold BackendPtrs.readApple at ha
      split at ha
      next apple =>
        obtain rfl | rfl := AppleSoCBackend.computeEnergyDeltaJ_error ha
        · exact fun he => Error.noConfusion he
        · exact fun he => Error.noConfusion he
      next => cases ha
    · cases h

/-! ### Main results -/

/-- **A window is measured from its own begin.** In any run, an end of `key` is
refused as unknown exactly when no begin of `key` is open; and one that returns
measures, on every backend, between the readings of that begin and its own. -/
theorem window_measures_its_begin [Rounding] (backends : BackendPtrs) (events : List Event)
    {history rest : List Entry} {x : Entry} {key : String} {r : Reads}
    (h : machine.trace (.construct backends) events = history ++ x :: rest)
    (hx : x.event = .endWindow key r) :
    (x.outcome = .ended (.error (.windowNotFound key)) ↔ ¬ ∃ b, OpenSince history key b) ∧
      ∀ result, x.outcome = .ended (.ok result) →
        ∃ b rb, OpenSince history key b ∧ b.event = .beginWindow key rb ∧
          Measures b.before.backends rb x.before.backends r result := by
  obtain ⟨hhistory, hbefore, houtcome, -⟩ := Machine.trace_split machine h
  rw [hx] at houtcome
  constructor
  · rw [houtcome, answer_end, EnergyMonitor.endWindow_call]
    constructor
    · intro hrefused hopen
      obtain ⟨b, hb⟩ := hopen
      rw [hhistory] at hb
      obtain ⟨rb, state, -, -, hstored⟩ := window_of_openSince hb
      rw [← hbefore] at hstored
      rw [hstored] at hrefused
      dsimp only at hrefused
      cases hm : x.before.backends.measure state r with
      | error e =>
        rw [hm] at hrefused
        exact measure_error hm key (Except.error.inj (Outcome.ended.inj hrefused))
      | ok result => rw [hm] at hrefused; cases hrefused
    · intro hclosed
      cases hw : x.before.windows[key]? with
      | none => rfl
      | some state =>
        rw [hbefore] at hw
        obtain ⟨b, hb⟩ := openSince_of_window hw
        rw [← hhistory] at hb
        exact absurd ⟨b, hb⟩ hclosed
  · intro result hresult
    have hreturned : machine.answer x.before (.endWindow key r) = .ended (.ok result) :=
      houtcome.symm.trans hresult
    obtain ⟨state, hw, -, -⟩ := end_returns hreturned
    rw [hbefore] at hw
    obtain ⟨b, hb⟩ := openSince_of_window hw
    rw [← hhistory] at hb
    obtain ⟨rb, state, hevent, hstate, hmeasure, hdevices⟩ := reads_of_openSince h hx hresult hb
    exact ⟨b, rb, hb, hevent, measures_of_reads hdevices hstate hmeasure⟩

/-- A board with a GPU that has a counter, one that is polled, and one power rail. -/
def sampleBackends : BackendPtrs where
  nvidia := (NvidiaGpuBackend.construct true
    { init := .ok (), deviceCount := .ok 2, handleByIndex := fun _ i => .ok i,
      architecture := fun _ handle => .ok (if handle = 0 then 7 else 4) } []).toOption
  jetson := some (.ofRails [⟨"VDD_IN", .directPower, "in1_power", "", ""⟩] 0)

/-- A clock reading, with the counter at `energyMj` and every GPU drawing 200 W. -/
def sampleReads (now : Double) (energyMj : ℕ) : Reads where
  now := now
  nvml := { totalEnergyConsumption := fun _ _ => .ok energyMj, powerUsage := fun _ _ => .ok 200000,
            powerManagementLimit := fun _ => .error "Not Supported" }
  ioreport := { createSamples := none, createSamplesDelta := fun _ _ => none }

/-- A window opened, and two turns of the polling threads. -/
def sampleEvents : List Event :=
  [.beginWindow "epoch" (sampleReads 10 5000), .nvidiaTurn 11 (sampleReads 11 5500).nvml 1,
    .jetsonRound 11 (fun _ _ => some "7000"), .nvidiaTurn 12 (sampleReads 12 6000).nvml 1]

attribute [local instance] Rounding.binary64 in
theorem window_measures_its_begin_sample :
    let s := machine.run (.construct sampleBackends) sampleEvents
    ∃ result b, machine.answer s (.endWindow "epoch" (sampleReads 13 6500)) = .ended (.ok result) ∧
      result.gpuEnergy[(0 : Int)]? = some (3 / 2) ∧ result.gpuEnergy[(1 : Int)]? = some 200 ∧
      result.socEnergy["VDD_IN"]? = some 77 ∧ result.elapsedTime = 3 ∧
      OpenSince (machine.trace (.construct sampleBackends) sampleEvents) "epoch" b ∧
      b.event = .beginWindow "epoch" (sampleReads 10 5000) ∧
      Measures b.before.backends (sampleReads 10 5000) s.backends (sampleReads 13 6500) result := by
  intro s
  have hmeasures := (window_measures_its_begin sampleBackends
    (sampleEvents ++ [.endWindow "epoch" (sampleReads 13 6500)])
    (Machine.trace_append machine _ sampleEvents _) rfl).2
  have hends : ∃ result, ((EnergyMonitor.endWindow "epoch" (sampleReads 13 6500)).call
        (machine.run (.construct sampleBackends) sampleEvents)).1 = .ok result ∧
      result.gpuEnergy[(0 : Int)]? = some (3 / 2) ∧ result.gpuEnergy[(1 : Int)]? = some 200 ∧
      result.socEnergy["VDD_IN"]? = some 77 ∧ result.elapsedTime = 3 := by
    decide +kernel
  obtain ⟨result, hresult, hcounter, hpolled, hrail, helapsed⟩ := hends
  obtain ⟨b, rb, hopen, hevent, hb⟩ := hmeasures result (congrArg Outcome.ended hresult)
  have hfirst : rb = sampleReads 10 5000 := by
    obtain ⟨pre, post, hsplit, -⟩ := hopen
    have hmem : b ∈ machine.trace (.construct sampleBackends) sampleEvents := by
      rw [hsplit]
      simp
    have hsample := (machine.mem_trace hmem).2
    rw [hevent] at hsample
    simpa [sampleEvents] using hsample
  rw [hfirst] at hevent hb
  exact ⟨result, b, congrArg Outcome.ended hresult, hcounter, hpolled, hrail, helapsed, hopen, hevent, hb⟩

/-- **A call that throws leaves no trace.** Deleting the calls that threw from a run
leaves every other entry (the state it meets and what it returns) and the final
monitor as they were; each of them left the monitor as it found it. -/
theorem throwing_calls_erased [Rounding] (backends : BackendPtrs) (events : List Event) :
    let t := machine.trace (.construct backends) events
    let returned := Machine.kept Outcome.threw t
    machine.trace (.construct backends) (returned.map Entry.event) = returned ∧
      machine.run (.construct backends) (returned.map Entry.event) =
        machine.run (.construct backends) events ∧
      ∀ x ∈ t, x.outcome.threw = true → machine.next x.before x.event = x.before := by
  obtain ⟨htrace, hrun⟩ := Machine.erase_rejected threw_next (.construct backends) events
  refine ⟨htrace, hrun, fun x hx hthrew => ?_⟩
  rw [(machine.mem_trace hx).1] at hthrew
  exact threw_next x.before x.event hthrew

end ZeusPower.Monitor
