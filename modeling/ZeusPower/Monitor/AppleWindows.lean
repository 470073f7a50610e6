import ZeusPower.Device.AppleDeltas
import ZeusPower.Monitor.Windows

/-! Windows over Apple channels that go back.

The guard in the parser clamps a channel against the baseline of construction, and a
window is the difference of two such snapshots. So a channel that is reset between the
two calls of a window takes off what it had, and the guard does not help. What a user sees
of a metric, in a delta, in a window or as instant power, is not negative while none of its
channels is set back; and in exact arithmetic, where its channels do not move against each
other, only then (`guard_protects`). -/
namespace ZeusPower.Monitor
open Device Library
open EnergyMonitor (machine)
open AppleSoCBackend (reading Answers counting change NoneSetBack OneWay)

section Guard
variable {channels : List (Option Channel)} {sub : Int → Int → Int} {baseline start finish : ℕ → Int}
  {first last : IOReport} {apple : AppleSoCBackend}

/-- A window's entry for an Apple metric is what its channels are seen to change by between
its two calls; a metric with no channels has no entry. -/
theorem lookup_window [Rounding] (hbase : apple.baselineSample = reading channels baseline)
    (hfirst : Answers sub first channels start) (hlast : Answers sub last channels finish)
    {atBegin atEnd : BackendPtrs} {rb re : Reads} {result : Measurement}
    (hmeasures : Measures atBegin rb atEnd re result) (hbegin : atBegin.apple = some apple)
    (hend : atEnd.apple = some apple) (hrb : rb.ioreport = first) (hre : re.ioreport = last)
    {metric : String} (hmetric : metric ∈ apple.availableMetrics) :
    result.socEnergy[metric]? =
      some (change sub apple.hasUnitLabel (counting channels metric) baseline start finish) := by
  obtain ⟨startSnap, endSnap, hstartSnap, hendSnap, hlookup⟩ := hmeasures.soc
  rw [AppleSoCBackend.mem_availableMetrics hbase] at hmetric
  simp only [BackendPtrs.readApple, hbegin, hrb,
    AppleSoCBackend.snapshotEnergyJ_reading hbase hfirst] at hstartSnap
  simp only [BackendPtrs.readApple, hend, hre,
    AppleSoCBackend.snapshotEnergyJ_reading hbase hlast] at hendSnap
  cases hstartSnap
  cases hendSnap
  rw [hlookup, AppleSoCBackend.lookup_reading, AppleSoCBackend.lookup_reading, if_neg hmetric,
    if_neg hmetric, Option.map_some, Option.some_or, Option.getD_some]
  rfl

/-- The window that an end of a run returns has that entry. -/
theorem lookup_returned [Rounding] (hbase : apple.baselineSample = reading channels baseline)
    (hfirst : Answers sub first channels start) (hlast : Answers sub last channels finish)
    {backends : BackendPtrs} {events : List Event} {history rest : List Entry} {x b : Entry} {key : String}
    {rb r : Reads} {result : Measurement} (happle : backends.apple = some apple)
    (htrace : machine.trace (.construct backends) events = history ++ x :: rest)
    (hx : x.event = .endWindow key r) (hresult : x.outcome = .ended (.ok result))
    (hopen : OpenSince history key b) (hevent : b.event = .beginWindow key rb)
    (hrb : rb.ioreport = first) (hr : r.ioreport = last) {metric : String}
    (hmetric : metric ∈ apple.availableMetrics) : result.socEnergy[metric]? =
      some (change sub apple.hasUnitLabel (counting channels metric) baseline start finish) := by
  obtain ⟨rb', state, hevent', hstate, hmeasure, hdevices⟩ := reads_of_openSince htrace hx hresult hopen
  obtain rfl : rb = rb' := by
    rw [hevent] at hevent'
    exact (Event.beginWindow.inj hevent').2
  have hmeasures := measures_of_reads hdevices hstate hmeasure
  have hxmem : x ∈ machine.trace (.construct backends) events := by
    rw [htrace]
    exact List.mem_append_right _ List.mem_cons_self
  have hend : x.before.backends.apple = some apple :=
    (apple_of_devices (devices_trace hxmem)).trans happle
  have hbegin : b.before.backends.apple = some apple :=
    (apple_of_devices hdevices).symm.trans hend
  exact lookup_window hbase hfirst hlast hmeasures hbegin hend hrb hr hmetric

/-- **What the guard protects.** While none of the channels that count for a metric is set
back, no delta, no instant power and no window of any run has a negative value of it. In
exact arithmetic, where these channels do not move against each other, each of the three is
free of negative values exactly then. -/
theorem guard_protects [Rounding] (hbase : apple.baselineSample = reading channels baseline)
    (hfirst : Answers sub first channels start) (hlast : Answers sub last channels finish) (metric : String) :
    (NoneSetBack sub channels baseline start finish metric →
      (∀ delta, apple.deltaBetween first last = .ok delta → ∀ v, delta[metric]? = some v → 0 ≤ v) ∧
      (∀ t1 t2 v, apple.getInstantPowerW first last t1 t2 metric = .ok v → 0 ≤ v)) ∧
    (Exact → OneWay sub channels baseline start finish metric →
      ((∀ delta, apple.deltaBetween first last = .ok delta → ∀ v, delta[metric]? = some v → 0 ≤ v) ↔
        NoneSetBack sub channels baseline start finish metric) ∧
      ((∀ t1 t2 v, apple.getInstantPowerW first last t1 t2 metric = .ok v → 0 ≤ v) ↔
        NoneSetBack sub channels baseline start finish metric)) ∧
    ∀ (backends : BackendPtrs) (events : List Event) (history rest : List Entry) (x b : Entry)
      (key : String) (rb r : Reads) (result : Measurement), backends.apple = some apple →
      machine.trace (.construct backends) events = history ++ x :: rest →
      x.event = .endWindow key r → x.outcome = .ended (.ok result) →
      OpenSince history key b → b.event = .beginWindow key rb →
      rb.ioreport = first → r.ioreport = last → metric ∈ apple.availableMetrics →
      ∃ v, result.socEnergy[metric]? = some v ∧
        (NoneSetBack sub channels baseline start finish metric → 0 ≤ v) ∧
        (Exact → OneWay sub channels baseline start finish metric →
          (0 ≤ v ↔ NoneSetBack sub channels baseline start finish metric)) := by
  have hnone : counting channels metric = [] → NoneSetBack sub channels baseline start finish metric := by
    intro hempty row hrow
    rw [hempty] at hrow
    cases hrow
  refine ⟨?kept, ?exactly, ?windows⟩
  case kept =>
    intro hkept
    have hchange := AppleSoCBackend.change_nonneg apple.hasUnitLabel hkept
    exact ⟨(AppleSoCBackend.deltaBetween_nonneg_iff hbase hfirst hlast metric).mpr fun _ => hchange,
      fun t1 t2 v hv => AppleSoCBackend.getInstantPowerW_nonneg hbase hfirst hlast hchange hv⟩
  case exactly =>
    intro _ honeWay
    have hiff := AppleSoCBackend.change_nonneg_iff apple.hasUnitLabel honeWay
    constructor
    · rw [AppleSoCBackend.deltaBetween_nonneg_iff hbase hfirst hlast metric]
      constructor
      · intro h
        by_cases hempty : counting channels metric = []
        · exact hnone hempty
        · exact hiff.mp (h hempty)
      · exact fun h _ => hiff.mpr h
    · constructor
      · intro h
        by_cases hempty : counting channels metric = []
        · exact hnone hempty
        · exact hiff.mp (AppleSoCBackend.change_nonneg_of_power hbase hfirst hlast h hempty)
      · exact fun h t1 t2 v hv =>
          AppleSoCBackend.getInstantPowerW_nonneg hbase hfirst hlast (hiff.mpr h) hv
  case windows =>
    intro backends events history rest x b key rb r result happle htrace hx hresult hopen hevent hrb hr
      hmetric
    exact ⟨_, lookup_returned hbase hfirst hlast happle htrace hx hresult hopen hevent hrb hr hmetric,
      AppleSoCBackend.change_nonneg apple.hasUnitLabel,
      fun _ => AppleSoCBackend.change_nonneg_iff apple.hasUnitLabel⟩

end Guard

/-- One DRAM channel, in mJ. -/
def dramChannels : List (Option Channel) := [some ⟨"DRAM", some "mJ", 0⟩]

def dramBackend : AppleSoCBackend := .ofBaseline true (reading dramChannels fun _ => 0)

/-- A call that finds the DRAM channel at `raw`. -/
def dramReads (now : Double) (raw : Int) : Reads :=
  { sampleReads now 0 with ioreport := AppleSoCBackend.subtracting dramChannels fun _ => raw }

attribute [local instance] Rounding.binary64 in
theorem guard_protects_sample :
    ∃ result v, machine.answer
        (machine.run (.construct { apple := some dramBackend }) [.beginWindow "step" (dramReads 1 5)])
        (.endWindow "step" (dramReads 2 9)) = .ended (.ok result) ∧
      result.socEnergy["apple_dram"]? = some v ∧ v = 4611686018427389 / 2 ^ 60 ∧ 0 ≤ v := by
  let s := EnergyMonitor.construct { apple := some dramBackend }
  let begun : Event := .beginWindow "step" (dramReads 1 5)
  let ended : Event := .endWindow "step" (dramReads 2 9)
  have hbegun : ((EnergyMonitor.beginWindow "step" (dramReads 1 5)).call s).1 = .ok () := by
    decide +kernel
  have hends : ∃ result, ((EnergyMonitor.endWindow "step" (dramReads 2 9)).call
        (machine.run s [begun])).1 = .ok result ∧
      result.socEnergy["apple_dram"]? = some (4611686018427389 / 2 ^ 60) := by
    decide +kernel
  obtain ⟨result, hresult, hvalue⟩ := hends
  have hwindow := (guard_protects (show dramBackend.baselineSample = reading dramChannels fun _ => 0 from rfl)
    (AppleSoCBackend.subtracting_answers dramChannels fun _ => 5)
    (AppleSoCBackend.subtracting_answers dramChannels fun _ => 9) "apple_dram").2.2
    { apple := some dramBackend } [begun, ended] [⟨s, begun, machine.answer s begun⟩] []
    ⟨machine.run s [begun], ended, machine.answer (machine.run s [begun]) ended⟩
    ⟨s, begun, machine.answer s begun⟩ "step" (dramReads 1 5) (dramReads 2 9) result rfl rfl rfl
    (congrArg Outcome.ended hresult)
    ⟨[], [], rfl, ⟨_, rfl, congrArg Outcome.began hbegun⟩, List.forall_mem_nil _⟩ rfl rfl rfl
    (by decide +kernel)
  obtain ⟨v, hv, hkept, -⟩ := hwindow
  refine ⟨result, v, congrArg Outcome.ended hresult, hv, Option.some.inj (hv.symm.trans hvalue), hkept ?_⟩
  intro row _ hback
  exact absurd hback.2 (show ¬ (9 - 0 : Int) < 5 - 0 by decide)

attribute [local instance] Rounding.binary64 in
/-- **The guard misses a reset inside a window.** A DRAM channel that stands at 0 mJ at
construction, at 100 when the window begins and at 10 when it ends gives the window
-0.09000000000000001 J, and an instant power of -1.8 W. -/
theorem reset_inside_window :
    (∃ delta, dramBackend.deltaBetween (dramReads 1 100).ioreport (dramReads 2 10).ioreport = .ok delta ∧
      delta["apple_dram"]? = some (-6485183463413515 / 2 ^ 56)) ∧
    dramBackend.getInstantPowerW (dramReads 1 100).ioreport (dramReads 2 10).ioreport 0 (fl (1 / 20))
      "apple_dram" = .ok (-(fl (9 / 5))) ∧
    ∃ result : Measurement, machine.answer
        (machine.run (.construct { apple := some dramBackend }) [.beginWindow "step" (dramReads 1 100)])
        (.endWindow "step" (dramReads 2 10)) = .ended (.ok result) ∧
      result.socEnergy["apple_dram"]? = some (-6485183463413515 / 2 ^ 56) := by
  refine ⟨by decide +kernel, by decide +kernel, ?_⟩
  have hends : ∃ result, ((EnergyMonitor.endWindow "step" (dramReads 2 10)).call (machine.run
      (.construct { apple := some dramBackend }) [.beginWindow "step" (dramReads 1 100)])).1 = .ok result ∧
      result.socEnergy["apple_dram"]? = some (-6485183463413515 / 2 ^ 56) := by
    decide +kernel
  obtain ⟨result, hresult, hvalue⟩ := hends
  exact ⟨result, by rw [answer_end, hresult], hvalue⟩

end ZeusPower.Monitor
