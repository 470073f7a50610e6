import ZeusPower.Reference.PowerLimitRuns

/-! How profiling ends, or does not.

A finished training has saved its profile, and an optimizer built from it is done at once,
with the same optimum (`resumed_done`).

Two ways lead out of the walk for good. `warmup_steps = 0` passes the constructor's check,
but not pydantic's when the first warmup begins, so nothing is ever measured
(`no_warmup_never_measures`). And where a window measures no energy, which the monitor
warns of for windows shorter than the counter's update period, pydantic refuses the
measurement after the window is over: the optimizer stays in that limit, and every end of
an epoch raises (`no_energy_sticks`). -/
namespace ZeusPower.Reference
open Library

namespace GlobalPowerLimitOptimizer

/-! ### A saved profile -/

/-- **A saved profile is enough.** An optimizer built from the profile that a finished
training has saved is done at once: with the same measurements, the same optimum, and that
limit on every GPU. -/
theorem resumed_done [Rounding] {plo : GlobalPowerLimitOptimizer} {setup : Setup} {calls : Calls}
    (hnew : setup.profile.join = none)
    (hpath : setup.profile.isSome = true) (hbuilt : construct setup calls = .ok plo)
    (hclosed : ∀ pl ∈ plo.powerLimits, windowName pl ∉ setup.monitor.measurementStates)
    {events : List TrainingEvent} (hundisturbed : Undisturbed plo events) {optimal : Int}
    (hdone : (machine.run plo events).state = .done optimal) {later : Setup} {calls' : Calls}
    (hselector : later.optimumSelector = setup.optimumSelector)
    (hsaved : later.profile = some (machine.run plo events).savedProfile)
    {resumed : GlobalPowerLimitOptimizer} (hresumed : construct later calls' = .ok resumed) :
    resumed.state = .done optimal ∧ resumed.measurements = (machine.run plo events).measurements ∧
      ∀ g ∈ later.monitor.gpuIndices, resumed.gpuLimits[g]? = some optimal := by
  obtain ⟨-, -, -, -, -, -, -, -, -, hsameSelector, hsamePath⟩ := construct_ok hnew hbuilt
  obtain ⟨h, hsetup⟩ := coherent_run (construct_coherent hnew hbuilt hclosed) hundisturbed.apart
    hundisturbed.returned
  have hcurrent := h.current
  unfold Current at hcurrent
  rw [hdone] at hcurrent
  obtain ⟨-, hoptimal, -, hfile⟩ := hcurrent
  have hprofile : later.profile.join = some (machine.run plo events).measurements := by
    rw [hsaved, Option.join_some, hfile (by rw [hsetup.profilePath, hsamePath, hpath])]
  rw [computeOptimalPowerLimit, hsetup.selector, hsameSelector] at hoptimal
  unfold construct at hresumed
  obtain ⟨⟨⟩, -, hresumed⟩ := Fallible.bind_eq_ok.mp hresumed
  obtain ⟨powerLimits, -, hresumed⟩ := Fallible.bind_eq_ok.mp hresumed
  simp only [hprofile] at hresumed
  obtain ⟨optimal', hoptimal', hresumed⟩ := Fallible.bind_eq_ok.mp hresumed
  obtain ⟨state, hstate, hresumed⟩ := Fallible.bind_eq_ok.mp hresumed
  rw [computeOptimalPowerLimit, hselector] at hoptimal'
  obtain rfl : optimal = optimal' := Except.ok.inj (hoptimal.symm.trans hoptimal')
  obtain ⟨rfl, hpos⟩ := validated_ok hstate
  rcases hset : setPowerLimit calls' _ optimal with ⟨_ | _, middle⟩
  · rw [hset] at hresumed
    cases hresumed
  · rw [hset] at hresumed
    obtain rfl := Except.ok.inj hresumed
    obtain ⟨limits, rfl, hall⟩ := setPowerLimit_ok hset
    have hne : (0 : Int) ≠ optimal := by
      have : 0 < optimal := hpos
      omega
    exact ⟨rfl, rfl, hall (Or.inl hne)⟩

attribute [local instance] Rounding.binary64 in
/-- The same GPU, in another training. -/
def laterSetup : Setup :=
  { sampleSetup with profile := some (machine.run sampleOptimizer (stepsFrom 0 5)).savedProfile }

attribute [local instance] Rounding.binary64 in
def resumedOptimizer : GlobalPowerLimitOptimizer :=
  match construct laterSetup (callsAt 0) with
  | .ok resumed => resumed
  | .error _ => sampleOptimizer

attribute [local instance] Rounding.binary64 in
theorem later_built : construct laterSetup (callsAt 0) = .ok resumedOptimizer := by
  have hok : (construct laterSetup (callsAt 0)).toOption.isSome = true := by decide +kernel
  unfold resumedOptimizer
  cases hbuilt : construct laterSetup (callsAt 0) with
  | ok resumed => rfl
  | error e =>
    rw [hbuilt] at hok
    cases hok

attribute [local instance] Rounding.binary64 in
theorem resumed_done_sample :
    resumedOptimizer.state = .done 200000 ∧
      resumedOptimizer.measurements = (machine.run sampleOptimizer (stepsFrom 0 5)).measurements ∧
      ∀ g ∈ laterSetup.monitor.gpuIndices, resumedOptimizer.gpuLimits[g]? = some 200000 :=
  resumed_done (by rfl) (by rfl) sample_built sample_closed sample_undisturbed (by decide +kernel) (by rfl) (by rfl)
    later_built

/-! ### No warmup -/

section NoWarmup
variable [Rounding] {plo plo' : GlobalPowerLimitOptimizer}

/-- Without a warmup the walk does not start. -/
structure Grounded (plo : GlobalPowerLimitOptimizer) : Prop where
  ready : ∃ next steps, plo.state = .ready next steps
  unmeasured : plo.measurements = []
  noWarmup : plo.warmupSteps = 0

theorem setPowerLimit_keeps (calls : Calls) (plo : GlobalPowerLimitOptimizer) (pl : Int) :
    (plo.setPowerLimit calls pl).2.state = plo.state ∧
      (plo.setPowerLimit calls pl).2.measurements = plo.measurements ∧
      (plo.setPowerLimit calls pl).2.warmupSteps = plo.warmupSteps := by
  unfold setPowerLimit
  split
  · exact ⟨rfl, rfl, rfl⟩
  · split <;> exact ⟨rfl, rfl, rfl⟩

/-- The warmup is refused when it is to begin, and the state is the one before. -/
theorem startWarmup_refused (calls : Calls) (hzero : plo.warmupSteps = 0) (pl : Int) :
    (∃ e, (plo.startWarmup calls pl).1 = .error e) ∧
      (plo.startWarmup calls pl).2 = (plo.setPowerLimit calls pl).2 := by
  unfold startWarmup
  have hkeeps := (setPowerLimit_keeps calls plo pl).2.2
  rcases hset : plo.setPowerLimit calls pl with ⟨e | _, middle⟩
  · exact ⟨⟨e, rfl⟩, rfl⟩
  · rw [hset] at hkeeps
    have hrefused : (State.warmup pl middle.warmupSteps).validated = .error (.validation "Warmup") := by
      rw [State.validated, if_neg]
      rw [hkeeps, hzero]
      omega
    simp only [hrefused, and_true]
    exact ⟨_, rfl⟩

theorem grounded_next (h : plo.Grounded) (e : TrainingEvent) : (machine.next plo e).Grounded := by
  obtain ⟨⟨next, steps, hstate⟩, hmeasurements, hzero⟩ := h
  cases e with
  | monitor auc e => exact ⟨⟨next, steps, hstate⟩, hmeasurements, hzero⟩
  | epochEnd calls =>
    have hsame : machine.next plo (.epochEnd calls) = plo := by
      show (plo.onEpochEnd calls).2 = plo
      simp only [onEpochEnd, hstate]
    rw [hsame]
    exact ⟨⟨next, steps, hstate⟩, hmeasurements, hzero⟩
  | stepBegin calls =>
    show ((plo.onStepBegin calls).2).Grounded
    simp only [onStepBegin, hstate]
    by_cases hlast : steps - 1 = 0
    · rw [if_pos hlast]
      have hzero' : { plo with state := State.ready next (steps - 1) }.warmupSteps = 0 := hzero
      rw [(startWarmup_refused calls hzero' next).2]
      obtain ⟨hstate', hmeasurements', hsteps'⟩ :=
        setPowerLimit_keeps calls { plo with state := State.ready next (steps - 1) } next
      exact ⟨⟨next, steps - 1, hstate'⟩, hmeasurements'.trans hmeasurements, hsteps'.trans hzero⟩
    · rw [if_neg hlast]
      exact ⟨⟨next, steps - 1, rfl⟩, hmeasurements, hzero⟩

/-- **Without a warmup nothing is measured.** The constructor takes `warmup_steps = 0`, but
then the optimizer is waiting after every training, whatever happens in it, and the step
that ends the wait raises. -/
theorem no_warmup_never_measures {setup : Setup} {calls : Calls} (hnew : setup.profile.join = none)
    (hbuilt : construct setup calls = .ok plo) (hzero : setup.warmupSteps = 0) (events : List TrainingEvent) :
    (∃ next steps, (machine.run plo events).state = .ready next steps) ∧
      (machine.run plo events).measurements = [] ∧
      ∀ next calls', (machine.run plo events).state = .ready next 1 →
        ∃ e, ((machine.run plo events).onStepBegin calls').1 = .error e := by
  obtain ⟨-, -, ⟨first, -, hstate⟩, hmeasurements, hsteps, -⟩ := construct_ok hnew hbuilt
  have hstart : plo.Grounded := ⟨⟨first, _, hstate⟩, hmeasurements, hsteps.trans hzero⟩
  have hrun : (machine.run plo events).Grounded := by
    clear hstate hmeasurements hsteps hbuilt
    induction events generalizing plo with
    | nil => exact hstart
    | cons e events ih => exact ih (grounded_next hstart e)
  refine ⟨hrun.ready, hrun.unmeasured, fun next calls' hready => ?_⟩
  simp only [onStepBegin, hready, Int.sub_self, if_true]
  have hno : { machine.run plo events with state := State.ready next 0 }.warmupSteps = 0 := hrun.noWarmup
  exact (startWarmup_refused calls' hno next).1

end NoWarmup

attribute [local instance] Rounding.binary64 in
def coldSetup : Setup := { sampleSetup with warmupSteps := 0 }

attribute [local instance] Rounding.binary64 in
def coldOptimizer : GlobalPowerLimitOptimizer := { sampleOptimizer with warmupSteps := 0 }

attribute [local instance] Rounding.binary64 in
theorem no_warmup_never_measures_sample :
    (∃ next steps, (machine.run coldOptimizer (stepsFrom 0 5)).state = .ready next steps) ∧
      (machine.run coldOptimizer (stepsFrom 0 5)).measurements = [] ∧
      ∀ next calls', (machine.run coldOptimizer (stepsFrom 0 5)).state = .ready next 1 →
        ∃ e, ((machine.run coldOptimizer (stepsFrom 0 5)).onStepBegin calls').1 = .error e :=
  no_warmup_never_measures (by rfl) (rfl : construct coldSetup (callsAt 0) = .ok coldOptimizer) rfl (stepsFrom 0 5)

/-! ### No energy -/

section NoEnergy
variable [Rounding] {plo plo' : GlobalPowerLimitOptimizer}

/-- In a limit whose window is over, with no step left. -/
structure Stuck (current : Int) (plo : GlobalPowerLimitOptimizer) : Prop where
  profiling : ∃ steps, plo.state = .profiling current steps ∧ steps ≤ 0
  closed : windowName current ∉ plo.monitor.measurementStates

/-- An end of an epoch finds no window to cancel. -/
theorem Stuck.epochEnd {current : Int} (h : Stuck current plo) (calls : Calls) :
    plo.onEpochEnd calls =
      (.error (.monitor (.valueError
        ("Measurement window '" ++ windowName current ++ "' does not exist"))), plo) := by
  obtain ⟨⟨steps, hstate, -⟩, hclosed⟩ := h
  simp only [onEpochEnd, hstate, ZeusMonitor.cancelWindow, (Map.not_mem_iff_lookup _ _).mp hclosed]

theorem Stuck.stepBegin {current : Int} (h : Stuck current plo) (calls : Calls) :
    ∃ steps, steps ≤ 0 ∧ plo.onStepBegin calls = (.ok (), { plo with state := .profiling current steps }) := by
  obtain ⟨⟨steps, hstate, hle⟩, -⟩ := h
  refine ⟨steps - 1, by omega, ?_⟩
  simp only [onStepBegin, hstate]
  rw [if_neg (by omega)]

/-- All that a stuck optimizer still does is count. -/
theorem stuck_next {current : Int} (h : Stuck current plo) (e : TrainingEvent)
    (hapart : e.Apart plo.powerLimits) (hmem : current ∈ plo.powerLimits) :
    Stuck current (machine.next plo e) ∧ (machine.next plo e).measurements = plo.measurements ∧
      (machine.next plo e).gpuLimits = plo.gpuLimits ∧ (machine.next plo e).powerLimits = plo.powerLimits := by
  cases e with
  | monitor auc e =>
    have hwindows := (ZeusMonitor.step_frame auc plo.monitor e).2 _ (hapart current hmem)
    exact ⟨⟨h.profiling, fun hopen => h.closed (hwindows.mp hopen)⟩, rfl, rfl, rfl⟩
  | epochEnd calls =>
    have hsame : machine.next plo (.epochEnd calls) = plo := congrArg Prod.snd (h.epochEnd calls)
    rw [hsame]
    exact ⟨h, rfl, rfl, rfl⟩
  | stepBegin calls =>
    obtain ⟨steps, hle, hcall⟩ := h.stepBegin calls
    have hnext : machine.next plo (.stepBegin calls) = { plo with state := .profiling current steps } :=
      congrArg Prod.snd hcall
    rw [hnext]
    exact ⟨⟨⟨steps, rfl, hle⟩, h.closed⟩, rfl, rfl, rfl⟩

theorem stuck_run {current : Int} (h : Stuck current plo) (hmem : current ∈ plo.powerLimits)
    (events : List TrainingEvent) (hapart : ∀ e ∈ events, e.Apart plo.powerLimits) :
    Stuck current (machine.run plo events) ∧ (machine.run plo events).measurements = plo.measurements ∧
      (machine.run plo events).gpuLimits = plo.gpuLimits := by
  induction events generalizing plo with
  | nil => exact ⟨h, rfl, rfl⟩
  | cons e events ih =>
    obtain ⟨hnext, hmeasurements, hlimits, hsame⟩ := stuck_next h e (hapart e List.mem_cons_self) hmem
    rw [← hsame] at hmem
    obtain ⟨hrun, hmeasurements', hlimits'⟩ := ih hnext hmem fun e' he' => by
      rw [hsame]
      exact hapart e' (List.mem_cons_of_mem _ he')
    exact ⟨hrun, hmeasurements'.trans hmeasurements, hlimits'.trans hlimits⟩

/-- Pydantic refuses a measurement without energy. -/
theorem measured_refused {calls : Calls} {pl : Int} {measurement : Measurement}
    (hzero : Rounding.sum (calls.sumOverProcesses (measurement.gpuEnergy.toList.map Prod.snd)) ≤ 0) :
    ∃ e, measured calls pl measurement = .error e := by
  unfold measured
  split
  · exact ⟨_, rfl⟩
  · refine ⟨.validation "PowerLimitMeasurement", ?_⟩
    rw [PowerLimitMeasurement.validated, dif_neg]
    exact fun h => absurd h.2.1 (not_lt.mpr (Rounding.fl_nonpos hzero))

/-- **A window without energy sticks.** When the window of a limit measures no energy, the
step raises, and from then on the optimizer is never done: it measures nothing more, leaves
the GPUs at the limit, and raises at every end of an epoch. -/
theorem no_energy_sticks (h : plo.Coherent) {calls : Calls} {current : Int}
    (hstate : plo.state = .profiling current 1) {measurement : Measurement} {monitor : ZeusMonitor}
    (hend : plo.monitor.endWindow calls.auc (windowName current) calls.reads = (.ok measurement, monitor))
    (hzero : Rounding.sum (calls.sumOverProcesses (measurement.gpuEnergy.toList.map Prod.snd)) ≤ 0)
    (later : List TrainingEvent) (hapart : ∀ e ∈ later, e.Apart plo.powerLimits) :
    (∃ e, (plo.onStepBegin calls).1 = .error e) ∧
      Stuck current (machine.run plo (.stepBegin calls :: later)) ∧
      (machine.run plo (.stepBegin calls :: later)).measurements = plo.measurements ∧
      (∀ g ∈ plo.monitor.gpuIndices,
        (machine.run plo (.stepBegin calls :: later)).gpuLimits[g]? = some current) ∧
      ∀ calls', ∃ e, ((machine.run plo (.stepBegin calls :: later)).onEpochEnd calls').1 = .error e := by
  have hrefused : ∃ e, measured calls current measurement = .error e := measured_refused hzero
  obtain ⟨e, he⟩ := hrefused
  have hcall : plo.onStepBegin calls =
      (.error e, { plo with state := .profiling current 0, monitor := monitor }) := by
    simp only [onStepBegin, hstate, Int.sub_self, if_true, endProfiling, hend, he]
  have hclosed : windowName current ∉ monitor.measurementStates := by
    have hwindows := (ZeusMonitor.endWindow_frame calls.auc plo.monitor (windowName current) calls.reads).2
    rw [hend] at hwindows
    exact fun hopen => ((hwindows _).mp hopen).1 rfl
  have hstuck : Stuck current { plo with state := .profiling current 0, monitor := monitor } :=
    ⟨⟨0, rfl, Int.le_refl 0⟩, hclosed⟩
  have hmem : current ∈ plo.powerLimits := List.mem_of_getElem? (h.mem_of_profiling hstate)
  have hnext : machine.next plo (.stepBegin calls) = { plo with state := .profiling current 0, monitor := monitor } :=
    congrArg Prod.snd hcall
  obtain ⟨hrun, hmeasurements, hlimits⟩ := stuck_run hstuck hmem later hapart
  rw [Machine.run, hnext]
  refine ⟨⟨e, by rw [hcall]⟩, hrun, hmeasurements, fun g hg => ?_, fun calls' => ⟨_, by rw [hrun.epochEnd calls']⟩⟩
  have hcurrent := h.current
  unfold Current at hcurrent
  rw [hstate] at hcurrent
  rw [hlimits, ← hcurrent.2.2]
  exact h.allSet g hg

end NoEnergy

attribute [local instance] Rounding.binary64 in
/-- The sample optimizer in the last step of its first limit. -/
def lastStep : GlobalPowerLimitOptimizer := machine.run sampleOptimizer (stepsFrom 0 2)

attribute [local instance] Rounding.binary64 in
theorem lastStep_undisturbed : Undisturbed sampleOptimizer (stepsFrom 0 2) := by
  refine ⟨stepsFrom_apart 0 2 _, ?_⟩
  unfold Returned
  decide +kernel

attribute [local instance] Rounding.binary64 in
/-- The counter has not moved since the window began. -/
theorem no_energy_sticks_sample :
    (∃ e, (lastStep.onStepBegin (callsAt 1)).1 = .error e) ∧
      Stuck 200000 (machine.run lastStep (.stepBegin (callsAt 1) :: stepsFrom 2 3)) ∧
      (machine.run lastStep (.stepBegin (callsAt 1) :: stepsFrom 2 3)).measurements = lastStep.measurements ∧
      (∀ g ∈ lastStep.monitor.gpuIndices,
        (machine.run lastStep (.stepBegin (callsAt 1) :: stepsFrom 2 3)).gpuLimits[g]? = some 200000) ∧
      ∀ calls', ∃ e,
        ((machine.run lastStep (.stepBegin (callsAt 1) :: stepsFrom 2 3)).onEpochEnd calls').1 = .error e :=
  no_energy_sticks
    (coherent_run (construct_coherent (by rfl) sample_built sample_closed) lastStep_undisturbed.apart
      lastStep_undisturbed.returned).1
    (by decide +kernel) (Prod.ext rfl rfl) (by decide +kernel) (stepsFrom 2 3) (stepsFrom_apart 2 3 _)

end GlobalPowerLimitOptimizer

end ZeusPower.Reference
