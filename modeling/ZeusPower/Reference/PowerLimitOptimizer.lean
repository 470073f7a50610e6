import ZeusPower.Reference.Selectors
import ZeusPower.Reference.ZeusMonitor

/-! The power limit optimizer (`GlobalPowerLimitOptimizer` in `zeus/optimizer/power_limit.py`).

A training loop calls `on_step_begin` and `on_epoch_end`. The optimizer walks the power
limits from the highest down: it sets a limit, lets some steps warm up, measures the next
steps in a window of the `ZeusMonitor`, and at the end sets the limit its selector names.
Each call keeps what it has done when an exception leaves it. Fields of the state classes
are checked when one is built, and not when `steps` is assigned later.

The GPU library, the reduction over the processes of a training and the profile's file
are outside: their answers come with each call. -/
namespace ZeusPower.Reference
open Library

/-! ### States -/

inductive State where
  | ready (nextPowerLimit steps : Int)
  | warmup (currentPowerLimit steps : Int)
  | profiling (currentPowerLimit steps : Int)
  | done (optimalPowerLimit : Int)
  deriving DecidableEq, Repr

inductive Raised where
  | monitor (e : Exception)
  /-- pydantic's `ValidationError`. -/
  | validation (model : String)
  | valueError (message : String)
  | indexError (message : String)
  /-- An exception of the GPU library. -/
  | device (message : String)

/-- Pydantic's check of a new state: each field is a `PositiveInt`. -/
def State.validated : State → Except Raised State
  | .ready pl steps =>
    if 0 < pl ∧ 0 < steps then .ok (.ready pl steps) else .error (.validation "Ready")
  | .warmup pl steps =>
    if 0 < pl ∧ 0 < steps then .ok (.warmup pl steps) else .error (.validation "Warmup")
  | .profiling pl steps =>
    if 0 < pl ∧ 0 < steps then .ok (.profiling pl steps) else .error (.validation "Profiling")
  | .done pl => if 0 < pl then .ok (.done pl) else .error (.validation "Done")

/-- What is not a `float` yet becomes one. -/
def PowerLimitMeasurement.validated [Rounding] (powerLimit : Int) (energy time : Double) :
    Except Raised PowerLimitMeasurement :=
  if h : 0 < powerLimit ∧ 0 < fl energy ∧ 0 < fl time then
    .ok ⟨powerLimit, fl energy, fl time, h.1, h.2.1, h.2.2, Rounding.fl_fl energy, Rounding.fl_fl time⟩
  else .error (.validation "PowerLimitMeasurement")

/-- `end_window(key, cancel=True)`. -/
def ZeusMonitor.cancelWindow (m : ZeusMonitor) (key : String) : Except Exception Unit × ZeusMonitor :=
  match m.measurementStates[key]? with
  | none => (.error (.valueError ("Measurement window '" ++ key ++ "' does not exist")), m)
  | some _ => (.ok (), { m with measurementStates := m.measurementStates.erase key })

/-! ### The optimizer -/

structure GlobalPowerLimitOptimizer [Rounding] where
  monitor : ZeusMonitor
  optimumSelector : OptimumSelector
  warmupSteps : Int
  profileSteps : Int
  /-- In milliwatts, from the highest down. -/
  powerLimits : List Int
  profilePath : Bool
  currentPowerLimit : Int
  measurements : List PowerLimitMeasurement
  state : State
  /-- The limits of the GPUs themselves. -/
  gpuLimits : Map Int Int
  /-- What was last written to the profile's file. -/
  savedProfile : Option (List PowerLimitMeasurement)

/-- What one call meets outside. -/
structure Calls where
  reads : Reads
  auc : List Double → List Double → Option Double
  /-- `all_reduce(…, "sum")`, `all_reduce(…, "max")` -/
  sumOverProcesses : List Double → List Double
  maxOverProcesses : List Double → List Double
  setPowerManagementLimit : Int → Int → Except String Unit

namespace GlobalPowerLimitOptimizer

/-- The name of the window that profiles a limit. -/
def windowName (powerLimit : Int) : String :=
  "__GlobalPowerLimitOptimizer_" ++ toString (powerLimit / 1000)

/-- The loop over the GPUs; those before one that fails are set. -/
def setEach (calls : Calls) (powerLimit : Int) (limits : Map Int Int) :
    List Int → Except Raised Unit × Map Int Int
  | [] => (.ok (), limits)
  | index :: rest =>
    match calls.setPowerManagementLimit index powerLimit with
    | .error message => (.error (.device message), limits)
    | .ok _ => setEach calls powerLimit (limits.insert index powerLimit) rest

section Methods
variable [Rounding] (calls : Calls) (plo : GlobalPowerLimitOptimizer)

def setPowerLimit (powerLimit : Int) : Except Raised Unit × GlobalPowerLimitOptimizer :=
  if plo.currentPowerLimit = powerLimit then (.ok (), plo)
  else
    match setEach calls powerLimit plo.gpuLimits plo.monitor.gpuIndices with
    | (.error e, limits) => (.error e, { plo with gpuLimits := limits })
    | (.ok _, limits) => (.ok (), { plo with gpuLimits := limits, currentPowerLimit := powerLimit })

/-- `max(self.power_limits)`. -/
def maxLimit : Except Raised Int :=
  match plo.powerLimits.max? with
  | some pl => .ok pl
  | none => .error (.valueError "max() arg is an empty sequence")

/-- In milliwatts. -/
def computeOptimalPowerLimit : Except Raised Int :=
  match plo.optimumSelector.select plo.measurements with
  | some pl => .ok (pl * 1000)
  | none => .error (.valueError "min() arg is an empty sequence")

def saveProfile : GlobalPowerLimitOptimizer :=
  if plo.profilePath then { plo with savedProfile := some plo.measurements } else plo

/-- Set a limit, then warm up for it. -/
def startWarmup (powerLimit : Int) : Except Raised Unit × GlobalPowerLimitOptimizer :=
  match plo.setPowerLimit calls powerLimit with
  | (.error e, plo) => (.error e, plo)
  | (.ok _, plo) =>
    match (State.warmup powerLimit plo.warmupSteps).validated with
    | .error e => (.error e, plo)
    | .ok state => (.ok (), { plo with state })

/-- The state is assigned before the window begins. -/
def startProfiling (powerLimit : Int) : Except Raised Unit × GlobalPowerLimitOptimizer :=
  match (State.profiling powerLimit plo.profileSteps).validated with
  | .error e => (.error e, plo)
  | .ok state =>
    match plo.monitor.beginWindow (windowName powerLimit) calls.reads with
    | (.error e, monitor) => (.error (.monitor e), { plo with state, monitor })
    | (.ok _, monitor) => (.ok (), { plo with state, monitor })

/-- Every limit is profiled. -/
def finish : Except Raised Unit × GlobalPowerLimitOptimizer :=
  match plo.computeOptimalPowerLimit with
  | .error e => (.error e, plo)
  | .ok optimal =>
    match (State.done optimal).validated with
    | .error e => (.error e, plo)
    | .ok state =>
      match { plo with state }.setPowerLimit calls optimal with
      | (.error e, plo) => (.error e, plo)
      | (.ok _, plo) => (.ok (), plo.saveProfile)

/-- What a window measured, over all processes. -/
def measured (powerLimit : Int) (measurement : Measurement) : Except Raised PowerLimitMeasurement :=
  match (calls.maxOverProcesses [measurement.time]).max? with
  | none => .error (.valueError "max() arg is an empty sequence")
  | some time =>
    PowerLimitMeasurement.validated (powerLimit / 1000)
      (Rounding.sum (calls.sumOverProcesses (measurement.gpuEnergy.toList.map Prod.snd))) time

/-- The last profiling step of a limit. -/
def endProfiling (powerLimit : Int) : Except Raised Unit × GlobalPowerLimitOptimizer :=
  match plo.monitor.endWindow calls.auc (windowName powerLimit) calls.reads with
  | (.error e, monitor) => (.error (.monitor e), { plo with monitor })
  | (.ok measurement, monitor) =>
    match measured calls powerLimit measurement with
    | .error e => (.error e, { plo with monitor })
    | .ok m =>
      let plo := { plo with monitor, measurements := plo.measurements ++ [m] }
      match plo.powerLimits.idxOf? powerLimit with
      | none => (.error (.valueError (toString powerLimit ++ " is not in list")), plo)
      | some i =>
        match plo.powerLimits[i + 1]? with
        | none => plo.finish calls
        | some next => plo.startWarmup calls next

/-! ### The callbacks -/

def onStepBegin : Except Raised Unit × GlobalPowerLimitOptimizer :=
  match plo.state with
  | .ready next steps =>
    let plo := { plo with state := .ready next (steps - 1) }
    if steps - 1 = 0 then plo.startWarmup calls next else (.ok (), plo)
  | .warmup current steps =>
    let plo := { plo with state := .warmup current (steps - 1) }
    if steps - 1 = 0 then plo.startProfiling calls current else (.ok (), plo)
  | .profiling current steps =>
    let plo := { plo with state := .profiling current (steps - 1) }
    if steps - 1 = 0 then plo.endProfiling calls current else (.ok (), plo)
  | .done _ => (.ok (), plo)

/-- Back to the limit that was interrupted, from the next step on. -/
def interrupted (powerLimit : Int) : Except Raised Unit × GlobalPowerLimitOptimizer :=
  match (State.ready powerLimit 1).validated with
  | .error e => (.error e, plo)
  | .ok state =>
    let plo := { plo with state }
    match plo.maxLimit with
    | .error e => (.error e, plo)
    | .ok pl => plo.setPowerLimit calls pl

def onEpochEnd : Except Raised Unit × GlobalPowerLimitOptimizer :=
  match plo.state with
  | .ready _ _ => (.ok (), plo)
  | .warmup current _ => plo.interrupted calls current
  | .profiling current _ =>
    match plo.monitor.cancelWindow (windowName current) with
    | (.error e, _) => (.error (.monitor e), plo)
    | (.ok _, monitor) => { plo with monitor }.interrupted calls current
  | .done _ => (.ok (), plo)

end Methods

/-! ### Construction -/

/-- `range(high, low - 1, -stride)`. -/
def powerRange (high low stride : Int) : List Int :=
  (List.range ((high - low) / stride + 1).toNat).map fun (k : ℕ) => high - k * stride

/-- What the constructor is called with, and the constraints of the GPUs (mW). -/
structure Setup [Rounding] where
  monitor : ZeusMonitor
  optimumSelector : OptimumSelector
  waitSteps : Int
  warmupSteps : Int
  profileSteps : Int
  plStep : Int
  /-- `none`: no path; `some none`: a path without a file. -/
  profile : Option (Option (List PowerLimitMeasurement))
  constraints : Int → Int × Int

def Setup.checks [Rounding] (setup : Setup) : Except Raised Unit := do
  if setup.waitSteps < 0 then throw (.valueError "wait_steps must be non-negative.")
  if setup.warmupSteps < 0 then throw (.valueError "warmup_steps must be non-negative.")
  if setup.profileSteps ≤ 0 then throw (.valueError "profile_steps must be positive.")
  if setup.plStep ≤ 0 then throw (.valueError "pl_step must be positive.")

/-- The limits to walk, if the GPUs agree on their range. -/
def Setup.powerLimits [Rounding] (setup : Setup) : Except Raised (List Int) :=
  match setup.monitor.gpuIndices.map setup.constraints with
  | [] => .error (.indexError "list index out of range")
  | (low, high) :: rest =>
    if rest.all fun pl => decide ((low, high) = pl) then .ok (powerRange high low (setup.plStep * 1000))
    else .error (.valueError "Power limits ranges are not uniform across GPUs.")

/-- Before any profiling: wait, with the highest limit set. -/
def construct [Rounding] (setup : Setup) (calls : Calls) : Except Raised GlobalPowerLimitOptimizer := do
  setup.checks
  let powerLimits ← setup.powerLimits
  let blank : GlobalPowerLimitOptimizer :=
    { monitor := setup.monitor
      optimumSelector := setup.optimumSelector
      warmupSteps := setup.warmupSteps
      profileSteps := setup.profileSteps
      powerLimits
      profilePath := setup.profile.isSome
      currentPowerLimit := 0
      measurements := []
      state := .done 0
      gpuLimits := ∅
      savedProfile := setup.profile.join }
  match setup.profile.join with
  | none =>
    match powerLimits with
    | [] => throw (.indexError "list index out of range")
    | first :: _ =>
      let state ← (State.ready first (setup.waitSteps + 1)).validated
      let plo := { blank with state }
      let pl ← plo.maxLimit
      match plo.setPowerLimit calls pl with
      | (.error e, _) => throw e
      | (.ok _, plo) => pure plo
  | some measurements =>
    let plo := { blank with measurements }
    let optimal ← plo.computeOptimalPowerLimit
    let state ← (State.done optimal).validated
    match { plo with state }.setPowerLimit calls optimal with
    | (.error e, _) => throw e
    | (.ok _, plo) => pure plo

/-! ### In a training -/

/-- The callbacks of the training loop, and what else happens to the monitor. -/
inductive TrainingEvent where
  | stepBegin (calls : Calls)
  | epochEnd (calls : Calls)
  | monitor (auc : List Double → List Double → Option Double) (e : Event)

inductive TrainingOutcome where
  | returned
  | raised (e : Raised)
  | monitored (outcome : Outcome)

/-- A callback raised. -/
def TrainingOutcome.isRaised : TrainingOutcome → Bool
  | .raised _ => true
  | _ => false

def TrainingOutcome.ofCall : Except Raised Unit → TrainingOutcome
  | .ok _ => .returned
  | .error e => .raised e

def step [Rounding] (plo : GlobalPowerLimitOptimizer) : TrainingEvent → TrainingOutcome × GlobalPowerLimitOptimizer
  | .stepBegin calls =>
    let (result, plo) := plo.onStepBegin calls
    (.ofCall result, plo)
  | .epochEnd calls =>
    let (result, plo) := plo.onEpochEnd calls
    (.ofCall result, plo)
  | .monitor auc e =>
    let (outcome, monitor) := ZeusMonitor.step auc plo.monitor e
    (.monitored outcome, { plo with monitor })

def machine [Rounding] : Machine GlobalPowerLimitOptimizer TrainingEvent TrainingOutcome := ⟨step⟩

/-! ### What a call does -/

section Calls
variable [Rounding] {calls : Calls} {plo plo' : GlobalPowerLimitOptimizer}

/-- Every GPU has the limit that the optimizer believes it has. -/
def AllSet (plo : GlobalPowerLimitOptimizer) : Prop :=
  ∀ g ∈ plo.monitor.gpuIndices, plo.gpuLimits[g]? = some plo.currentPowerLimit

omit [Rounding] in
theorem setEach_ok {pl : Int} {limits limits' : Map Int Int} {indices : List Int}
    (h : setEach calls pl limits indices = (.ok (), limits')) (g : Int) :
    limits'[g]? = if g ∈ indices then some pl else limits[g]? := by
  induction indices generalizing limits with
  | nil =>
    obtain rfl := (Prod.mk.inj h).2
    simp
  | cons index rest ih =>
    rw [setEach] at h
    cases hset : calls.setPowerManagementLimit index pl with
    | error message => rw [hset] at h; cases (Prod.mk.inj h).1
    | ok done =>
      rw [hset] at h
      rw [ih h, Map.lookup_insert]
      by_cases hrest : g ∈ rest
      · rw [if_pos hrest, if_pos (List.mem_cons_of_mem _ hrest)]
      · rw [if_neg hrest]
        by_cases hg : index = g
        · rw [if_pos hg, if_pos (hg ▸ List.mem_cons_self)]
        · rw [if_neg hg, if_neg (by simp [hrest, Ne.symm hg])]

/-- A limit that is set is set on every GPU, and nothing else has changed. -/
theorem setPowerLimit_ok {pl : Int} (h : plo.setPowerLimit calls pl = (.ok (), plo')) :
    ∃ limits, plo' = { plo with gpuLimits := limits, currentPowerLimit := pl } ∧
      (plo.currentPowerLimit ≠ pl ∨ plo.AllSet → plo'.AllSet) := by
  unfold setPowerLimit at h
  by_cases hsame : plo.currentPowerLimit = pl
  · rw [if_pos hsame] at h
    obtain rfl := (Prod.mk.inj h).2
    subst hsame
    exact ⟨plo.gpuLimits, rfl, fun hset => hset.resolve_left fun hne => hne rfl⟩
  · rw [if_neg hsame] at h
    rcases heach : setEach calls pl plo.gpuLimits plo.monitor.gpuIndices with ⟨_ | _, limits⟩
    · rw [heach] at h
      cases (Prod.mk.inj h).1
    · rw [heach] at h
      obtain rfl := (Prod.mk.inj h).2
      refine ⟨limits, rfl, fun _ g hg => ?_⟩
      have hg' : g ∈ plo.monitor.gpuIndices := hg
      show limits[g]? = some pl
      rw [setEach_ok heach, if_pos hg']

omit [Rounding] in
theorem validated_ok {s s' : State} (h : s.validated = .ok s') :
    s' = s ∧
      match s with
      | .ready pl steps | .warmup pl steps | .profiling pl steps => 0 < pl ∧ 0 < steps
      | .done pl => 0 < pl := by
  cases s <;>
  · simp only [State.validated] at h
    split at h
    next hpos => exact ⟨(Except.ok.inj h).symm, hpos⟩
    next => cases h

/-- The limit is set and the warmup has begun. -/
def Warming (plo : GlobalPowerLimitOptimizer) (pl : Int) (plo' : GlobalPowerLimitOptimizer) : Prop :=
  0 < plo.warmupSteps ∧
    (∃ limits, plo' = { plo with state := .warmup pl plo.warmupSteps, gpuLimits := limits, currentPowerLimit := pl }) ∧
    (plo.AllSet → plo'.AllSet)

theorem startWarmup_ok {pl : Int} (h : plo.startWarmup calls pl = (.ok (), plo')) : Warming plo pl plo' := by
  unfold startWarmup at h
  rcases hset : plo.setPowerLimit calls pl with ⟨_ | _, middle⟩
  · rw [hset] at h
    cases (Prod.mk.inj h).1
  · rw [hset] at h
    obtain ⟨limits, rfl, hall⟩ := setPowerLimit_ok hset
    simp only at h
    cases hstate : (State.warmup pl plo.warmupSteps).validated with
    | error e => rw [hstate] at h; cases (Prod.mk.inj h).1
    | ok state =>
      rw [hstate] at h
      obtain ⟨rfl, -, hsteps⟩ := validated_ok hstate
      obtain rfl := (Prod.mk.inj h).2
      exact ⟨hsteps, ⟨limits, rfl⟩, fun hset => hall (Or.inr hset)⟩

theorem startProfiling_ok {pl : Int} (h : plo.startProfiling calls pl = (.ok (), plo')) :
    ∃ monitor, plo.monitor.beginWindow (windowName pl) calls.reads = (.ok (), monitor) ∧
      0 < plo.profileSteps ∧
      plo' = { plo with state := .profiling pl plo.profileSteps, monitor := monitor } := by
  unfold startProfiling at h
  cases hstate : (State.profiling pl plo.profileSteps).validated with
  | error e => rw [hstate] at h; cases (Prod.mk.inj h).1
  | ok state =>
    obtain ⟨rfl, -, hsteps⟩ := validated_ok hstate
    rw [hstate] at h
    rcases hbegin : plo.monitor.beginWindow (windowName pl) calls.reads with ⟨_ | _, monitor⟩
    · simp only [hbegin] at h
      cases (Prod.mk.inj h).1
    · simp only [hbegin] at h
      exact ⟨monitor, rfl, hsteps, ((Prod.mk.inj h).2).symm⟩

/-- The optimum is set and the profile is saved. -/
def Finished (plo plo' : GlobalPowerLimitOptimizer) : Prop :=
  ∃ optimal limits, plo.computeOptimalPowerLimit = .ok optimal ∧
    plo' = { plo with
      state := .done optimal
      gpuLimits := limits
      currentPowerLimit := optimal
      savedProfile := if plo.profilePath then some plo.measurements else plo.savedProfile } ∧
    (plo.AllSet → plo'.AllSet)

theorem finish_ok (h : plo.finish calls = (.ok (), plo')) : Finished plo plo' := by
  unfold finish at h
  cases hoptimal : plo.computeOptimalPowerLimit with
  | error e => rw [hoptimal] at h; cases (Prod.mk.inj h).1
  | ok optimal =>
    rw [hoptimal] at h
    simp only at h
    cases hstate : (State.done optimal).validated with
    | error e => rw [hstate] at h; cases (Prod.mk.inj h).1
    | ok state =>
      obtain ⟨rfl, -⟩ := validated_ok hstate
      rw [hstate] at h
      simp only at h
      rcases hset : { plo with state := .done optimal }.setPowerLimit calls optimal with ⟨_ | _, middle⟩
      · rw [hset] at h
        cases (Prod.mk.inj h).1
      · rw [hset] at h
        obtain ⟨limits, rfl, hall⟩ := setPowerLimit_ok hset
        obtain rfl := (Prod.mk.inj h).2
        refine ⟨optimal, limits, hoptimal, ?_, fun hset => ?_⟩
        · unfold saveProfile
          cases plo.profilePath <;> rfl
        · have hmiddle := hall (Or.inr hset)
          unfold saveProfile
          cases plo.profilePath <;> exact hmiddle

/-- A limit is measured: its window is over, its measurement is kept, and the next limit
warms up or the walk is finished. -/
theorem endProfiling_ok {pl : Int} (h : plo.endProfiling calls pl = (.ok (), plo')) :
    ∃ measurement monitor m i, plo.monitor.endWindow calls.auc (windowName pl) calls.reads = (.ok measurement, monitor) ∧
      m.powerLimit = pl / 1000 ∧ plo.powerLimits.idxOf? pl = some i ∧
      ((∃ next, plo.powerLimits[i + 1]? = some next ∧
          Warming { plo with monitor := monitor, measurements := plo.measurements ++ [m] } next plo') ∨
        (plo.powerLimits[i + 1]? = none ∧
          Finished { plo with monitor := monitor, measurements := plo.measurements ++ [m] } plo')) := by
  unfold endProfiling at h
  rcases hend : plo.monitor.endWindow calls.auc (windowName pl) calls.reads with ⟨_ | measurement, monitor⟩
  · rw [hend] at h
    cases (Prod.mk.inj h).1
  · rw [hend] at h
    simp only at h
    cases hm : measured calls pl measurement with
    | error e => rw [hm] at h; cases (Prod.mk.inj h).1
    | ok m =>
      rw [hm] at h
      simp only at h
      have hpl : m.powerLimit = pl / 1000 := by
        unfold measured at hm
        split at hm
        · cases hm
        · unfold PowerLimitMeasurement.validated at hm
          split at hm
          · rw [← Except.ok.inj hm]
          · cases hm
      cases hindex : plo.powerLimits.idxOf? pl with
      | none => rw [hindex] at h; cases (Prod.mk.inj h).1
      | some i =>
        rw [hindex] at h
        simp only at h
        refine ⟨measurement, monitor, m, i, rfl, hpl, rfl, ?_⟩
        cases hnext : plo.powerLimits[i + 1]? with
        | none =>
          rw [hnext] at h
          exact Or.inr ⟨rfl, finish_ok h⟩
        | some next =>
          rw [hnext] at h
          exact Or.inl ⟨next, rfl, startWarmup_ok h⟩

/-- Back to the interrupted limit, with the highest limit set. -/
theorem interrupted_ok {pl : Int} (h : plo.interrupted calls pl = (.ok (), plo')) :
    ∃ top limits, plo.maxLimit = .ok top ∧
      plo' = { plo with state := .ready pl 1, gpuLimits := limits, currentPowerLimit := top } ∧
      (plo.AllSet → plo'.AllSet) := by
  unfold interrupted at h
  cases hstate : (State.ready pl 1).validated with
  | error e => rw [hstate] at h; cases (Prod.mk.inj h).1
  | ok state =>
    obtain ⟨rfl, -⟩ := validated_ok hstate
    rw [hstate] at h
    simp only at h
    cases htop : { plo with state := .ready pl 1 }.maxLimit with
    | error e => rw [htop] at h; cases (Prod.mk.inj h).1
    | ok top =>
      rw [htop] at h
      obtain ⟨limits, rfl, hall⟩ := setPowerLimit_ok h
      exact ⟨top, limits, htop, rfl, fun hset => hall (Or.inr hset)⟩

/-- The end of an epoch leaves a limit that waits, and the optimum; it interrupts a warmup, and
a profile once its window is cancelled. -/
theorem onEpochEnd_ok (h : plo.onEpochEnd calls = (.ok (), plo')) :
    (plo' = plo ∧ ((∃ next steps, plo.state = .ready next steps) ∨ ∃ optimal, plo.state = .done optimal)) ∨
      (∃ current steps, plo.state = .warmup current steps ∧ plo.interrupted calls current = (.ok (), plo')) ∨
      ∃ current steps measurement monitor, plo.state = .profiling current steps ∧
        plo.monitor.cancelWindow (windowName current) = (.ok measurement, monitor) ∧
        { plo with monitor }.interrupted calls current = (.ok (), plo') := by
  unfold onEpochEnd at h
  cases hstate : plo.state with
  | ready next steps =>
    rw [hstate] at h
    exact Or.inl ⟨(Prod.mk.inj h).2.symm, Or.inl ⟨next, steps, rfl⟩⟩
  | done optimal =>
    rw [hstate] at h
    exact Or.inl ⟨(Prod.mk.inj h).2.symm, Or.inr ⟨optimal, rfl⟩⟩
  | warmup current steps =>
    rw [hstate] at h
    exact Or.inr (Or.inl ⟨current, steps, rfl, h⟩)
  | profiling current steps =>
    simp only [hstate] at h
    rcases hcancel : plo.monitor.cancelWindow (windowName current) with ⟨_ | measurement, monitor⟩
    · rw [hcancel] at h
      cases (Prod.mk.inj h).1
    · rw [hcancel] at h
      exact Or.inr (Or.inr ⟨current, steps, measurement, monitor, rfl, hcancel, h⟩)

end Calls

end GlobalPowerLimitOptimizer

end ZeusPower.Reference
