import ZeusPower.Reference.PowerLimitRuns
import Mathlib.Tactic.Linarith
import Mathlib.Tactic.Ring

/-! How long profiling takes.

Without an interruption every `on_step_begin` takes one off `stepsLeft`, so the optimizer
is done after one step more than it waits and a warmup and a profile for each limit, and
not before (`done_after`). The end of an epoch restarts the limit it interrupts: an epoch
measures as many limits as fit into it whole (`measured_in_epoch`), which gives what a
training measures (`measured_in_training`); one whose epochs are all too short for one
limit and the step that starts it measures nothing (`short_epochs_never_measure`). -/
namespace ZeusPower.Reference
open Library

namespace GlobalPowerLimitOptimizer

section Steps
variable [Rounding] {plo plo' : GlobalPowerLimitOptimizer}

/-- The steps of one limit. -/
def limitSteps (plo : GlobalPowerLimitOptimizer) : Int := plo.warmupSteps + plo.profileSteps

/-- The limits that are not measured yet. -/
def limitsLeft (plo : GlobalPowerLimitOptimizer) : Int :=
  plo.powerLimits.length - plo.measurements.length

/-- The `on_step_begin`s until the optimizer is done. -/
def stepsLeft (plo : GlobalPowerLimitOptimizer) : Int :=
  match plo.state with
  | .ready _ steps => steps + plo.limitsLeft * plo.limitSteps
  | .warmup _ steps => steps + plo.profileSteps + (plo.limitsLeft - 1) * plo.limitSteps
  | .profiling _ steps => steps + (plo.limitsLeft - 1) * plo.limitSteps
  | .done _ => 0

/-- What the constructor has checked of the numbers of steps. -/
structure Checked (plo : GlobalPowerLimitOptimizer) : Prop where
  warmup : 0 ≤ plo.warmupSteps
  profile : 0 < plo.profileSteps

theorem Checked.setup (h : plo.Checked) (hsetup : SameSetup plo plo') : plo'.Checked :=
  ⟨by rw [hsetup.warmupSteps]; exact h.warmup, by rw [hsetup.profileSteps]; exact h.profile⟩

theorem Checked.limitSteps_pos (h : plo.Checked) : 0 < plo.limitSteps := by
  have hwarmup := h.warmup
  have hprofile := h.profile
  unfold limitSteps
  omega

/-- A limit whose turn it is has not been measured. -/
theorem limitsLeft_pos {pl : Int} (h : plo.powerLimits[plo.measurements.length]? = some pl) :
    1 ≤ plo.limitsLeft := by
  have hlt := (List.getElem?_eq_some_iff.mp h).1
  unfold limitsLeft
  omega

/-! ### One call -/

/-- Before the walk, within one limit, or after the last: how the steps left tell the
limits left. -/
theorem stepsLeft_bounds (hc : plo.Checked) (h : plo.Coherent) :
    (∃ next steps, plo.state = .ready next steps ∧ 0 < steps ∧ 1 ≤ plo.limitsLeft ∧
        plo.stepsLeft = steps + plo.limitsLeft * plo.limitSteps) ∨
      ((∀ next steps, plo.state ≠ .ready next steps) ∧ (∀ optimal, plo.state ≠ .done optimal) ∧
        1 ≤ plo.limitsLeft ∧ (plo.limitsLeft - 1) * plo.limitSteps < plo.stepsLeft ∧
        plo.stepsLeft ≤ plo.limitsLeft * plo.limitSteps) ∨
      ∃ optimal, plo.state = .done optimal ∧ plo.limitsLeft = 0 ∧ plo.stepsLeft = 0 := by
  have hcurrent := h.current
  have hprofile := hc.profile
  have hwarmup := hc.warmup
  have hone : plo.limitsLeft * plo.limitSteps = (plo.limitsLeft - 1) * plo.limitSteps + plo.limitSteps := by ring
  unfold Current at hcurrent
  unfold stepsLeft
  cases hstate : plo.state with
  | ready next steps =>
    rw [hstate] at hcurrent
    exact Or.inl ⟨next, steps, rfl, hcurrent.2.1, limitsLeft_pos hcurrent.1, rfl⟩
  | warmup current steps =>
    rw [hstate] at hcurrent
    obtain ⟨hplace, ⟨hpos, hle⟩, -⟩ := hcurrent
    refine Or.inr (Or.inl ⟨nofun, nofun, limitsLeft_pos hplace, ?_, ?_⟩)
    · dsimp only
      omega
    · dsimp only
      rw [hone]
      unfold limitSteps
      omega
  | profiling current steps =>
    rw [hstate] at hcurrent
    obtain ⟨hplace, ⟨hpos, hle⟩, -⟩ := hcurrent
    refine Or.inr (Or.inl ⟨nofun, nofun, limitsLeft_pos hplace, ?_, ?_⟩)
    · dsimp only
      omega
    · dsimp only
      rw [hone]
      unfold limitSteps
      omega
  | done optimal =>
    rw [hstate] at hcurrent
    refine Or.inr (Or.inr ⟨optimal, rfl, ?_, rfl⟩)
    unfold limitsLeft
    omega

theorem stepsLeft_nonneg (hc : plo.Checked) (h : plo.Coherent) : 0 ≤ plo.stepsLeft := by
  have hsteps := hc.limitSteps_pos
  rcases stepsLeft_bounds hc h with ⟨next, steps, -, hpos, hleft, heq⟩ | ⟨-, -, hleft, hlt, -⟩ | ⟨optimal, -, -, heq⟩
  · have := mul_nonneg (by omega : 0 ≤ plo.limitsLeft) hsteps.le
    omega
  · have := mul_nonneg (by omega : 0 ≤ plo.limitsLeft - 1) hsteps.le
    omega
  · omega

/-- The optimizer is done when no step is left. -/
theorem done_iff (hc : plo.Checked) (h : plo.Coherent) :
    (∃ optimal, plo.state = .done optimal) ↔ plo.stepsLeft = 0 := by
  have hsteps := hc.limitSteps_pos
  rcases stepsLeft_bounds hc h with ⟨next, steps, hstate, hpos, hleft, heq⟩ | ⟨-, hnot, hleft, hlt, -⟩ |
    ⟨optimal, hstate, -, heq⟩
  · have := mul_nonneg (by omega : 0 ≤ plo.limitsLeft) hsteps.le
    constructor
    · rintro ⟨optimal, hdone⟩
      rw [hstate] at hdone
      cases hdone
    · omega
  · have := mul_nonneg (by omega : 0 ≤ plo.limitsLeft - 1) hsteps.le
    constructor
    · rintro ⟨optimal, hdone⟩
      exact absurd hdone (hnot optimal)
    · omega
  · exact ⟨fun _ => heq, fun _ => ⟨optimal, hstate⟩⟩

/-- A step that returns takes one off. -/
theorem stepBegin_stepsLeft {calls : Calls} (h : plo.Coherent)
    (hcall : plo.onStepBegin calls = (.ok (), plo')) :
    (plo' = plo ∧ plo.stepsLeft = 0) ∨ plo'.stepsLeft = plo.stepsLeft - 1 := by
  cases onStepBegin_ok hcall with
  | done optimal hstate hsame => exact Or.inl ⟨hsame, by rw [stepsLeft, hstate]⟩
  | counted state htick hnext =>
    subst hnext
    refine Or.inr ?_
    cases hstate : plo.state with
    | done optimal => rw [hstate] at htick; cases htick
    | ready next steps =>
      rw [hstate] at htick
      obtain ⟨-, rfl⟩ := tick_ready htick
      simp only [stepsLeft, limitsLeft, limitSteps, hstate]
      ring
    | warmup current steps =>
      rw [hstate] at htick
      obtain ⟨-, rfl⟩ := tick_warmup htick
      simp only [stepsLeft, limitsLeft, limitSteps, hstate]
      ring
    | profiling current steps =>
      rw [hstate] at htick
      obtain ⟨-, rfl⟩ := tick_profiling htick
      simp only [stepsLeft, limitsLeft, limitSteps, hstate]
      ring
  | warming next hstate hnext =>
    obtain ⟨-, ⟨limits, rfl⟩, -⟩ := hnext
    refine Or.inr ?_
    simp only [stepsLeft, limitsLeft, limitSteps, hstate]
    ring
  | profiling current hstate monitor hbegin hsteps hnext =>
    subst hnext
    refine Or.inr ?_
    simp only [stepsLeft, limitsLeft, limitSteps, hstate]
    ring
  | measured current hstate measurement monitor m i hend hm hi hnext =>
    refine Or.inr ?_
    have hplace := h.mem_of_profiling hstate
    obtain rfl := Option.some.inj (hi.symm.trans (h.descending.idxOf? hplace))
    rcases hnext with ⟨next, hnext, -, ⟨limits, rfl⟩, -⟩ | ⟨hlast, optimal, limits, -, rfl, -⟩
    · simp only [stepsLeft, limitsLeft, limitSteps, hstate, List.length_append, List.length_singleton]
      push_cast
      ring
    · have hlt := (List.getElem?_eq_some_iff.mp hplace).1
      have hge := List.getElem?_eq_none_iff.mp hlast
      have hleft : plo.limitsLeft = 1 := by
        unfold limitsLeft
        omega
      simp only [stepsLeft, hstate, hleft]
      ring

/-! ### Runs without an interruption -/

def TrainingEvent.isStep : TrainingEvent → Bool
  | .stepBegin _ => true
  | _ => false

def TrainingEvent.isEpochEnd : TrainingEvent → Bool
  | .epochEnd _ => true
  | _ => false

/-- The steps of some events. -/
def stepCount (events : List TrainingEvent) : Int := events.countP TrainingEvent.isStep

omit [Rounding] in
theorem stepCount_cons (e : TrainingEvent) (events : List TrainingEvent) :
    stepCount (e :: events) = (if e.isStep then 1 else 0) + stepCount events := by
  unfold stepCount
  rw [List.countP_cons]
  split <;> push_cast <;> ring

omit [Rounding] in
theorem stepCount_nonneg (events : List TrainingEvent) : 0 ≤ stepCount events := Int.natCast_nonneg _

/-- Events that end no epoch and raise nothing. -/
structure Smooth (plo : GlobalPowerLimitOptimizer) (events : List TrainingEvent) : Prop where
  apart : ∀ e ∈ events, e.Apart plo.powerLimits
  returned : Returned (machine.trace plo events)
  within : ∀ e ∈ events, e.isEpochEnd = false

theorem Smooth.head {e : TrainingEvent} {events : List TrainingEvent} (h : Smooth plo (e :: events)) :
    e.Apart plo.powerLimits ∧ (machine.answer plo e).isRaised = false ∧ e.isEpochEnd = false :=
  ⟨h.apart e List.mem_cons_self, h.returned ⟨plo, e, machine.answer plo e⟩ List.mem_cons_self,
    h.within e List.mem_cons_self⟩

theorem Smooth.tail {e : TrainingEvent} {events : List TrainingEvent} (h : Smooth plo (e :: events))
    (hsetup : SameSetup plo (machine.next plo e)) : Smooth (machine.next plo e) events := by
  refine ⟨fun e' he' => ?_, fun x hx => h.returned x (List.mem_cons_of_mem _ hx),
    fun e' he' => h.within e' (List.mem_cons_of_mem _ he')⟩
  rw [hsetup.powerLimits]
  exact h.apart e' (List.mem_cons_of_mem _ he')

/-- A step event that returns is a callback that returns. -/
theorem next_stepBegin {calls : Calls} (h : (machine.answer plo (.stepBegin calls)).isRaised = false) :
    plo.onStepBegin calls = (.ok (), machine.next plo (.stepBegin calls)) :=
  Prod.ext (ofCall_returned h) rfl

theorem next_epochEnd {calls : Calls} (h : (machine.answer plo (.epochEnd calls)).isRaised = false) :
    plo.onEpochEnd calls = (.ok (), machine.next plo (.epochEnd calls)) :=
  Prod.ext (ofCall_returned h) rfl

theorem next_stepsLeft (hc : plo.Checked) (h : plo.Coherent) {e : TrainingEvent}
    (hapart : e.Apart plo.powerLimits) (hreturned : (machine.answer plo e).isRaised = false)
    (hwithin : e.isEpochEnd = false) :
    (machine.next plo e).stepsLeft = max 0 (plo.stepsLeft - if e.isStep then 1 else 0) := by
  have hnonneg := stepsLeft_nonneg hc h
  obtain ⟨hnext, hsetup⟩ := next_coherent plo e hapart hreturned h
  have hnonneg' := stepsLeft_nonneg (hc.setup hsetup) hnext
  cases e with
  | epochEnd calls => cases hwithin
  | monitor auc e =>
    have hsame : (machine.next plo (.monitor auc e)).stepsLeft = plo.stepsLeft := rfl
    have hnot : (TrainingEvent.monitor auc e).isStep = false := rfl
    rw [hsame, hnot, if_neg Bool.false_ne_true]
    omega
  | stepBegin calls =>
    have hstep : (TrainingEvent.stepBegin calls).isStep = true := rfl
    rw [hstep, if_pos rfl]
    rcases stepBegin_stepsLeft h (next_stepBegin hreturned) with ⟨hsame, hzero⟩ | hless
    · rw [hsame, hzero]
      rfl
    · omega

/-- **Each step takes one off**, until none is left. -/
theorem stepsLeft_run (hc : plo.Checked) (h : plo.Coherent) {events : List TrainingEvent}
    (hsmooth : Smooth plo events) :
    (machine.run plo events).stepsLeft = max 0 (plo.stepsLeft - stepCount events) := by
  induction events generalizing plo with
  | nil =>
    have hnonneg := stepsLeft_nonneg hc h
    show plo.stepsLeft = max 0 (plo.stepsLeft - 0)
    omega
  | cons e events ih =>
    obtain ⟨hapart, hreturned, hwithin⟩ := hsmooth.head
    obtain ⟨hnext, hsetup⟩ := next_coherent plo e hapart hreturned h
    have hcount := stepCount_nonneg events
    rw [Machine.run, ih (hc.setup hsetup) hnext (hsmooth.tail hsetup),
      next_stepsLeft hc h hapart hreturned hwithin, stepCount_cons]
    split <;> omega

/-- **Profiling takes exactly so long.** If no epoch ends and no callback raises, the
optimizer is done after as many steps as it waits, one more, and a warmup and a profile for
each limit; and not before. -/
theorem done_after {setup : Setup} {calls : Calls} (hnew : setup.profile.join = none)
    (hbuilt : construct setup calls = .ok plo)
    (hclosed : ∀ pl ∈ plo.powerLimits, windowName pl ∉ setup.monitor.measurementStates)
    {events : List TrainingEvent} (hsmooth : Smooth plo events) :
    (∃ optimal, (machine.run plo events).state = .done optimal) ↔
      setup.waitSteps + 1 + plo.powerLimits.length * (setup.warmupSteps + setup.profileSteps) ≤ stepCount events := by
  obtain ⟨⟨hwait, hwarmup, hprofile, -⟩, -, ⟨first, -, hstate⟩, hmeasurements, hsameWarmup, hsameProfile, -⟩ :=
    construct_ok hnew hbuilt
  have hc : plo.Checked := ⟨by omega, by omega⟩
  have h := construct_coherent hnew hbuilt hclosed
  obtain ⟨hrun, hsetup⟩ := coherent_run h hsmooth.apart hsmooth.returned
  have hleft : plo.stepsLeft =
      setup.waitSteps + 1 + plo.powerLimits.length * (setup.warmupSteps + setup.profileSteps) := by
    simp only [stepsLeft, hstate, limitsLeft, limitSteps, hmeasurements, hsameWarmup, hsameProfile, List.length_nil]
    push_cast
    ring
  rw [done_iff (hc.setup hsetup) hrun, stepsLeft_run hc h hsmooth, hleft]
  omega

end Steps

attribute [local instance] Rounding.binary64 in
theorem sample_smooth : Smooth sampleOptimizer (stepsFrom 0 5) := by
  refine ⟨stepsFrom_apart 0 5 _, sample_undisturbed.returned, fun e he => ?_⟩
  obtain ⟨n, -, rfl⟩ := List.mem_map.mp he
  rfl

attribute [local instance] Rounding.binary64 in
theorem done_after_sample :
    (∃ optimal, (machine.run sampleOptimizer (stepsFrom 0 5)).state = .done optimal) ↔
      sampleSetup.waitSteps + 1 +
          sampleOptimizer.powerLimits.length * (sampleSetup.warmupSteps + sampleSetup.profileSteps) ≤
        stepCount (stepsFrom 0 5) :=
  done_after (by rfl) sample_built sample_closed sample_smooth

/-! ### Epochs -/

section Epochs
variable [Rounding] {plo plo' : GlobalPowerLimitOptimizer}

/-- The walk has started. -/
def Walking (plo : GlobalPowerLimitOptimizer) : Prop := ∀ next steps, plo.state ≠ .ready next steps

theorem stepBegin_walking {calls : Calls} (hwalking : plo.Walking)
    (hcall : plo.onStepBegin calls = (.ok (), plo')) : plo'.Walking := by
  intro next steps
  cases onStepBegin_ok hcall with
  | done optimal hstate hsame =>
    rw [hsame]
    exact hwalking next steps
  | counted state htick hnext =>
    subst hnext
    cases hstate : plo.state with
    | done optimal => rw [hstate] at htick; cases htick
    | ready next' steps' => exact absurd hstate (hwalking next' steps')
    | warmup current steps' =>
      rw [hstate] at htick
      obtain ⟨-, rfl⟩ := tick_warmup htick
      exact nofun
    | profiling current steps' =>
      rw [hstate] at htick
      obtain ⟨-, rfl⟩ := tick_profiling htick
      exact nofun
  | warming next' hstate hnext => exact absurd hstate (hwalking next' 1)
  | profiling current hstate monitor hbegin hsteps hnext =>
    subst hnext
    exact nofun
  | measured current hstate measurement monitor m i hend hm hi hnext =>
    rcases hnext with ⟨next', hnext, -, ⟨limits, rfl⟩, -⟩ | ⟨hlast, optimal, limits, -, rfl, -⟩
    · exact nofun
    · exact nofun

theorem walking_run (h : plo.Coherent) (hwalking : plo.Walking) {events : List TrainingEvent}
    (hsmooth : Smooth plo events) : (machine.run plo events).Walking := by
  induction events generalizing plo with
  | nil => exact hwalking
  | cons e events ih =>
    obtain ⟨hapart, hreturned, hwithin⟩ := hsmooth.head
    obtain ⟨hnext, hsetup⟩ := next_coherent plo e hapart hreturned h
    refine ih hnext ?_ (hsmooth.tail hsetup)
    cases e with
    | epochEnd calls => cases hwithin
    | monitor auc e => exact hwalking
    | stepBegin calls => exact stepBegin_walking hwalking (next_stepBegin hreturned)

/-- Until the walk starts, a step is one step less to wait. -/
theorem ready_run (h : plo.Coherent) {next steps : Int} (hstate : plo.state = .ready next steps)
    {events : List TrainingEvent} (hsmooth : Smooth plo events) :
    (stepCount events < steps ∧ (machine.run plo events).state = .ready next (steps - stepCount events) ∧
        (machine.run plo events).measurements = plo.measurements) ∨
      (steps ≤ stepCount events ∧ (machine.run plo events).Walking) := by
  induction events generalizing plo steps with
  | nil =>
    have hcurrent := h.current
    unfold Current at hcurrent
    rw [hstate] at hcurrent
    refine Or.inl ⟨hcurrent.2.1, ?_, rfl⟩
    show plo.state = .ready next (steps - 0)
    rw [hstate, Int.sub_zero]
  | cons e events ih =>
    obtain ⟨hapart, hreturned, hwithin⟩ := hsmooth.head
    obtain ⟨hnext, hsetup⟩ := next_coherent plo e hapart hreturned h
    have htail := hsmooth.tail hsetup
    rw [stepCount_cons, Machine.run]
    cases e with
    | epochEnd calls => cases hwithin
    | monitor auc e =>
      rw [if_neg (show ¬ (TrainingEvent.monitor auc e).isStep = true from Bool.false_ne_true), Int.zero_add]
      exact ih hnext hstate htail
    | stepBegin calls =>
      rw [if_pos (show (TrainingEvent.stepBegin calls).isStep = true from rfl)]
      have hcall := next_stepBegin hreturned
      generalize machine.next plo (.stepBegin calls) = plo' at hnext hsetup htail hcall ⊢
      have hcount := stepCount_nonneg events
      cases onStepBegin_ok hcall with
      | done optimal hdone hsame => rw [hstate] at hdone; cases hdone
      | counted state htick hsame =>
        subst hsame
        rw [hstate] at htick
        obtain ⟨-, rfl⟩ := tick_ready htick
        rcases ih hnext rfl htail with ⟨hless, hready, hmeasurements⟩ | ⟨hge, hwalking⟩
        · refine Or.inl ⟨by omega, ?_, hmeasurements⟩
          rw [hready]
          congr 1
          omega
        · exact Or.inr ⟨by omega, hwalking⟩
      | warming next' hready hwarming =>
        rw [hstate] at hready
        obtain ⟨-, rfl⟩ := State.ready.inj hready
        refine Or.inr ⟨by omega, walking_run hnext ?_ htail⟩
        obtain ⟨-, ⟨limits, rfl⟩, -⟩ := hwarming
        intro next steps hready
        cases hready
      | profiling current hwarmup monitor hbegin hsteps hsame => rw [hstate] at hwarmup; cases hwarmup
      | measured current hprofiling measurement monitor m i hend hm hi hsame =>
        rw [hstate] at hprofiling
        cases hprofiling

omit [Rounding] in
/-- After `s` steps of a walk over `n` limits, of which `k` were done, `l` are done: `s / L` more. -/
theorem done_div {n k l s L : Int} (hL : 0 < L) (hlt : (n - l - 1) * L < (n - k) * L - s)
    (hle : (n - k) * L - s ≤ (n - l) * L) : s / L = l - k := by
  have hlow : (l - k) * L ≤ s := by linarith
  have hhigh : s < (l - k + 1) * L := by linarith
  have hge := (Int.le_ediv_iff_mul_le hL).mpr hlow
  have hless := (Int.ediv_lt_iff_lt_mul hL).mpr hhigh
  omega

/-- What is measured when an epoch ends is what fitted into it. -/
theorem measured_run (hc : plo.Checked) (h : plo.Coherent) {next steps : Int}
    (hstate : plo.state = .ready next steps) {events : List TrainingEvent} (hsmooth : Smooth plo events) :
    ((machine.run plo events).measurements.length : Int) =
      min (plo.powerLimits.length : Int)
        (plo.measurements.length + max 0 (stepCount events - steps) / plo.limitSteps) := by
  obtain ⟨hrun, hsetup⟩ := coherent_run h hsmooth.apart hsmooth.returned
  have hL := hc.limitSteps_pos
  have hleft : 1 ≤ plo.limitsLeft := by
    have hcurrent := h.current
    unfold Current at hcurrent
    rw [hstate] at hcurrent
    exact limitsLeft_pos hcurrent.1
  rcases ready_run h hstate hsmooth with ⟨hless, -, hmeasurements⟩ | ⟨hge, hwalking⟩
  · rw [hmeasurements, max_eq_left (by omega), Int.zero_ediv]
    unfold limitsLeft at hleft
    omega
  · -- The steps that are left tell how many limits are.
    have hsteps := stepsLeft_run hc h hsmooth
    have hstart : plo.stepsLeft = steps + plo.limitsLeft * plo.limitSteps := by rw [stepsLeft, hstate]
    have hlimits : (machine.run plo events).limitSteps = plo.limitSteps := by
      unfold limitSteps
      rw [hsetup.warmupSteps, hsetup.profileSteps]
    have hcount : (machine.run plo events).limitsLeft =
        plo.powerLimits.length - (machine.run plo events).measurements.length := by
      unfold limitsLeft
      rw [hsetup.powerLimits]
    have hbounds := stepsLeft_bounds (hc.setup hsetup) hrun
    rw [hlimits, hsteps, hstart] at hbounds
    generalize (machine.run plo events) = plo' at hbounds hcount hwalking
    rw [max_eq_right (by omega)]
    unfold limitsLeft at hbounds hcount
    rcases hbounds with ⟨next', steps', hready, -⟩ | ⟨-, -, hone, hlt, hle⟩ | ⟨optimal, -, hzero, hall⟩
    · exact absurd hready (hwalking next' steps')
    · -- What the epoch has past the wait goes into whole limits.
      rw [hcount] at hone hlt hle
      have hnonneg : 0 ≤ (plo.powerLimits.length - plo'.measurements.length - 1 : Int) * plo.limitSteps :=
        mul_nonneg (by omega) hL.le
      have hfits : (stepCount events - steps) / plo.limitSteps =
          plo'.measurements.length - plo.measurements.length :=
        done_div (n := plo.powerLimits.length) hL (by omega) (by omega)
      rw [hfits]
      omega
    · have hfits : (plo.powerLimits.length - plo.measurements.length : Int) ≤
          (stepCount events - steps) / plo.limitSteps :=
        (Int.le_ediv_iff_mul_le hL).mpr (by omega)
      omega

/-- The end of an epoch keeps the measurements, and interrupts what is neither waiting nor
done. -/
theorem epochEnd_ok {calls : Calls} (hcall : plo.onEpochEnd calls = (.ok (), plo')) :
    plo'.measurements = plo.measurements ∧
      ((∃ next steps, plo.state = .ready next steps ∧ plo'.state = .ready next steps) ∨
        (∃ optimal, plo.state = .done optimal ∧ plo'.state = .done optimal) ∨
        (plo.Walking ∧ ∃ next, plo'.state = .ready next 1)) := by
  rcases onEpochEnd_ok hcall with ⟨rfl, ⟨next, steps, hstate⟩ | ⟨optimal, hstate⟩⟩ |
    ⟨current, steps, hstate, hcall⟩ | ⟨current, steps, _, monitor, hstate, -, hcall⟩
  · exact ⟨rfl, Or.inl ⟨next, steps, hstate, hstate⟩⟩
  · exact ⟨rfl, Or.inr (Or.inl ⟨optimal, hstate, hstate⟩)⟩
  · obtain ⟨top, limits, -, rfl, -⟩ := interrupted_ok hcall
    exact ⟨rfl, Or.inr (Or.inr ⟨fun _ _ hready => (nomatch hstate.symm.trans hready), current, rfl⟩)⟩
  · obtain ⟨top, limits, -, rfl, -⟩ := interrupted_ok hcall
    exact ⟨rfl, Or.inr (Or.inr ⟨fun _ _ hready => (nomatch hstate.symm.trans hready), current, rfl⟩)⟩

/-- The steps of an epoch, and its end. -/
structure Epoch where
  events : List TrainingEvent
  calls : Calls
  within : ∀ e ∈ events, e.isEpochEnd = false

def Epoch.all (epoch : Epoch) : List TrainingEvent := epoch.events ++ [.epochEnd epoch.calls]

def Epoch.steps (epoch : Epoch) : Int := stepCount epoch.events

theorem Undisturbed.append {a b : List TrainingEvent} (h : Undisturbed plo (a ++ b)) :
    Undisturbed plo a ∧ (SameSetup plo (machine.run plo a) → Undisturbed (machine.run plo a) b) := by
  have htrace := Machine.trace_append machine plo a b
  refine ⟨⟨fun e he => h.apart e (List.mem_append_left _ he), fun x hx => h.returned x ?_⟩, fun hsetup => ⟨?_, ?_⟩⟩
  · rw [htrace]
    exact List.mem_append_left _ hx
  · intro e he
    rw [hsetup.powerLimits]
    exact h.apart e (List.mem_append_right _ he)
  · intro x hx
    refine h.returned x ?_
    rw [htrace]
    exact List.mem_append_right _ hx

/-- **What an epoch measures.** From a limit that is waiting, an epoch measures as many
limits as fit into the steps it has left after the wait; and it ends waiting, unless all
limits are measured. -/
theorem measured_in_epoch (hc : plo.Checked) (h : plo.Coherent) {next steps : Int}
    (hstate : plo.state = .ready next steps) (epoch : Epoch) (hundisturbed : Undisturbed plo epoch.all) :
    ((machine.run plo epoch.all).measurements.length : Int) =
        min (plo.powerLimits.length : Int)
          (plo.measurements.length + max 0 (epoch.steps - steps) / plo.limitSteps) ∧
      ((∃ optimal, (machine.run plo epoch.all).state = .done optimal) ∨
        ∃ next', (machine.run plo epoch.all).state =
          .ready next' (if epoch.steps < steps then steps - epoch.steps else 1)) := by
  obtain ⟨hevents, hrest⟩ := hundisturbed.append
  have hsmooth : Smooth plo epoch.events := ⟨hevents.apart, hevents.returned, epoch.within⟩
  obtain ⟨hrun, hsetup⟩ := coherent_run h hsmooth.apart hsmooth.returned
  have hend := (hrest hsetup).returned ⟨_, .epochEnd epoch.calls, _⟩ List.mem_cons_self
  obtain ⟨hmeasurements, hcases⟩ := epochEnd_ok (next_epochEnd hend)
  have hmeasured := measured_run hc h hstate hsmooth
  have hready := ready_run h hstate hsmooth
  have hall : machine.run plo epoch.all =
      machine.next (machine.run plo epoch.events) (.epochEnd epoch.calls) := by
    rw [Epoch.all, Machine.run_append]
    rfl
  rw [hall, hmeasurements]
  refine ⟨hmeasured, ?_⟩
  rcases hcases with ⟨next', steps', hbefore, hafter⟩ | ⟨optimal, -, hafter⟩ | ⟨hwalking, next', hafter⟩
  · rcases hready with ⟨hless, hwaits, -⟩ | ⟨-, hwalking⟩
    · refine Or.inr ⟨next', ?_⟩
      obtain ⟨-, rfl⟩ := State.ready.inj (hbefore.symm.trans hwaits)
      rw [hafter, if_pos (show epoch.steps < steps from hless)]
      rfl
    · exact absurd hbefore (hwalking next' steps')
  · exact Or.inl ⟨optimal, hafter⟩
  · refine Or.inr ⟨next', ?_⟩
    rw [hafter, if_neg]
    intro hless
    rcases hready with ⟨-, hwaits, -⟩ | ⟨hge, -⟩
    · exact hwalking _ _ hwaits
    · exact absurd hless (Int.not_lt.mpr hge)

/-- An epoch of some steps. -/
def epochFrom (start count : ℕ) : Epoch where
  events := stepsFrom start count
  calls := callsAt (start + count)
  within := by
    intro e he
    obtain ⟨n, -, rfl⟩ := List.mem_map.mp he
    rfl

omit [Rounding] in
theorem epochFrom_apart (start count : ℕ) (powerLimits : List Int) :
    ∀ e ∈ (epochFrom start count).all, e.Apart powerLimits := by
  intro e he
  rcases List.mem_append.mp he with he | he
  · exact stepsFrom_apart start count powerLimits e he
  · obtain rfl := List.mem_singleton.mp he
    trivial

/-- A training is its epochs. -/
def training (epochs : List Epoch) : List TrainingEvent := epochs.flatMap Epoch.all

/-! ### What a training measures -/

/-- The steps that an epoch leaves to wait. -/
def nextWait (wait steps : Int) : Int := if steps < wait then wait - steps else 1

/-- The limits that fit into the epochs, one epoch at a time. -/
def capacity (limitSteps : Int) : Int → List Int → Int
  | _, [] => 0
  | wait, steps :: epochs => max 0 (steps - wait) / limitSteps + capacity limitSteps (nextWait wait steps) epochs

omit [Rounding] in
theorem nextWait_pos (wait steps : Int) : 0 < nextWait wait steps := by
  unfold nextWait
  split <;> omega

omit [Rounding] in
theorem capacity_nonneg {limitSteps : Int} (h : 0 < limitSteps) (wait : Int) (epochs : List Int) :
    0 ≤ capacity limitSteps wait epochs := by
  induction epochs generalizing wait with
  | nil => exact Int.le_refl 0
  | cons steps epochs ih => exact Int.add_nonneg (Int.ediv_nonneg (le_max_left _ _) h.le) (ih _)

omit [Rounding] in
theorem capacity_short {limitSteps wait : Int} (hwait : 0 < wait) {epochs : List Int}
    (hshort : ∀ steps ∈ epochs, steps ≤ limitSteps) (hpos : 0 < limitSteps) : capacity limitSteps wait epochs = 0 := by
  induction epochs generalizing wait with
  | nil => rfl
  | cons steps epochs ih =>
    have hle := hshort steps List.mem_cons_self
    have hnone : max 0 (steps - wait) / limitSteps = 0 := Int.ediv_eq_zero_of_lt (le_max_left _ _) (by omega)
    rw [capacity, hnone, ih (nextWait_pos wait steps) fun steps he => hshort steps (List.mem_cons_of_mem _ he)]
    rfl

/-- Done is the end. -/
theorem done_run {optimal : Int} (hstate : plo.state = .done optimal) (events : List TrainingEvent) :
    (machine.run plo events).state = .done optimal ∧
      (machine.run plo events).measurements = plo.measurements := by
  have hkept : machine.Preserved (fun _ => True) fun plo' =>
      plo'.state = .done optimal ∧ plo'.measurements = plo.measurements := by
    intro plo' e _ h
    cases e with
    | monitor auc e => exact h
    | stepBegin calls =>
      have hsame : machine.next plo' (.stepBegin calls) = plo' := by
        show (plo'.onStepBegin calls).2 = plo'
        simp only [onStepBegin, h.1]
      rw [hsame]
      exact h
    | epochEnd calls =>
      have hsame : machine.next plo' (.epochEnd calls) = plo' := by
        show (plo'.onEpochEnd calls).2 = plo'
        simp only [onEpochEnd, h.1]
      rw [hsame]
      exact h
  exact hkept.run ⟨hstate, rfl⟩ fun _ _ => trivial

/-- From a limit that is waiting, a training measures what its epochs have room for. -/
theorem epochs_run (hc : plo.Checked) (h : plo.Coherent) {next steps : Int}
    (hstate : plo.state = .ready next steps)
    (epochs : List Epoch) (hundisturbed : Undisturbed plo (training epochs)) :
    ((machine.run plo (training epochs)).measurements.length : Int) =
        min (plo.powerLimits.length : Int)
          (plo.measurements.length + capacity plo.limitSteps steps (epochs.map Epoch.steps)) ∧
      ((∃ optimal, (machine.run plo (training epochs)).state = .done optimal) ∨
        ∃ next', (machine.run plo (training epochs)).state =
          .ready next' ((epochs.map Epoch.steps).foldl nextWait steps)) := by
  induction epochs generalizing plo next steps with
  | nil =>
    have hcurrent := h.current
    unfold Current at hcurrent
    rw [hstate] at hcurrent
    have hlt := (List.getElem?_eq_some_iff.mp hcurrent.1).1
    refine ⟨?_, Or.inr ⟨next, hstate⟩⟩
    have hnone : capacity plo.limitSteps steps ([].map Epoch.steps) = 0 := rfl
    have hsame : machine.run plo (training []) = plo := rfl
    rw [hnone, hsame]
    omega
  | cons epoch epochs ih =>
    have hsplit : training (epoch :: epochs) = epoch.all ++ training epochs := rfl
    rw [hsplit] at hundisturbed ⊢
    obtain ⟨hfirst, hrest⟩ := hundisturbed.append
    obtain ⟨hcoherent, hsetup⟩ := coherent_run h hfirst.apart hfirst.returned
    obtain ⟨hmeasured, hstates⟩ := measured_in_epoch hc h hstate epoch hfirst
    have hsteps : (machine.run plo epoch.all).limitSteps = plo.limitSteps := by
      unfold limitSteps
      rw [hsetup.warmupSteps, hsetup.profileSteps]
    have hcurrent := hcoherent.current
    unfold Current at hcurrent
    rw [Machine.run_append, List.map_cons, capacity, List.foldl_cons]
    have hroom := capacity_nonneg hc.limitSteps_pos (nextWait steps epoch.steps) (epochs.map Epoch.steps)
    rcases hstates with ⟨optimal, hdone⟩ | ⟨next', hready⟩
    · -- All are measured; the other epochs add none.
      obtain ⟨hend, hsame⟩ := done_run hdone (training epochs)
      rw [hdone, hsetup.powerLimits] at hcurrent
      rw [hsame]
      exact ⟨by omega, Or.inl ⟨optimal, hend⟩⟩
    · obtain ⟨hlater, hends⟩ := ih (hc.setup hsetup) hcoherent hready (hrest hsetup)
      rw [hready] at hcurrent
      have hlt := (List.getElem?_eq_some_iff.mp hcurrent.1).1
      rw [hsetup.powerLimits] at hlt
      rw [hlater, hsetup.powerLimits, hsteps]
      exact ⟨by unfold nextWait; omega, hends⟩

/-- **What a training measures.** Of the power limits, a new optimizer measures in a
training as many as fit into the epochs whole, each epoch beginning with the steps it still
waits; it is done if and only if they all fit. -/
theorem measured_in_training {setup : Setup} {calls : Calls} (hnew : setup.profile.join = none)
    (hbuilt : construct setup calls = .ok plo)
    (hclosed : ∀ pl ∈ plo.powerLimits, windowName pl ∉ setup.monitor.measurementStates)
    (epochs : List Epoch) (hundisturbed : Undisturbed plo (training epochs)) :
    ((machine.run plo (training epochs)).measurements.length : Int) =
        min (plo.powerLimits.length : Int)
          (capacity (setup.warmupSteps + setup.profileSteps) (setup.waitSteps + 1) (epochs.map Epoch.steps)) ∧
      ((∃ optimal, (machine.run plo (training epochs)).state = .done optimal) ↔
        (plo.powerLimits.length : Int) ≤
          capacity (setup.warmupSteps + setup.profileSteps) (setup.waitSteps + 1) (epochs.map Epoch.steps)) := by
  obtain ⟨⟨-, hwarmup, hprofile, -⟩, -, ⟨first, -, hstate⟩, hmeasurements, hsameWarmup, hsameProfile, -⟩ :=
    construct_ok hnew hbuilt
  have hc : plo.Checked := ⟨by omega, by omega⟩
  have h := construct_coherent hnew hbuilt hclosed
  obtain ⟨hcoherent, hsetup⟩ := coherent_run h hundisturbed.apart hundisturbed.returned
  obtain ⟨hmeasured, hstates⟩ := epochs_run hc h hstate epochs hundisturbed
  have hsteps : plo.limitSteps = setup.warmupSteps + setup.profileSteps := by
    rw [limitSteps, hsameWarmup, hsameProfile]
  rw [hsteps, hmeasurements, List.length_nil, Int.natCast_zero, Int.zero_add] at hmeasured
  refine ⟨hmeasured, ?_⟩
  have hcurrent := hcoherent.current
  unfold Current at hcurrent
  rcases hstates with ⟨optimal, hdone⟩ | ⟨next', hready⟩
  · rw [hdone, hsetup.powerLimits] at hcurrent
    exact iff_of_true ⟨optimal, hdone⟩ (by omega)
  · rw [hready] at hcurrent
    have hlt := (List.getElem?_eq_some_iff.mp hcurrent.1).1
    rw [hsetup.powerLimits] at hlt
    refine iff_of_false ?_ (by omega)
    rintro ⟨optimal, hdone⟩
    exact nomatch hready.symm.trans hdone

end Epochs

theorem two_epochs_apart (start count count' : ℕ) (powerLimits : List Int) :
    ∀ e ∈ training [epochFrom start count, epochFrom (start + count) count'], e.Apart powerLimits := by
  intro e he
  obtain ⟨epoch, hepoch, he⟩ := List.mem_flatMap.mp he
  rcases List.mem_pair.mp hepoch with rfl | rfl
  · exact epochFrom_apart start count _ e he
  · exact epochFrom_apart (start + count) count' _ e he

attribute [local instance] Rounding.binary64 in
theorem sample_epochs : Undisturbed sampleOptimizer (training [epochFrom 0 4, epochFrom 4 3]) := by
  refine ⟨two_epochs_apart 0 4 3 _, ?_⟩
  unfold Returned
  decide +kernel

attribute [local instance] Rounding.binary64 in
theorem measured_in_training_sample :
    ((machine.run sampleOptimizer (training [epochFrom 0 4, epochFrom 4 3])).measurements.length : Int) =
        min (sampleOptimizer.powerLimits.length : Int)
          (capacity (sampleSetup.warmupSteps + sampleSetup.profileSteps) (sampleSetup.waitSteps + 1)
            ([epochFrom 0 4, epochFrom 4 3].map Epoch.steps)) ∧
      ((∃ optimal,
          (machine.run sampleOptimizer (training [epochFrom 0 4, epochFrom 4 3])).state = .done optimal) ↔
        (sampleOptimizer.powerLimits.length : Int) ≤
          capacity (sampleSetup.warmupSteps + sampleSetup.profileSteps) (sampleSetup.waitSteps + 1)
            ([epochFrom 0 4, epochFrom 4 3].map Epoch.steps)) :=
  measured_in_training (by rfl) sample_built sample_closed _ sample_epochs

/-- **Short epochs never measure anything.** If no epoch has more steps than one limit
takes, the optimizer is waiting after every epoch, however many there are, and has no
measurement. -/
theorem short_epochs_never_measure [Rounding] {plo : GlobalPowerLimitOptimizer} {setup : Setup}
    {calls : Calls} (hnew : setup.profile.join = none)
    (hbuilt : construct setup calls = .ok plo)
    (hclosed : ∀ pl ∈ plo.powerLimits, windowName pl ∉ setup.monitor.measurementStates)
    (epochs : List Epoch) (hundisturbed : Undisturbed plo (training epochs))
    (hshort : ∀ epoch ∈ epochs, epoch.steps ≤ setup.warmupSteps + setup.profileSteps) :
    (∃ next steps, (machine.run plo (training epochs)).state = .ready next steps) ∧
      (machine.run plo (training epochs)).measurements = [] := by
  obtain ⟨⟨hwait, hwarmup, hprofile, -⟩, -, ⟨first, hfirst, hstate⟩, hmeasurements, hsameWarmup, hsameProfile, -⟩ :=
    construct_ok hnew hbuilt
  have hc : plo.Checked := ⟨by omega, by omega⟩
  have h := construct_coherent hnew hbuilt hclosed
  obtain ⟨hcoherent, hsetup⟩ := coherent_run h hundisturbed.apart hundisturbed.returned
  obtain ⟨hmeasured, hstates⟩ := epochs_run hc h hstate epochs hundisturbed
  have hsteps : plo.limitSteps = setup.warmupSteps + setup.profileSteps := by
    rw [limitSteps, hsameWarmup, hsameProfile]
  have hnone : capacity plo.limitSteps (setup.waitSteps + 1) (epochs.map Epoch.steps) = 0 := by
    refine capacity_short (by omega) (fun steps he => ?_) hc.limitSteps_pos
    obtain ⟨epoch, hmem, rfl⟩ := List.mem_map.mp he
    rw [hsteps]
    exact hshort epoch hmem
  have hsome := (List.getElem?_eq_some_iff.mp hfirst).1
  rw [hnone, hmeasurements, List.length_nil] at hmeasured
  have hempty : (machine.run plo (training epochs)).measurements = [] :=
    List.length_eq_zero_iff.mp (by omega)
  refine ⟨?_, hempty⟩
  rcases hstates with ⟨optimal, hdone⟩ | ⟨next', hready⟩
  · have hcurrent := hcoherent.current
    unfold Current at hcurrent
    rw [hdone, hsetup.powerLimits, hempty, List.length_nil] at hcurrent
    omega
  · exact ⟨next', _, hready⟩

/-- Two epochs of two steps. -/
def shortEpochs : List Epoch := [epochFrom 0 2, epochFrom 2 2]

attribute [local instance] Rounding.binary64 in
theorem short_undisturbed : Undisturbed sampleOptimizer (training shortEpochs) := by
  refine ⟨two_epochs_apart 0 2 2 _, ?_⟩
  unfold Returned
  decide +kernel

attribute [local instance] Rounding.binary64 in
theorem short_epochs_never_measure_sample :
    (∃ next steps, (machine.run sampleOptimizer (training shortEpochs)).state = .ready next steps) ∧
      (machine.run sampleOptimizer (training shortEpochs)).measurements = [] :=
  short_epochs_never_measure (by rfl) sample_built sample_closed shortEpochs short_undisturbed (by decide)

end GlobalPowerLimitOptimizer

end ZeusPower.Reference
