import Mathlib.Algebra.Order.Field.Rat
import Mathlib.Data.List.MinMax
import Mathlib.Tactic.Linarith
import ZeusPower.Basic

/-! How the power limit is chosen (`OptimumSelector` in `zeus/optimizer/power_limit.py`).

Profiling leaves one measurement a power limit; a selector names the limit to train with.
Python's `min` takes the first of equals, and fails on an empty sequence (`none`).

Over distinct limits every selector names a limit that was measured and is best by its own
measure (`select_best`). In exact arithmetic, turning the knob of `ZeusCost` towards energy
never costs energy or gains time (`zeusCost_mono`); the costs of two limits that are near each
other may round the other way. -/
namespace ZeusPower.Reference
open Library

/-! ### Measurements -/

/-- One profiled power limit, in Watts; pydantic builds no other. -/
structure PowerLimitMeasurement [Rounding] where
  powerLimit : Int
  energy : Double
  time : Double
  powerLimit_pos : 0 < powerLimit
  energy_pos : 0 < energy
  time_pos : 0 < time
  energy_float : fl energy = energy
  time_float : fl time = time
  deriving DecidableEq

/-- The cost of a training job (`zeus/utils/metric.py`). -/
def zeusCost [Rounding] (energy time etaKnob maxPower : Double) : Double :=
  fl (fl (etaKnob * energy) + fl (fl (fl (1 - etaKnob) * maxPower) * time))

/-! ### Selectors -/

structure ZeusCost where
  etaKnob : Double
  worldSize : Int
  etaKnob_nonneg : 0 ≤ etaKnob
  etaKnob_le_one : etaKnob ≤ 1
  one_le_worldSize : 1 ≤ worldSize

structure MaxSlowdownConstraint where
  factor : Double
  one_le_factor : 1 ≤ factor

inductive OptimumSelector where
  | energy
  | time
  | zeusCost (s : ZeusCost)
  | maxSlowdownConstraint (s : MaxSlowdownConstraint)

/-- `ValueError` is its text. -/
def ZeusCost.construct (etaKnob : Double) (worldSize : Int) : Except String ZeusCost :=
  if heta : etaKnob < 0 ∨ 1 < etaKnob then
    .error "eta_knob must be between 0 and 1, inclusive both sides."
  else if hworld : worldSize < 1 then
    .error "world_size must be greater than or equal to 1."
  else
    .ok ⟨etaKnob, worldSize, not_lt.mp fun h => heta (Or.inl h), not_lt.mp fun h => heta (Or.inr h),
      not_lt.mp hworld⟩

/-- `factor` is written out by the caller's format. -/
def MaxSlowdownConstraint.construct (format : Double → String) (factor : Double) :
    Except String MaxSlowdownConstraint :=
  if h : factor < 1 then
    .error ("max_slowdown_factor must be greater than or equal to 1.0. Got " ++ format factor ++ ".")
  else .ok ⟨factor, not_lt.mp h⟩

/-- `dict[key] = value`: a key that is there keeps its place. -/
def setItem (dict : List (Int × Double)) (key : Int) (value : Double) : List (Int × Double) :=
  if dict.any fun item => item.1 == key then
    dict.map fun item => if item.1 == key then (key, value) else item
  else dict ++ [(key, value)]

section Select
variable [Rounding] (measurements : List PowerLimitMeasurement)

def maxPowerLimit : Option Int := (measurements.map (·.powerLimit)).max?

def Energy.select : Option Int := (measurements.argmin (·.energy)).map (·.powerLimit)

def Time.select : Option Int := (measurements.argmin (·.time)).map (·.powerLimit)

/-- The dictionary from limits to costs. -/
def zeusCostMap (cost : PowerLimitMeasurement → Double) : List (Int × Double) :=
  measurements.foldl (fun dict m => setItem dict m.powerLimit (cost m)) []

def ZeusCost.cost (s : ZeusCost) (limit : Int) (m : PowerLimitMeasurement) : Double :=
  Reference.zeusCost m.energy m.time s.etaKnob (fl (limit * s.worldSize : Int))

def ZeusCost.select (s : ZeusCost) : Option Int := do
  let limit ← maxPowerLimit measurements
  let costs := zeusCostMap measurements (s.cost limit)
  (costs.argmin Prod.snd).map Prod.fst

/-- The first measurement of a limit. -/
def measurementOf (limit : Int) : Option PowerLimitMeasurement :=
  measurements.find? fun m => m.powerLimit == limit

def MaxSlowdownConstraint.select (s : MaxSlowdownConstraint) : Option Int := do
  let maxPower ← maxPowerLimit measurements
  let top ← measurementOf measurements maxPower
  let feasible := measurements.filter fun m => decide (m.time ≤ fl (s.factor * top.time))
  (feasible.map (·.powerLimit)).min?

def OptimumSelector.select : OptimumSelector → Option Int
  | .energy => Energy.select measurements
  | .time => Time.select measurements
  | .zeusCost s => s.select measurements
  | .maxSlowdownConstraint s => s.select measurements

end Select

/-! ### What is selected -/

/-- `m` is best among the measurements by a selector's own measure. -/
def OptimumSelector.Best [Rounding] (measurements : List PowerLimitMeasurement) (m : PowerLimitMeasurement) :
    OptimumSelector → Prop
  | .energy => ∀ m' ∈ measurements, m.energy ≤ m'.energy
  | .time => ∀ m' ∈ measurements, m.time ≤ m'.time
  | .zeusCost s => ∀ limit, maxPowerLimit measurements = some limit →
      ∀ m' ∈ measurements, s.cost limit m ≤ s.cost limit m'
  | .maxSlowdownConstraint s => ∀ top ∈ measurements, (∀ m' ∈ measurements, m'.powerLimit ≤ top.powerLimit) →
      m.time ≤ fl (s.factor * top.time) ∧
        ∀ m' ∈ measurements, m'.time ≤ fl (s.factor * top.time) → m.powerLimit ≤ m'.powerLimit

section Best
variable [Rounding] {measurements : List PowerLimitMeasurement}

theorem maxPowerLimit_isSome (h : measurements ≠ []) :
    ∃ top ∈ measurements, maxPowerLimit measurements = some top.powerLimit ∧
      ∀ m ∈ measurements, m.powerLimit ≤ top.powerLimit := by
  have hne : measurements.map (·.powerLimit) ≠ [] := by simpa using h
  obtain ⟨limit, hlimit⟩ := Option.ne_none_iff_exists'.mp (List.max?_eq_none_iff.not.mpr hne)
  obtain ⟨hmem, hle⟩ := List.max?_eq_some_iff.mp hlimit
  obtain ⟨top, htop, rfl⟩ := List.mem_map.mp hmem
  exact ⟨top, htop, hlimit, fun m hm => hle _ (List.mem_map_of_mem hm)⟩

/-- A dictionary that meets each key once is the list of its items. -/
theorem zeusCostMap_eq (cost : PowerLimitMeasurement → Double)
    (hnodup : (measurements.map (·.powerLimit)).Nodup) :
    zeusCostMap measurements cost = measurements.map fun m => (m.powerLimit, cost m) := by
  have hloop : ∀ (rest done : List PowerLimitMeasurement), ((done ++ rest).map (·.powerLimit)).Nodup →
      rest.foldl (fun dict m => setItem dict m.powerLimit (cost m))
        (done.map fun m => (m.powerLimit, cost m)) = (done ++ rest).map fun m => (m.powerLimit, cost m) := by
    intro rest
    induction rest with
    | nil =>
      intro done _
      rw [List.append_nil]
      rfl
    | cons m rest ih =>
      intro done hnodup
      have hfresh : (done.map fun m => (m.powerLimit, cost m)).any (fun item => item.1 == m.powerLimit) = false := by
        rw [List.any_eq_false]
        intro item hitem
        obtain ⟨m', hm', rfl⟩ := List.mem_map.mp hitem
        rw [List.map_append, List.map_cons, List.nodup_append] at hnodup
        simpa using hnodup.2.2 m'.powerLimit (List.mem_map_of_mem hm') m.powerLimit List.mem_cons_self
      have hsplit : done ++ m :: rest = (done ++ [m]) ++ rest := by
        rw [List.append_assoc, List.singleton_append]
      rw [hsplit] at hnodup ⊢
      rw [List.foldl_cons, setItem, hfresh, ← ih (done ++ [m]) hnodup]
      simp only [Bool.false_eq_true, if_false, List.map_append, List.map_cons, List.map_nil]
  exact hloop measurements [] hnodup

/-- The first best of a list that is not empty. -/
theorem argmin_isSome (f : PowerLimitMeasurement → Double) (h : measurements ≠ []) :
    ∃ m ∈ measurements, measurements.argmin f = some m ∧ ∀ m' ∈ measurements, f m ≤ f m' := by
  obtain ⟨m, hm⟩ := Option.ne_none_iff_exists'.mp ((List.argmin_eq_none (f := f)).not.mpr h)
  exact ⟨m, List.argmin_mem hm, hm, fun m' hm' => List.le_of_mem_argmin hm' hm⟩

theorem argmin_map {α : Type} (g : PowerLimitMeasurement → α) (f : α → Double)
    (measurements : List PowerLimitMeasurement) :
    (measurements.map g).argmin f = (measurements.argmin (f ∘ g)).map g := by
  induction measurements with
  | nil => rfl
  | cons m measurements ih =>
    rw [List.map_cons, List.argmin_cons, List.argmin_cons, ih]
    cases measurements.argmin (f ∘ g) with
    | none => rfl
    | some c =>
      simp only [Option.map_some, Function.comp_apply]
      split <;> rfl

/-- Over distinct limits `ZeusCost` names the limit of the first of least cost. -/
theorem ZeusCost.select_eq (s : ZeusCost) (hnodup : (measurements.map (·.powerLimit)).Nodup) {limit : Int}
    (hlimit : maxPowerLimit measurements = some limit) :
    s.select measurements = (measurements.argmin (s.cost limit)).map (·.powerLimit) := by
  have hmap : s.select measurements =
      ((zeusCostMap measurements (s.cost limit)).argmin Prod.snd).map Prod.fst := by
    rw [ZeusCost.select, hlimit]
    rfl
  rw [hmap, zeusCostMap_eq _ hnodup, argmin_map, Option.map_map]
  rfl

theorem eq_of_powerLimit_eq (hnodup : (measurements.map (·.powerLimit)).Nodup) {m m' : PowerLimitMeasurement}
    (hm : m ∈ measurements) (hm' : m' ∈ measurements) (h : m.powerLimit = m'.powerLimit) : m = m' :=
  List.inj_on_of_nodup_map hnodup hm hm' h

/-- **A selector names a measured limit that is best by its own measure.** -/
theorem select_best (s : OptimumSelector) (hne : measurements ≠ [])
    (hnodup : (measurements.map (·.powerLimit)).Nodup) :
    ∃ m ∈ measurements, s.select measurements = some m.powerLimit ∧ s.Best measurements m := by
  cases s with
  | energy =>
    obtain ⟨m, hm, hmin, hbest⟩ := argmin_isSome (·.energy) hne
    exact ⟨m, hm, by rw [OptimumSelector.select, Energy.select, hmin]; rfl, hbest⟩
  | time =>
    obtain ⟨m, hm, hmin, hbest⟩ := argmin_isSome (·.time) hne
    exact ⟨m, hm, by rw [OptimumSelector.select, Time.select, hmin]; rfl, hbest⟩
  | zeusCost s =>
    obtain ⟨top, -, htop, -⟩ := maxPowerLimit_isSome hne
    obtain ⟨m, hm, hmin, hbest⟩ := argmin_isSome (s.cost top.powerLimit) hne
    refine ⟨m, hm, by rw [OptimumSelector.select, s.select_eq hnodup htop, hmin]; rfl, ?_⟩
    intro limit hlimit
    obtain rfl := Option.some.inj (htop.symm.trans hlimit)
    exact hbest
  | maxSlowdownConstraint s =>
    obtain ⟨top, htop, hmax, hle⟩ := maxPowerLimit_isSome hne
    have hfirst : measurementOf measurements top.powerLimit = some top := by
      have hsome : (measurements.find? fun m => m.powerLimit == top.powerLimit).isSome = true :=
        List.find?_isSome.mpr ⟨top, htop, beq_self_eq_true _⟩
      obtain ⟨first, hfirst⟩ := Option.isSome_iff_exists.mp hsome
      have heq := eq_of_powerLimit_eq hnodup (List.mem_of_find?_eq_some hfirst) htop
        (by simpa using List.find?_some hfirst)
      rw [measurementOf, hfirst, heq]
    -- The highest limit is feasible: the factor is at least one.
    have hfeasible : top.time ≤ fl (s.factor * top.time) := by
      calc top.time = fl top.time := top.time_float.symm
        _ ≤ fl (s.factor * top.time) :=
          Rounding.mono (le_mul_of_one_le_left top.time_pos.le s.one_le_factor)
    have hne' : (measurements.filter fun m => decide (m.time ≤ fl (s.factor * top.time))).map (·.powerLimit) ≠ [] := by
      intro h
      have hmem : top ∈ measurements.filter fun m => decide (m.time ≤ fl (s.factor * top.time)) :=
        List.mem_filter.mpr ⟨htop, decide_eq_true hfeasible⟩
      rw [List.map_eq_nil_iff] at h
      rw [h] at hmem
      cases hmem
    obtain ⟨limit, hlimit⟩ := Option.ne_none_iff_exists'.mp (List.min?_eq_none_iff.not.mpr hne')
    obtain ⟨hmem, hleast⟩ := List.min?_eq_some_iff.mp hlimit
    obtain ⟨m, hm, rfl⟩ := List.mem_map.mp hmem
    obtain ⟨hm, hfits⟩ := List.mem_filter.mp hm
    refine ⟨m, hm, ?_, ?_⟩
    · show (maxPowerLimit measurements >>= _) = _
      rw [hmax, Option.bind_eq_bind, Option.bind_some, hfirst]
      exact hlimit
    · intro top' htop' hle'
      have heq := eq_of_powerLimit_eq hnodup htop' htop (le_antisymm (hle top' htop') (hle' top htop))
      subst heq
      refine ⟨of_decide_eq_true hfits, fun m' hm' hfits' => ?_⟩
      exact hleast _ (List.mem_map_of_mem (List.mem_filter.mpr ⟨hm', decide_eq_true hfits'⟩))

/-! ### The knob -/

/-- **Turning the knob towards energy never costs energy, and never gains time**, in exact
arithmetic. -/
theorem zeusCost_mono [Exact] (s s' : ZeusCost) (hworld : s.worldSize = s'.worldSize)
    (heta : s.etaKnob < s'.etaKnob)
    (hne : measurements ≠ []) (hnodup : (measurements.map (·.powerLimit)).Nodup) :
    ∃ m ∈ measurements, ∃ m' ∈ measurements, s.select measurements = some m.powerLimit ∧
      s'.select measurements = some m'.powerLimit ∧ m'.energy ≤ m.energy ∧ m.time ≤ m'.time := by
  obtain ⟨top, -, htop, -⟩ := maxPowerLimit_isSome hne
  obtain ⟨m, hm, hselect, hbest⟩ := select_best (.zeusCost s) hne hnodup
  obtain ⟨m', hm', hselect', hbest'⟩ := select_best (.zeusCost s') hne hnodup
  refine ⟨m, hm, m', hm', hselect, hselect', ?_⟩
  have hle := hbest _ htop m' hm'
  have hle' := hbest' _ htop m hm
  simp only [ZeusCost.cost, Reference.zeusCost, hworld, Exact.fl_eq] at hle hle'
  have hpower : (0 : Double) < (top.powerLimit * s'.worldSize : Int) := by
    have hworld : 0 < s'.worldSize := s'.one_le_worldSize
    exact_mod_cast Int.mul_pos top.powerLimit_pos hworld
  generalize ((top.powerLimit * s'.worldSize : Int) : Double) = power at hle hle' hpower
  have hnonneg := s.etaKnob_nonneg
  have hone := s'.etaKnob_le_one
  -- `x` and `y` are what the first choice costs more than the second, in energy and in time.
  obtain ⟨x, hx⟩ : ∃ x, x = m.energy - m'.energy := ⟨_, rfl⟩
  obtain ⟨y, hy⟩ : ∃ y, y = power * m.time - power * m'.time := ⟨_, rfl⟩
  have hfirst : s.etaKnob * x + (1 - s.etaKnob) * y ≤ 0 := by
    rw [hx, hy]
    linarith
  have hsecond : 0 ≤ s'.etaKnob * x + (1 - s'.etaKnob) * y := by
    rw [hx, hy]
    linarith
  have hxy : y ≤ x := by
    have hproduct : 0 ≤ (s'.etaKnob - s.etaKnob) * (x - y) := by linarith
    have := nonneg_of_mul_nonneg_right hproduct (sub_pos.mpr heta)
    linarith
  have hyle : y ≤ 0 := by
    have := mul_nonneg hnonneg (sub_nonneg.mpr hxy)
    linarith
  have hxge : 0 ≤ x := by
    have := mul_nonneg (sub_nonneg.mpr hone) (sub_nonneg.mpr hxy)
    linarith
  have htime : power * m.time ≤ power * m'.time := by linarith
  exact ⟨by linarith, le_of_mul_le_mul_left htime hpower⟩

end Best

attribute [local instance] Rounding.exact in
/-- A fast and a frugal limit. -/
def sampleMeasurements : List PowerLimitMeasurement :=
  [⟨300, 30, 10, by norm_num, by norm_num, by norm_num, rfl, rfl⟩,
    ⟨200, 24, 12, by norm_num, by norm_num, by norm_num, rfl, rfl⟩]

def timeKnob : ZeusCost := ⟨0, 1, by norm_num, by norm_num, by norm_num⟩

def energyKnob : ZeusCost := ⟨1, 1, by norm_num, by norm_num, by norm_num⟩

attribute [local instance] Rounding.exact Rounding.exact_exact in
theorem zeusCost_mono_sample :
    timeKnob.select sampleMeasurements = some 300 ∧ energyKnob.select sampleMeasurements = some 200 ∧
      ∃ m ∈ sampleMeasurements, ∃ m' ∈ sampleMeasurements,
        timeKnob.select sampleMeasurements = some m.powerLimit ∧
          energyKnob.select sampleMeasurements = some m'.powerLimit ∧ m'.energy ≤ m.energy ∧ m.time ≤ m'.time := by
  refine ⟨by decide +kernel, by decide +kernel, ?_⟩
  exact zeusCost_mono timeKnob energyKnob rfl (by decide +kernel) (by simp [sampleMeasurements]) (by decide)

end ZeusPower.Reference
