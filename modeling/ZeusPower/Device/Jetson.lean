import ZeusPower.Device.Sysfs

/-! The Jetson SoC backend (`device/soc_jetson.h`).

A background thread reads every power rail in rounds and adds power times the time
since the previous round to the rail's accumulator. A round holds the lock while it
reads the rails, and so does a snapshot, so a snapshot meets the accumulators
between two rounds. `prevTs` is the thread's own variable, a point of time and not a
`double`. -/
namespace ZeusPower.Device

inductive PowerStrategy where
  | directPower
  | voltageCurrentProduct
  deriving DecidableEq, Repr

structure PowerRail where
  key : String
  strategy : PowerStrategy
  /-- sysfs path for direct power (mW) -/
  powerPath : String
  /-- sysfs path for voltage (mV) -/
  voltagePath : String
  /-- sysfs path for current (mA) -/
  currentPath : String
  deriving DecidableEq, Repr

/-- Instantaneous power in mW. -/
def PowerRail.readPowerMw [Rounding] (rail : PowerRail) (sysfs : Sysfs) : Except Error Double :=
  match rail.strategy with
  | .directPower => sysfs.readDouble rail.powerPath
  | .voltageCurrentProduct => do
    let v ← sysfs.readDouble rail.voltagePath
    let c ← sysfs.readDouble rail.currentPath
    pure (fl (fl (v * c) / 1000))

/-- A rail that cannot be read names the file. -/
theorem PowerRail.readPowerMw_error [Rounding] {rail : PowerRail} {sysfs : Sysfs} {e : Error}
    (h : rail.readPowerMw sysfs = .error e) : ∃ path, e = .cannotReadSysfs path := by
  have hfile : ∀ {path : String}, sysfs.readDouble path = .error e → e = .cannotReadSysfs path := by
    intro path h
    unfold Sysfs.readDouble at h
    split at h
    next => exact (Except.error.inj h).symm
    next => cases h
  unfold PowerRail.readPowerMw at h
  split at h
  next => exact ⟨rail.powerPath, hfile h⟩
  next =>
    obtain hv | ⟨v, -, h⟩ := Library.Fallible.bind_eq_error.mp h
    · exact ⟨rail.voltagePath, hfile hv⟩
    · obtain hc | ⟨c, -, h⟩ := Library.Fallible.bind_eq_error.mp h
      · exact ⟨rail.currentPath, hfile hc⟩
      · cases h

structure JetsonSoCBackend where
  powerRails : List PowerRail
  cumulativeEnergyMj : Map String Double
  prevTs : Double
  /-- Every rail has an accumulator, and there is no other. -/
  mem_cumulative : ∀ key, key ∈ cumulativeEnergyMj ↔ ∃ rail ∈ powerRails, rail.key = key

namespace JetsonSoCBackend

/-! ### Construction -/

/-- `for (rail : power_rails_) cumulative_energy_mj_[rail.key] = 0.0`. -/
def zeroed (rails : List PowerRail) : Map String Double :=
  rails.foldl (fun m rail => m.insert rail.key 0) ∅

theorem mem_zeroed (rails : List PowerRail) (key : String) :
    key ∈ zeroed rails ↔ ∃ rail ∈ rails, rail.key = key := by
  have hloop : ∀ (rails : List PowerRail) (m : Map String Double),
      key ∈ rails.foldl (fun m rail => m.insert rail.key 0) m ↔
        key ∈ m ∨ ∃ rail ∈ rails, rail.key = key := by
    intro rails
    induction rails with
    | nil => simp
    | cons rail rails ih =>
      intro m
      rw [List.foldl_cons, ih, Std.ExtTreeMap.mem_insert, Std.LawfulEqOrd.compare_eq_iff_eq,
        List.exists_mem_cons_iff]
      tauto
  rw [zeroed, hloop, or_iff_right Std.ExtTreeMap.not_mem_empty]

/-- The backend over discovered rails, its polling thread started at `now`. -/
def ofRails (rails : List PowerRail) (now : Double) : JetsonSoCBackend :=
  ⟨rails, zeroed rails, now, mem_zeroed rails⟩

/-- The constructor, from what `is_available` and `discover_power_rails` find. -/
def construct (linux available : Bool) (discovered : List PowerRail) (now : Double) :
    Except Error JetsonSoCBackend := do
  if !linux then
    throw .jetsonRequiresLinux
  if !available then
    throw .jetsonNotDetected
  if discovered.isEmpty then
    throw .noPowerRails
  pure (ofRails discovered now)

/-! ### Queries -/

variable (b : JetsonSoCBackend)

def availableMetrics : Std.ExtTreeSet String :=
  b.powerRails.foldl (fun metrics rail => metrics.insert rail.key) ∅

def snapshotEnergyJ [Rounding] : Map String Double :=
  Library.Map.overwrite (fun _ mj => fl (mj / 1000)) ∅ b.cumulativeEnergyMj

def computeEnergyDeltaJ [Rounding] (startSnap : Map String Double) : Map String Double :=
  Library.Map.overwrite (fun key endE => fl (endE - startSnap[key]?.getD 0)) ∅ b.snapshotEnergyJ

def getInstantPowerW [Rounding] (sysfs : Sysfs) (metric : String) : Except Error Double :=
  match b.powerRails.find? fun rail => rail.key == metric with
  | none => .error (.jetsonUnknownMetric metric)
  | some rail => do
    let powerMw ← rail.readPowerMw sysfs
    pure (fl (powerMw / 1000))

/-! The metrics, the snapshot and the instant query know the same keys: those of the rails. -/

theorem mem_availableMetrics (key : String) :
    key ∈ b.availableMetrics ↔ ∃ rail ∈ b.powerRails, rail.key = key := by
  have hloop : ∀ (rails : List PowerRail) (metrics : Std.ExtTreeSet String),
      key ∈ rails.foldl (fun metrics rail => metrics.insert rail.key) metrics ↔
        key ∈ metrics ∨ ∃ rail ∈ rails, rail.key = key := by
    intro rails
    induction rails with
    | nil => simp
    | cons rail rails ih =>
      intro metrics
      rw [List.foldl_cons, ih, Std.ExtTreeSet.mem_insert, Std.LawfulEqOrd.compare_eq_iff_eq,
        List.exists_mem_cons_iff, or_comm (a := rail.key = key), or_assoc]
  rw [availableMetrics, hloop, or_iff_right Std.ExtTreeSet.not_mem_empty]

theorem mem_snapshotEnergyJ [Rounding] (key : String) :
    key ∈ b.snapshotEnergyJ ↔ ∃ rail ∈ b.powerRails, rail.key = key := by
  rw [snapshotEnergyJ, Library.Map.mem_overwrite, or_iff_left Std.ExtTreeMap.not_mem_empty,
    b.mem_cumulative]

theorem mem_computeEnergyDeltaJ [Rounding] (startSnap : Map String Double) (key : String) :
    key ∈ b.computeEnergyDeltaJ startSnap ↔ ∃ rail ∈ b.powerRails, rail.key = key := by
  rw [computeEnergyDeltaJ, Library.Map.mem_overwrite, or_iff_left Std.ExtTreeMap.not_mem_empty,
    b.mem_snapshotEnergyJ]

/-- A query for a listed metric fails, if it does, at a file. -/
theorem getInstantPowerW_error [Rounding] {sysfs : Sysfs} {metric : String} (hmetric : metric ∈ b.availableMetrics)
    {e : Error} (h : b.getInstantPowerW sysfs metric = .error e) : ∃ path, e = .cannotReadSysfs path := by
  obtain ⟨rail, hrail, hkey⟩ := (b.mem_availableMetrics metric).mp hmetric
  unfold getInstantPowerW at h
  split at h
  next hnone =>
    have hdiffers := List.find?_eq_none.mp hnone rail hrail
    simp [hkey] at hdiffers
  next found hfound =>
    obtain hread | ⟨powerMw, -, h⟩ := Library.Fallible.bind_eq_error.mp h
    · exact PowerRail.readPowerMw_error hread
    · cases h

/-! ### Polling -/

/-- One rail of a round: `cumulative_energy_mj_[rail.key] += power_mw * dt`, or nothing
if the read throws. -/
def accumulate [Rounding] (dt : Double) (sysfs : ℕ → Sysfs) (cumulative : Map String Double)
    (turn : PowerRail × ℕ) : Map String Double :=
  let (rail, n) := turn
  match rail.readPowerMw (sysfs n) with
  | .error _ => cumulative
  | .ok powerMw =>
    cumulative.insert rail.key (fl (cumulative[rail.key]?.getD 0 + fl (powerMw * dt)))

/-- A rail with an accumulator leaves the keys as they are. -/
theorem mem_accumulate [Rounding] (dt : Double) (sysfs : ℕ → Sysfs) {cumulative : Map String Double}
    {turn : PowerRail × ℕ} (h : turn.1.key ∈ cumulative) (key : String) :
    key ∈ accumulate dt sysfs cumulative turn ↔ key ∈ cumulative := by
  unfold accumulate
  dsimp only
  split
  · rfl
  · rw [Std.ExtTreeMap.mem_insert, Std.LawfulEqOrd.compare_eq_iff_eq]
    constructor
    · intro hk
      rcases hk with rfl | hk
      · exact h
      · exact hk
    · exact Or.inr

theorem mem_foldl_accumulate [Rounding] (dt : Double) (sysfs : ℕ → Sysfs) (turns : List (PowerRail × ℕ))
    {cumulative : Map String Double} (h : ∀ turn ∈ turns, turn.1.key ∈ cumulative) (key : String) :
    key ∈ turns.foldl (accumulate dt sysfs) cumulative ↔ key ∈ cumulative := by
  induction turns generalizing cumulative with
  | nil => rfl
  | cons turn turns ih =>
    have hturn := mem_accumulate dt sysfs (h turn List.mem_cons_self)
    rw [List.foldl_cons, ih fun t ht => (hturn _).mpr (h t (List.mem_cons_of_mem _ ht)), hturn]

/-- A round at `now`. The time since the previous round is taken, and `prevTs` moved,
before any rail is read. -/
def pollRound [Rounding] (now : Double) (sysfs : ℕ → Sysfs) : JetsonSoCBackend :=
  let dt := fl (now - b.prevTs)
  { b with
    prevTs := now
    cumulativeEnergyMj := b.powerRails.zipIdx.foldl (accumulate dt sysfs) b.cumulativeEnergyMj
    mem_cumulative := by
      intro key
      rw [mem_foldl_accumulate dt sysfs _ _ key, b.mem_cumulative]
      intro turn hturn
      have hrail : turn.1 ∈ b.powerRails := List.mem_of_getElem? (List.mem_zipIdx_iff_getElem?.mp hturn)
      exact (b.mem_cumulative _).mpr ⟨turn.1, hrail, rfl⟩ }

end JetsonSoCBackend

end ZeusPower.Device
