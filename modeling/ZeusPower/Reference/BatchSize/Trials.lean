import Mathlib.Data.List.Range
import ZeusPower.Library.OrderedMap
import ZeusPower.Reference.Selectors

/-! Jobs and trials of the batch size optimizer (`zeus/optimizer/batch_size/common.py`,
`server/database/schema.py`, and the models in `server/job` and
`server/batch_size_state`).

A job is trained again and again; each training is a trial with a batch size that the
server has chosen. Rows of one job are kept together: the foreign keys of the tables tie
them to it, and deleting a job deletes them.

Random numbers come from outside (`Draws`), so neither the seed's generator state nor the
generator itself is here; nor are the time stamps. -/
namespace ZeusPower.Reference.BatchSize

/-! ### Errors -/

/-- What a request can raise; the last is any exception that is not the server's own. -/
inductive BsoError where
  | jobConfigMismatch (message : String)
  | value (message : String)
  | serverNotFound (message : String)
  | serviceBadOperation (message : String)
  | serverRuntime (message : String)
  | exception (name : String)
  deriving DecidableEq, Repr

/-- What the server takes from its libraries: `np.sum`, whatever the order it adds in, and
`repr` of a float and of a string. -/
class Python [Rounding] where
  sum : List Double → Double
  reprFloat : Double → String
  reprStr : String → String
  sum_eq : Exact → ∀ l, sum l = l.sum

/-! ### Jobs -/

structure JobParams where
  jobId : String
  jobIdPrefix : String
  batchSizes : List Int
  defaultBatchSize : Int
  etaKnob : Double := 1 / 2
  betaKnob : Option Double := some 2
  targetMetric : Double := 1 / 2
  higherIsBetterMetric : Bool := true
  maxEpochs : Int := 100
  numPruningRounds : ℕ := 2
  windowSize : Int := 0
  mabPriorMean : Double := 0
  mabPriorPrecision : Double := 0
  mabNumExplorations : ℕ := 2
  mabSeed : Option Int := none
  deriving DecidableEq

structure GpuConfig where
  maxPower : Double
  numberOfGpus : Int
  gpuModel : String
  deriving DecidableEq

/-- What a client registers; pydantic builds no other. -/
structure JobSpec extends JobParams, GpuConfig where
  prefixed : jobId.startsWith jobIdPrefix = true := by decide +kernel
  sorted : batchSizes.Pairwise (· ≤ ·) := by decide
  default_pos : 0 < defaultBatchSize := by decide
  default_mem : defaultBatchSize ∈ batchSizes := by decide
  etaKnob_nonneg : 0 ≤ etaKnob := by decide +kernel
  etaKnob_le_one : etaKnob ≤ 1 := by decide +kernel
  betaKnob_pos : ∀ beta ∈ betaKnob, 0 < beta := by decide +kernel
  maxEpochs_pos : 0 < maxEpochs := by decide
  maxPower_pos : 0 < maxPower := by decide +kernel
  numberOfGpus_pos : 0 < numberOfGpus := by decide
  gpuModel_ne : gpuModel ≠ "" := by decide
  deriving DecidableEq

inductive Stage where
  | pruning
  | mab
  deriving DecidableEq, Repr

structure JobState where
  spec : JobSpec
  minCost : Option Double
  minCostBatchSize : Int
  stage : Stage
  /-- A batch size is the key of its row. -/
  distinct : spec.batchSizes.Nodup

/-- `zeus_cost` with the job's knob and power. -/
def JobState.cost [Rounding] (job : JobState) (energy time : Double) : Double :=
  zeusCost energy time job.spec.etaKnob job.spec.maxPower

/-- Less than the least cost so far; no cost so far is `inf`. -/
def below (cost : Double) : Option Double → Bool
  | none => true
  | some minCost => cost < minCost

/-! ### Trials -/

inductive TrialType where
  | exploration
  | concurrent
  | mab
  deriving DecidableEq, Repr

/-- The columns `time`, `energy` and `converged` are set exactly where a trial succeeded. -/
inductive TrialStatus where
  | dispatched
  | succeeded (time energy : Double) (converged : Bool)
  | failed
  deriving DecidableEq, Repr

structure Trial where
  batchSize : Int
  trialNumber : ℕ
  type : TrialType
  status : TrialStatus
  deriving DecidableEq, Repr

def Trial.isSucceeded (t : Trial) : Bool :=
  match t.status with
  | .succeeded .. => true
  | _ => false

/-- The trials of a job, in the order of their numbers. -/
structure Trials where
  rows : List Trial
  numbered : rows.map (·.trialNumber) = List.range' 1 rows.length

namespace Trials

def empty : Trials := ⟨[], rfl⟩

section Table
variable (trials : Trials)

/-- `max(trial_number) + 1`, and 1 for the first. -/
def getNextTrialNumber : ℕ :=
  match (trials.rows.map (·.trialNumber)).max? with
  | none => 1
  | some number => number + 1

theorem getNextTrialNumber_eq : trials.getNextTrialNumber = trials.rows.length + 1 := by
  unfold getNextTrialNumber
  rw [trials.numbered]
  cases hrows : trials.rows.length with
  | zero => rfl
  | succ n =>
    have hmax : (List.range' 1 (n + 1)).max? = some (n + 1) := by
      rw [List.max?_eq_some_iff]
      refine ⟨?_, fun b hb => ?_⟩
      · rw [List.mem_range'_1]
        omega
      · rw [List.mem_range'_1] at hb
        omega
    rw [hmax]

def createTrial (batchSize : Int) (type : TrialType) : Trials where
  rows := trials.rows ++ [⟨batchSize, trials.getNextTrialNumber, type, .dispatched⟩]
  numbered := by
    rw [List.map_append, trials.numbered, List.length_append, List.map_singleton, List.length_singleton,
      List.range'_concat, trials.getNextTrialNumber_eq, Nat.one_mul, Nat.add_comm 1]

def getTrial (batchSize : Int) (trialNumber : ℕ) : Option Trial :=
  trials.rows.find? fun t => t.batchSize == batchSize && t.trialNumber == trialNumber

/-- The row with that number. -/
def updateTrial (trialNumber : ℕ) (status : TrialStatus) : Trials where
  rows := trials.rows.map fun t => if t.trialNumber = trialNumber then { t with status } else t
  numbered := by
    rw [List.map_map, List.length_map, ← trials.numbered]
    refine List.map_congr_left fun t _ => ?_
    show (if t.trialNumber = trialNumber then { t with status } else t).trialNumber = t.trialNumber
    split <;> rfl

/-- The explorations that have not failed. -/
def getExplorationsOfJob : List Trial :=
  trials.rows.filter fun t => t.type = .exploration ∧ t.status ≠ .failed

/-- The results of a batch size, the latest first; at most `windowSize` where it is positive. -/
def getTrialResultsOfBs (batchSize windowSize : Int) : List (Double × Double) :=
  let results := (trials.rows.filter (·.batchSize = batchSize)).reverse.filterMap fun t =>
    match t.status with
    | .succeeded time energy _ => some (time, energy)
    | _ => none
  if 0 < windowSize then results.take windowSize.toNat else results

end Table

theorem createTrial_rows (trials : Trials) (batchSize : Int) (type : TrialType) :
    (trials.createTrial batchSize type).rows =
      trials.rows ++ [⟨batchSize, trials.rows.length + 1, type, .dispatched⟩] := by
  show trials.rows ++ [⟨batchSize, trials.getNextTrialNumber, type, .dispatched⟩] = _
  rw [trials.getNextTrialNumber_eq]

theorem getTrial_some {trials : Trials} {batchSize : Int} {trialNumber : ℕ} {t : Trial}
    (h : trials.getTrial batchSize trialNumber = some t) :
    t ∈ trials.rows ∧ t.batchSize = batchSize ∧ t.trialNumber = trialNumber := by
  have hsame := List.find?_some h
  rw [Bool.and_eq_true, beq_iff_eq, beq_iff_eq] at hsame
  exact ⟨List.mem_of_find?_eq_some h, hsame⟩

end Trials

/-! ### Arms -/

/-- A precision, or `np.inf`. -/
inductive Precision where
  | finite (value : Double)
  | inf
  deriving DecidableEq, Repr

structure GaussianTsArmState where
  batchSize : Int
  paramMean : Double
  paramPrecision : Precision
  rewardPrecision : Precision
  numObservations : ℕ
  deriving DecidableEq, Repr

/-- What the generator of one request draws: all of a list in some order, and a sample
around the mean of an arm. -/
structure Draws where
  choice : List Int → List Int
  normal : GaussianTsArmState → Double
  choice_perm : ∀ choices, (choice choices).Perm choices

/-- A job with its rows. -/
structure JobRecord where
  job : JobState
  trials : Trials
  arms : List GaussianTsArmState

end ZeusPower.Reference.BatchSize
