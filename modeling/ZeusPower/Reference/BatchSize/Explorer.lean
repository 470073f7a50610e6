import Mathlib.Data.List.Sort
import ZeusPower.Reference.BatchSize.Trials

/-! The pruning stage (`PruningExploreManager` in `server/explorer.py`).

A round trains the batch sizes that converged in the round before: from the cheapest of
them downwards, then upwards, each way until one does not converge. The explorer keeps no
place: whenever a batch size is asked for, it goes through all rounds again, reads in the
history what each training came to, and stops at the first one that is missing. -/
namespace ZeusPower.Reference.BatchSize

/-- The trial to create, or the batch sizes that are left for the bandit. -/
inductive NextBatchSize where
  | createTrial (type : TrialType) (batchSize : Int)
  | goodBatchSizes (batchSizes : List Int)
  deriving DecidableEq, Repr

/-- What a round has found so far; no cost yet is `inf`. -/
structure RoundState where
  convergedBsList : List Int
  minCostOfRound : Option Double
  minBatchSizeOfRound : Int

namespace PruningExploreManager

/-- A list of batch sizes is left for the next one, or a trial is to be created. -/
inductive Explored where
  | createTrial (type : TrialType) (batchSize : Int)
  | finished (found : RoundState)

def RoundState.start : RoundState := ⟨[], none, 0⟩

/-- A batch size has converged at a cost. -/
def RoundState.converged (found : RoundState) (batchSize : Int) (cost : Double) : RoundState :=
  if below cost found.minCostOfRound then
    ⟨found.convergedBsList ++ [batchSize], some cost, batchSize⟩
  else { found with convergedBsList := found.convergedBsList ++ [batchSize] }

section Explore
variable (job : JobState) (history : Int → List Trial)

/-- One list of a round. -/
def exploreList [Rounding] (round : ℕ) (found : RoundState) : List Int → Explored
  | [] => .finished found
  | bs :: rest =>
    match (history bs)[round]? with
    | none => .createTrial .exploration bs
    | some t =>
      match t.status with
      | .dispatched => .createTrial .concurrent job.minCostBatchSize
      | .succeeded time energy true =>
        exploreList round (RoundState.converged found bs (job.cost energy time)) rest
      | .succeeded _ _ false => .finished found
      | .failed => .finished found

/-- Downwards from the default, the default included. -/
def down (batchSizes : List Int) (idx : ℕ) : List Int :=
  (batchSizes.take (idx + 1)).insertionSort (· ≥ ·)

def up (batchSizes : List Int) (idx : ℕ) : List Int :=
  (batchSizes.drop (idx + 1)).insertionSort (· ≤ ·)

def exploreRound [Rounding] (round : ℕ) (batchSizes : List Int) (expDefaultBs : Int) : Except BsoError Explored :=
  let batchSizes := batchSizes.insertionSort (· ≤ ·)
  match batchSizes.idxOf? expDefaultBs with
  | none => .error (.exception "ValueError")
  | some idx =>
    match exploreList job history round RoundState.start (down batchSizes idx) with
    | .createTrial type bs => .ok (.createTrial type bs)
    | .finished found => .ok (exploreList job history round found (up batchSizes idx))

/-- `for round in range(..)`, with the rounds that are left. -/
def exploreRounds [Rounding] : List ℕ → List Int → Int → Except BsoError NextBatchSize
  | [], batchSizes, _ => .ok (.goodBatchSizes (batchSizes.insertionSort (· ≤ ·)))
  | round :: rounds, batchSizes, expDefaultBs => do
    match ← exploreRound job history round batchSizes expDefaultBs with
    | .createTrial type bs => pure (.createTrial type bs)
    | .finished found =>
      if found.convergedBsList.isEmpty then
        .error (.serverRuntime
          "No converged batch sizes has observed. Reconfigure batch_sizes and re-launch the job.")
      else exploreRounds rounds found.convergedBsList found.minBatchSizeOfRound

end Explore

/-- The explorations of one batch size. -/
def explorationsPerBs (explorations : List Trial) (batchSize : Int) : List Trial :=
  explorations.filter (·.batchSize = batchSize)

def nextBatchSize [Rounding] (job : JobState) (explorations : List Trial) : Except BsoError NextBatchSize :=
  exploreRounds job (explorationsPerBs explorations) (List.range job.spec.numPruningRounds)
    job.spec.batchSizes job.spec.defaultBatchSize

end PruningExploreManager

end ZeusPower.Reference.BatchSize
