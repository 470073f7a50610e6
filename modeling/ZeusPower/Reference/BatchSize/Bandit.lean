import Mathlib.Algebra.BigOperators.Group.List.Basic
import ZeusPower.Library.Fallible
import ZeusPower.Reference.BatchSize.Trials

/-! Thompson sampling over the batch sizes that pruning has left (`GaussianTS` in
`server/mab.py`).

An arm is a batch size with the belief about its reward, the negated cost of a training.
Arms are made once, from the explorations, and fitted again whenever a training of theirs
is reported. -/
namespace ZeusPower.Reference.BatchSize
open Library

/-- `rewards.mean()`. -/
def mean [Rounding] [Python] (rewards : List Double) : Double := fl (Python.sum rewards / rewards.length)

/-- `np.var`. -/
def variance [Rounding] [Python] (rewards : List Double) : Double :=
  mean (rewards.map fun r => fl (fl (r - mean rewards) * fl (r - mean rewards)))

namespace GaussianTS

/-- The belief about one arm. -/
def fitArm [Rounding] [Python] (batchSize : Int) (priorMean priorPrecision : Double) (rewards : List Double) :
    Except BsoError GaussianTsArmState :=
  if rewards.isEmpty then
    .error (.value "No rewards to fit the arm.")
  else if variance rewards = 0 then
    .ok ⟨batchSize, mean rewards, .inf, .inf, rewards.length⟩
  else
    let rewardPrec := fl (1 / variance rewards)
    let newPrec := fl (priorPrecision + fl (rewards.length * rewardPrec))
    let newMean := fl (fl (fl (priorPrecision * priorMean) + fl (rewardPrec * Python.sum rewards)) / newPrec)
    .ok ⟨batchSize, newMean, .finite newPrec, .finite rewardPrec, rewards.length⟩

/-- The first of the choices that has been observed too little. -/
def coldArm (numExploration : ℕ) (arms : List GaussianTsArmState) : List Int → Except BsoError (Option Int)
  | [] => .ok none
  | bs :: choices =>
    -- `arm_dict` keeps the last arm of a key.
    match arms.reverse.find? fun arm => arm.batchSize == bs with
    | none => .error (.exception "KeyError")
    | some arm => if arm.numObservations < numExploration then .ok (some bs) else coldArm numExploration arms choices

/-- The arm with the largest sample; the first of equals. -/
def predict (draws : Draws) (numExploration : ℕ) (arms : List GaussianTsArmState) : Except BsoError Int := do
  match ← coldArm numExploration arms (draws.choice (arms.map (·.batchSize))) with
  | some bs => pure bs
  | none =>
    match arms.argmax draws.normal with
    | none => throw (.exception "ValueError")
    | some arm => pure arm.batchSize

/-- The rewards of a batch size's explorations. -/
def rewardsOf [Rounding] (job : JobState) (explorations : List Trial) : Except BsoError (List Double) :=
  explorations.mapM fun t =>
    match t.status with
    | .succeeded time energy _ => .ok (-job.cost energy time)
    | _ => .error (.value s!"Trial {t.trialNumber} has no energy or time set.")

/-- An arm a good batch size; a batch size that was never explored is missing in the evidence. -/
def constructArm [Rounding] [Python] (job : JobState) (evidence : List Trial) (bs : Int) :
    Except BsoError GaussianTsArmState :=
  let explorations := evidence.filter (·.batchSize = bs)
  if explorations.isEmpty then
    .error (.exception "KeyError")
  else do
    let rewards ← rewardsOf job explorations
    fitArm bs job.spec.mabPriorMean job.spec.mabPriorPrecision rewards

/-- The arms of the good batch sizes; the job is in its last stage from then on. -/
def constructMab [Rounding] [Python] (job : JobState) (evidence : List Trial) (goodBs : List Int) :
    Except BsoError (List GaussianTsArmState) :=
  if goodBs.isEmpty then
    .error (.value "While creating arms, no batch size is selected")
  else goodBs.mapM (constructArm job evidence)

/-- The rewards of a batch size in the window, with one more result. -/
def armRewards [Rounding] (record : JobRecord) (trial : Trial) (time energy : Double) : List Double :=
  let job := record.job
  let history := record.trials.getTrialResultsOfBs trial.batchSize job.spec.windowSize
  -- A full window makes room for the new result.
  let results :=
    if job.spec.windowSize ≤ history.length ∧ 0 < job.spec.windowSize then history.dropLast.reverse else history
  results.map (fun m => -job.cost m.2 m.1) ++ [-job.cost energy time]

/-- The arm of a batch size after one more result. -/
def report [Rounding] [Python] (record : JobRecord) (trial : Trial) (time energy : Double) :
    Except BsoError (List GaussianTsArmState) :=
  if record.arms.all (·.batchSize != trial.batchSize) then
    .error (.value s!"MAB stage but Arm for batch size({trial.batchSize}) is not found.")
  else do
    let newArm ← fitArm trial.batchSize record.job.spec.mabPriorMean record.job.spec.mabPriorPrecision
      (armRewards record trial time energy)
    if trial.type = .mab then
      .ok (record.arms.map fun arm => if arm.batchSize = trial.batchSize then newArm else arm)
    else
      .error (.serviceBadOperation "Cannot update an arm since this trial is not issued from MAB stage.")

/-! ### What is returned -/

section Returned
variable {job : JobState} {record : JobRecord} {arms : List GaussianTsArmState} {arm : GaussianTsArmState}
  {batchSize : Int}

theorem fitArm_batchSize [Rounding] [Python] {priorMean priorPrecision : Double} {rewards : List Double}
    (h : fitArm batchSize priorMean priorPrecision rewards = .ok arm) : arm.batchSize = batchSize := by
  unfold fitArm at h
  split at h
  · cases h
  · split at h
    · obtain rfl := Except.ok.inj h
      rfl
    · obtain rfl := Except.ok.inj h
      rfl

theorem constructArm_ok [Rounding] [Python] {evidence : List Trial}
    (h : constructArm job evidence batchSize = .ok arm) :
    ∃ rewards, rewardsOf job (evidence.filter (·.batchSize = batchSize)) = .ok rewards ∧
      fitArm batchSize job.spec.mabPriorMean job.spec.mabPriorPrecision rewards = .ok arm := by
  unfold constructArm at h
  dsimp only at h
  split at h
  · cases h
  · exact Fallible.bind_eq_ok.mp h

theorem constructMab_ok [Rounding] [Python] {evidence : List Trial} {goodBs : List Int}
    (h : constructMab job evidence goodBs = .ok arms) :
    List.Forall₂ (fun bs arm => constructArm job evidence bs = .ok arm) goodBs arms := by
  unfold constructMab at h
  split at h
  · cases h
  · exact Fallible.mapM_eq_ok.mp h

/-- One arm a good batch size. -/
theorem constructMab_batchSizes [Rounding] [Python] {evidence : List Trial} {goodBs : List Int}
    (h : constructMab job evidence goodBs = .ok arms) : arms.map (·.batchSize) = goodBs := by
  have harms : List.Forall₂ (fun bs arm => bs = arm.batchSize) goodBs arms :=
    (constructMab_ok h).imp fun bs arm harm => by
      obtain ⟨rewards, -, hfit⟩ := constructArm_ok harm
      exact (fitArm_batchSize hfit).symm
  rw [← List.forall₂_map_right_iff, List.forall₂_eq_eq_eq] at harms
  exact harms.symm

/-- The arms after a report: one is fitted again, for a trial of the bandit's own. -/
theorem report_ok [Rounding] [Python] {trial : Trial} {time energy : Double}
    (h : report record trial time energy = .ok arms) :
    trial.type = .mab ∧ ∃ newArm : GaussianTsArmState,
      fitArm trial.batchSize record.job.spec.mabPriorMean record.job.spec.mabPriorPrecision
        (armRewards record trial time energy) = .ok newArm ∧
      arms = record.arms.map fun arm => if arm.batchSize = trial.batchSize then newArm else arm := by
  unfold report at h
  split at h
  · cases h
  · obtain ⟨newArm, hfit, h⟩ := Fallible.bind_eq_ok.mp h
    split at h
    · next htype => exact ⟨htype, newArm, hfit, (Except.ok.inj h).symm⟩
    · cases h

theorem report_batchSizes [Rounding] [Python] {trial : Trial} {time energy : Double}
    (h : report record trial time energy = .ok arms) :
    arms.map (·.batchSize) = record.arms.map (·.batchSize) := by
  obtain ⟨-, newArm, hfit, rfl⟩ := report_ok h
  rw [List.map_map]
  refine List.map_congr_left fun arm _ => ?_
  show (if arm.batchSize = trial.batchSize then newArm else arm).batchSize = arm.batchSize
  split
  · next heq => rw [fitArm_batchSize hfit, heq]
  · rfl

theorem coldArm_mem {numExploration : ℕ} {choices : List Int}
    (h : coldArm numExploration arms choices = .ok (some batchSize)) : batchSize ∈ choices := by
  induction choices with
  | nil => cases h
  | cons bs choices ih =>
    rw [coldArm] at h
    split at h
    · cases h
    · split at h
      · obtain rfl := Option.some.inj (Except.ok.inj h)
        exact List.mem_cons_self
      · exact List.mem_cons_of_mem _ (ih h)

/-- The batch size of an arm. -/
theorem predict_mem {draws : Draws} {numExploration : ℕ} (h : predict draws numExploration arms = .ok batchSize) :
    batchSize ∈ arms.map (·.batchSize) := by
  obtain ⟨cold, hcold, h⟩ := Fallible.bind_eq_ok.mp h
  cases cold with
  | some bs =>
    obtain rfl := Except.ok.inj h
    exact (draws.choice_perm _).mem_iff.mp (coldArm_mem hcold)
  | none =>
    cases hbest : arms.argmax draws.normal with
    | none =>
      rw [hbest] at h
      cases h
    | some arm =>
      rw [hbest] at h
      obtain rfl := Except.ok.inj h
      exact List.mem_map_of_mem (List.argmax_mem hbest)

end Returned

end GaussianTS

end ZeusPower.Reference.BatchSize
