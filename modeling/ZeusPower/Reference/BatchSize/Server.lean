import Mathlib.Logic.Relation
import ZeusPower.Library.Fallible
import ZeusPower.Library.Machine
import ZeusPower.Reference.BatchSize.Bandit
import ZeusPower.Reference.BatchSize.Explorer

/-! The server of the batch size optimizer (`ZeusBatchSizeOptimizer` in
`server/optimizer.py`, `ZeusService`, and the endpoints in `server/router.py`).

A client registers a job, asks for a batch size, reports after every epoch of its
training, and says when it ends. Requests come in any order and from any clients, and a
request that raises is rolled back. Here each is one step; its endpoint takes the lock of the
job and then takes its time, which comes to the same (`Sessions.served_in_turn`) as long as
no delete leaves others waiting. What a request can do to the rows of its job is said once,
in `Touched`. -/
namespace ZeusPower.Reference.BatchSize
open Library

/-! ### Requests -/

structure TrialId where
  batchSize : Int
  trialNumber : Int
  deriving DecidableEq, Repr

/-- Time and energy so far, and the metric after the current epoch. -/
structure TrainingResult extends TrialId where
  time : Double
  energy : Double
  metric : Double
  currentEpoch : Int

section Text
variable [Rounding] [Python]

/-- `str(trial_id)`; the job is the one the request names. -/
def TrialId.text (id : TrialId) (jobId : String) : String :=
  s!"job_id={Python.reprStr jobId} batch_size={id.batchSize} trial_number={id.trialNumber}"

/-- `str(result)`. -/
def TrainingResult.text (result : TrainingResult) (jobId : String) : String :=
  result.toTrialId.text jobId ++
    s!" time={Python.reprFloat result.time} energy={Python.reprFloat result.energy}" ++
    s!" metric={Python.reprFloat result.metric} current_epoch={result.currentEpoch}"

/-- A float of a job that may not be set. -/
def optionalText (value : Option Double) : String := (value.map Python.reprFloat).getD "None"

end Text

structure ReportResponse where
  stopTrain : Bool
  converged : Bool
  message : String
  deriving DecidableEq, Repr

/-! ### What is done to the rows of a job -/

namespace JobRecord
variable (record : JobRecord)

/-- `create_trial`; the command refuses a batch size that is not positive. -/
def createTrial (type : TrialType) (batchSize : Int) : Except BsoError (TrialId × JobRecord) :=
  if batchSize ≤ 0 then .error (.exception "ValidationError")
  else
    .ok (⟨batchSize, record.trials.getNextTrialNumber⟩,
      { record with trials := record.trials.createTrial batchSize type })

/-- `update_trial`: the result of a trial, and the least cost. -/
def updateTrial [Rounding] (trial : Trial) (status : TrialStatus) : Except BsoError JobRecord :=
  if trial.status ≠ .dispatched then .error (.serviceBadOperation "Trial already has a result.")
  else
    let record := { record with trials := record.trials.updateTrial trial.trialNumber status }
    match status with
    | .succeeded time energy _ =>
      let curCost := record.job.cost energy time
      if below curCost record.job.minCost then
        if curCost < 0 then .error (.exception "ValidationError")
        else .ok { record with job :=
          { record.job with minCost := some curCost, minCostBatchSize := trial.batchSize } }
      else .ok record
    | _ => .ok record

def predict [Rounding] [Python] (draws : Draws) : Except BsoError (TrialId × JobRecord) :=
  let job := record.job
  match job.stage with
  | .mab => do
    let batchSize ← GaussianTS.predict draws job.spec.mabNumExplorations record.arms
    record.createTrial .mab batchSize
  | .pruning => do
    let explorations := record.trials.getExplorationsOfJob
    match ← PruningExploreManager.nextBatchSize job explorations with
    | .createTrial type batchSize => record.createTrial type batchSize
    | .goodBatchSizes goodBs => do
      let arms ← GaussianTS.constructMab job explorations goodBs
      let batchSize ← GaussianTS.predict draws job.spec.mabNumExplorations arms
      { record with job := { job with stage := .mab }, arms }.createTrial .mab batchSize

/-- The cost is within `beta_knob` times the least cost so far. -/
def withinCostRange [Rounding] (cost : Double) : Bool :=
  match record.job.spec.betaKnob, record.job.minCost with
  | some beta, some minCost => cost ≤ fl (beta * minCost)
  | _, _ => true

/-- The target metric is reached. -/
def reached (metric : Double) : Bool :=
  if record.job.spec.higherIsBetterMetric then record.job.spec.targetMetric ≤ metric
  else metric ≤ record.job.spec.targetMetric

/-- The training is over. -/
def endTraining [Rounding] [Python] (trial : Trial) (result : TrainingResult) (converged : Bool) :
    Except BsoError JobRecord :=
  if result.time < 0 ∨ result.energy < 0 then .error (.exception "ValidationError")
  else
    let status := TrialStatus.succeeded result.time result.energy converged
    match record.job.stage with
    | .mab => do
      let arms ← GaussianTS.report record trial result.time result.energy
      { record with arms }.updateTrial trial status
    | .pruning => record.updateTrial trial status

/-- The text of a report that ends a training. -/
def message [Rounding] [Python] (result : TrainingResult) (converged within : Bool)
    (reportedCost : Double) : String :=
  if converged && within then "Train succeeded"
  else if !within then
    s!"Batch Size({result.batchSize}) exceeded the cost upper bound: current cost({Python.reprFloat reportedCost}) >" ++
      s!"\n                    beta_knob({optionalText record.job.spec.betaKnob})*min_cost({optionalText record.job.minCost})"
  else s!"Train failed to converge within max_epoch({record.job.spec.maxEpochs})"

def report [Rounding] [Python] (jobId : String) (result : TrainingResult) :
    Except BsoError (ReportResponse × JobRecord) :=
  if result.batchSize ≤ 0 ∨ result.trialNumber ≤ 0 then .error (.exception "ValidationError")
  else
    match record.trials.getTrial result.batchSize result.trialNumber.toNat with
    | none => .error (.serviceBadOperation s!"Unknown trial {result.text jobId}")
    | some trial =>
      match trial.status with
      | .failed =>
        .error (.value s!"Trial({trial.trialNumber}) is already reported but converged is not set.")
      | .succeeded _ _ converged =>
        .ok (⟨true, converged, s!"Result for this trial({trial.trialNumber}) is already reported."⟩, record)
      | .dispatched =>
        let job := record.job
        let reportedCost := job.cost result.energy result.time
        let within := record.withinCostRange reportedCost
        let converged := record.reached result.metric
        if within && decide (result.currentEpoch < job.spec.maxEpochs) && !converged then
          .ok (⟨false, false, "Stop condition not met, keep training"⟩, record)
        else
          (record.endTraining trial result (converged && within)).map fun ended =>
            (⟨true, converged && within, record.message result converged within reportedCost⟩, ended)

/-- A training that ends without a result has failed. -/
def endTrial [Rounding] [Python] (jobId : String) (id : TrialId) : Except BsoError JobRecord :=
  match record.trials.getTrial id.batchSize id.trialNumber.toNat with
  | none => .error (.serverNotFound s!"Could not find the trial: {id.text jobId}")
  | some trial =>
    match trial.status with
    | .dispatched => record.updateTrial trial .failed
    | _ => .ok record

end JobRecord

/-! ### The database -/

abbrev Database := Map String JobRecord

/-- The row of a new job; two rows of one batch size are refused. -/
def createJob (spec : JobSpec) : Except BsoError JobRecord :=
  if distinct : spec.batchSizes.Nodup then
    .ok ⟨⟨spec, none, spec.defaultBatchSize, .pruning, distinct⟩, .empty, []⟩
  else .error (.exception "IntegrityError")

theorem createJob_ok {spec : JobSpec} {record : JobRecord} (h : createJob spec = .ok record) :
    ∃ distinct, record = ⟨⟨spec, none, spec.defaultBatchSize, .pruning, distinct⟩, .empty, []⟩ := by
  unfold createJob at h
  split at h
  · next distinct => exact ⟨distinct, (Except.ok.inj h).symm⟩
  · cases h

inductive Request where
  | registerJob (spec : JobSpec)
  | deleteJob (jobId : String)
  | predict (jobId : String) (draws : Draws)
  | report (jobId : String) (result : TrainingResult)
  | endTrial (jobId : String) (id : TrialId)

inductive Response where
  | registered (created : Bool)
  | deleted
  | trial (id : TrialId)
  | report (response : ReportResponse)
  | ended
  | error (e : BsoError)
  deriving DecidableEq, Repr

namespace Database

/-- A request on one job: it is committed, or rolled back. -/
def transact {α : Type} (db : Database) (jobId : String) (unknown : BsoError)
    (body : JobRecord → Except BsoError (α × JobRecord)) : Except BsoError α × Database :=
  match db[jobId]? with
  | none => (.error unknown, db)
  | some record =>
    match body record with
    | .error e => (.error e, db)
    | .ok (answer, record) => (.ok answer, db.insert jobId record)

def registerJob (db : Database) (spec : JobSpec) : Except BsoError Bool × Database :=
  match db[spec.jobId]? with
  | some record =>
    if record.job.spec ≠ spec then
      (.error (.jobConfigMismatch
        "JobSpec doesn't match with existing jobSpec. Use a new job_id for different configuration"), db)
    else (.ok false, db)
  | none =>
    match createJob spec with
    | .error e => (.error e, db)
    | .ok record => (.ok true, db.insert spec.jobId record)

/-- The identifier is checked before the job is looked for. -/
def endTrial [Rounding] [Python] (db : Database) (jobId : String) (id : TrialId) :
    Except BsoError Unit × Database :=
  if id.batchSize ≤ 0 ∨ id.trialNumber ≤ 0 then (.error (.exception "ValidationError"), db)
  else db.transact jobId (.serverNotFound s!"Could not find the trial: {id.text jobId}")
    fun record => (record.endTrial jobId id).map fun record => ((), record)

def deleteJob (db : Database) (jobId : String) : Except BsoError Unit × Database :=
  match db[jobId]? with
  | none => (.error (.serverNotFound "No job was deleted."), db)
  | some _ => (.ok (), db.erase jobId)

end Database

def Response.ofExcept {α : Type} (answer : α → Response) : Except BsoError α → Response
  | .ok a => answer a
  | .error e => .error e

def step [Rounding] [Python] (db : Database) : Request → Response × Database
  | .registerJob spec => ((db.registerJob spec).map (Response.ofExcept .registered) id)
  | .deleteJob jobId => ((db.deleteJob jobId).map (Response.ofExcept fun _ => .deleted) id)
  | .predict jobId draws =>
    (db.transact jobId (.value s!"Unknown job({jobId}). Please register the job first") (·.predict draws)).map
      (Response.ofExcept .trial) id
  | .report jobId result =>
    (db.transact jobId (.serviceBadOperation s!"Unknown job {jobId}") (·.report jobId result)).map
      (Response.ofExcept .report) id
  | .endTrial jobId trialId => (db.endTrial jobId trialId).map (Response.ofExcept fun _ => .ended) id

def machine [Rounding] [Python] : Machine Database Request Response := ⟨step⟩

/-! ### What a request does -/

namespace JobRecord
variable {record record' : JobRecord}

/-- The rows with the result of a trial. -/
def withResult [Rounding] (record : JobRecord) (trial : Trial) (time energy : Double) (converged : Bool) :
    JobRecord where
  job :=
    if below (record.job.cost energy time) record.job.minCost then
      { record.job with minCost := some (record.job.cost energy time), minCostBatchSize := trial.batchSize }
    else record.job
  trials := record.trials.updateTrial trial.trialNumber (.succeeded time energy converged)
  arms := record.arms

theorem withResult_spec [Rounding] (trial : Trial) (time energy : Double) (converged : Bool) :
    (record.withResult trial time energy converged).job.spec = record.job.spec := by
  unfold withResult
  dsimp only
  split <;> rfl

theorem withResult_stage [Rounding] (trial : Trial) (time energy : Double) (converged : Bool) :
    (record.withResult trial time energy converged).job.stage = record.job.stage := by
  unfold withResult
  dsimp only
  split <;> rfl

/-- What a request that is committed does to the rows of its job. -/
inductive Touched [Rounding] [Python] (record : JobRecord) : JobRecord → Prop where
  | same : Touched record record
  | explored (type : TrialType) (batchSize : Int) (hstage : record.job.stage = .pruning)
      (hnext : PruningExploreManager.nextBatchSize record.job record.trials.getExplorationsOfJob =
        .ok (.createTrial type batchSize)) :
      Touched record { record with trials := record.trials.createTrial batchSize type }
  | started (goodBs : List Int) (arms : List GaussianTsArmState) (draws : Draws) (batchSize : Int)
      (hstage : record.job.stage = .pruning)
      (hnext : PruningExploreManager.nextBatchSize record.job record.trials.getExplorationsOfJob =
        .ok (.goodBatchSizes goodBs))
      (harms : GaussianTS.constructMab record.job record.trials.getExplorationsOfJob goodBs = .ok arms)
      (hpick : GaussianTS.predict draws record.job.spec.mabNumExplorations arms = .ok batchSize) :
      Touched record
        ⟨{ record.job with stage := .mab }, record.trials.createTrial batchSize .mab, arms⟩
  | sampled (draws : Draws) (batchSize : Int) (hstage : record.job.stage = .mab)
      (hpick : GaussianTS.predict draws record.job.spec.mabNumExplorations record.arms = .ok batchSize) :
      Touched record { record with trials := record.trials.createTrial batchSize .mab }
  | ended (trial : Trial) (time energy : Double) (converged : Bool) (hrow : trial ∈ record.trials.rows)
      (hdispatched : trial.status = .dispatched) (hstage : record.job.stage = .pruning) :
      Touched record (record.withResult trial time energy converged)
  | observed (trial : Trial) (time energy : Double) (converged : Bool) (arms : List GaussianTsArmState)
      (hrow : trial ∈ record.trials.rows) (hdispatched : trial.status = .dispatched)
      (hstage : record.job.stage = .mab) (harms : GaussianTS.report record trial time energy = .ok arms) :
      Touched record ({ record with arms }.withResult trial time energy converged)
  | failed (trial : Trial) (hrow : trial ∈ record.trials.rows) (hdispatched : trial.status = .dispatched) :
      Touched record { record with trials := record.trials.updateTrial trial.trialNumber .failed }

theorem createTrial_ok {type : TrialType} {batchSize : Int} {id : TrialId}
    (h : record.createTrial type batchSize = .ok (id, record')) :
    0 < batchSize ∧ id = ⟨batchSize, record.trials.rows.length + 1⟩ ∧
      record' = { record with trials := record.trials.createTrial batchSize type } := by
  unfold createTrial at h
  split at h
  · cases h
  · next hpos =>
    obtain ⟨rfl, rfl⟩ := Prod.mk.inj (Except.ok.inj h)
    rw [record.trials.getNextTrialNumber_eq]
    exact ⟨not_le.mp hpos, rfl, rfl⟩

/-- A batch size that is asked for is the batch size of a new trial. -/
theorem predict_ok [Rounding] [Python] {draws : Draws} {id : TrialId}
    (h : record.predict draws = .ok (id, record')) :
    0 < id.batchSize ∧ id.trialNumber = record.trials.rows.length + 1 ∧ record.Touched record' ∧
      ∃ type, record'.trials = record.trials.createTrial id.batchSize type := by
  unfold predict at h
  cases hstage : record.job.stage with
  | mab =>
    simp only [hstage] at h
    obtain ⟨batchSize, hpick, h⟩ := Fallible.bind_eq_ok.mp h
    obtain ⟨hpos, rfl, rfl⟩ := createTrial_ok h
    exact ⟨hpos, rfl, .sampled draws batchSize hstage hpick, .mab, rfl⟩
  | pruning =>
    simp only [hstage] at h
    obtain ⟨next, hnext, h⟩ := Fallible.bind_eq_ok.mp h
    cases next with
    | createTrial type batchSize =>
      obtain ⟨hpos, rfl, rfl⟩ := createTrial_ok h
      exact ⟨hpos, rfl, .explored type batchSize hstage hnext, type, rfl⟩
    | goodBatchSizes goodBs =>
      obtain ⟨arms, harms, h⟩ := Fallible.bind_eq_ok.mp h
      obtain ⟨batchSize, hpick, h⟩ := Fallible.bind_eq_ok.mp h
      obtain ⟨hpos, rfl, rfl⟩ := createTrial_ok h
      exact ⟨hpos, rfl, .started goodBs arms draws batchSize hstage hnext harms hpick, .mab, rfl⟩

theorem updateTrial_succeeded [Rounding] {trial : Trial} {time energy : Double} {converged : Bool}
    (h : record.updateTrial trial (.succeeded time energy converged) = .ok record') :
    trial.status = .dispatched ∧ record' = record.withResult trial time energy converged := by
  unfold updateTrial at h
  split at h
  · cases h
  · next hstatus =>
    refine ⟨not_not.mp hstatus, ?_⟩
    unfold withResult
    dsimp only at h ⊢
    split at h
    · next hbelow =>
      split at h
      · cases h
      · obtain rfl := Except.ok.inj h
        rw [if_pos hbelow]
    · next hbelow =>
      obtain rfl := Except.ok.inj h
      rw [if_neg hbelow]

theorem updateTrial_failed [Rounding] {trial : Trial} (h : record.updateTrial trial .failed = .ok record') :
    trial.status = .dispatched ∧
      record' = { record with trials := record.trials.updateTrial trial.trialNumber .failed } := by
  unfold updateTrial at h
  split at h
  · cases h
  · next hstatus => exact ⟨not_not.mp hstatus, (Except.ok.inj h).symm⟩

theorem endTraining_ok [Rounding] [Python] {trial : Trial} {result : TrainingResult} {converged : Bool}
    (hrow : trial ∈ record.trials.rows) (hdispatched : trial.status = .dispatched)
    (h : record.endTraining trial result converged = .ok record') : record.Touched record' := by
  unfold endTraining at h
  split at h
  · cases h
  cases hstage : record.job.stage with
  | mab =>
    simp only [hstage] at h
    obtain ⟨arms, harms, h⟩ := Fallible.bind_eq_ok.mp h
    obtain ⟨-, rfl⟩ := updateTrial_succeeded h
    exact .observed trial _ _ _ arms hrow hdispatched hstage harms
  | pruning =>
    simp only [hstage] at h
    obtain ⟨-, rfl⟩ := updateTrial_succeeded h
    exact .ended trial _ _ _ hrow hdispatched hstage

theorem report_ok [Rounding] [Python] {jobId : String} {result : TrainingResult} {response : ReportResponse}
    (h : record.report jobId result = .ok (response, record')) : record.Touched record' := by
  unfold report at h
  split at h
  · cases h
  split at h
  · cases h
  next trial htrial =>
  split at h
  · cases h
  · obtain ⟨-, rfl⟩ := Prod.mk.inj (Except.ok.inj h)
    exact .same
  next hdispatched =>
  dsimp only at h
  split at h
  · obtain ⟨-, rfl⟩ := Prod.mk.inj (Except.ok.inj h)
    exact .same
  · obtain ⟨ended, hended, h⟩ := Fallible.map_eq_ok.mp h
    obtain ⟨-, rfl⟩ := Prod.mk.inj h
    exact endTraining_ok (Trials.getTrial_some htrial).1 hdispatched hended

theorem endTrial_ok [Rounding] [Python] {jobId : String} {id : TrialId}
    (h : record.endTrial jobId id = .ok record') : record.Touched record' := by
  unfold endTrial at h
  split at h
  · cases h
  · next trial htrial =>
    split at h
    · obtain ⟨hdispatched, rfl⟩ := updateTrial_failed h
      exact .failed trial (Trials.getTrial_some htrial).1 hdispatched
    · obtain rfl := Except.ok.inj h
      exact .same

end JobRecord

/-! ### Runs -/

section Runs
variable {db : Database} {jobId : String} {record : JobRecord}

theorem transact_absent {α : Type} (other : String) (unknown : BsoError)
    (body : JobRecord → Except BsoError (α × JobRecord)) (h : db[jobId]? = none) :
    (db.transact other unknown body).2[jobId]? = none := by
  unfold Database.transact
  split
  · exact h
  · next found hfound =>
    split
    · exact h
    · rw [Map.lookup_insert_ne _ _ (fun heq => ?_), h]
      rw [heq, h] at hfound
      cases hfound

theorem transact_present {α : Type} (other : String) (unknown : BsoError)
    (body : JobRecord → Except BsoError (α × JobRecord)) (h : db[jobId]? = some record) :
    (db.transact other unknown body).2[jobId]? = some record ∨
      ∃ answer record', other = jobId ∧ body record = .ok (answer, record') ∧
        (db.transact other unknown body).2[jobId]? = some record' := by
  unfold Database.transact
  split
  · exact Or.inl h
  · next found hfound =>
    split
    · exact Or.inl h
    · next answer record' hbody =>
      by_cases heq : other = jobId
      · subst heq
        obtain rfl : found = record := Option.some.inj (hfound.symm.trans h)
        refine Or.inr ⟨answer, record', rfl, hbody, ?_⟩
        rw [Map.lookup_insert, if_pos rfl]
      · rw [Map.lookup_insert_ne _ _ heq]
        exact Or.inl h

/-- A request on a job that is not there can only register it. -/
theorem next_absent [Rounding] [Python] (e : Request) (h : db[jobId]? = none) :
    (machine.next db e)[jobId]? = none ∨
      ∃ spec new, spec.jobId = jobId ∧ createJob spec = .ok new ∧
        (machine.next db e)[jobId]? = some new := by
  cases e with
  | registerJob spec =>
    show (db.registerJob spec).2[jobId]? = none ∨ ∃ spec' new, spec'.jobId = jobId ∧
      createJob spec' = .ok new ∧ (db.registerJob spec).2[jobId]? = some new
    unfold Database.registerJob
    split
    · split <;> exact Or.inl h
    · split
      · exact Or.inl h
      · next new hnew =>
        by_cases heq : spec.jobId = jobId
        · refine Or.inr ⟨spec, new, heq, hnew, ?_⟩
          rw [Map.lookup_insert, if_pos heq]
        · rw [Map.lookup_insert_ne _ _ heq]
          exact Or.inl h
  | deleteJob other =>
    show (db.deleteJob other).2[jobId]? = none ∨ _
    unfold Database.deleteJob
    split
    · exact Or.inl h
    · rw [Map.lookup_erase]
      split
      · exact Or.inl rfl
      · exact Or.inl h
  | predict other draws => exact Or.inl (transact_absent other _ _ h)
  | report other result => exact Or.inl (transact_absent other _ _ h)
  | endTrial other id =>
    show (db.endTrial other id).2[jobId]? = none ∨ _
    unfold Database.endTrial
    split
    · exact Or.inl h
    · exact Or.inl (transact_absent other _ _ h)

/-- A registration leaves the rows of a job that is there. -/
theorem registerJob_present (spec : JobSpec) (h : db[jobId]? = some record) :
    (db.registerJob spec).2[jobId]? = some record := by
  unfold Database.registerJob
  split
  · split <;> exact h
  · next hnone =>
    split
    · exact h
    · rw [Map.lookup_insert_ne _ _ (fun heq => ?_), h]
      rw [heq, h] at hnone
      cases hnone

theorem deleteJob_present (other : String) (h : db[jobId]? = some record) :
    (db.deleteJob other).2[jobId]? = if other = jobId then none else some record := by
  unfold Database.deleteJob
  split
  · next hnone =>
    rw [if_neg (fun heq => ?_), h]
    rw [heq, h] at hnone
    cases hnone
  · rw [Map.lookup_erase, h]

/-- A request deletes the job, or touches its rows in one of the ways listed. -/
theorem next_present [Rounding] [Python] (e : Request) (h : db[jobId]? = some record) :
    (e = .deleteJob jobId ∧ (machine.next db e)[jobId]? = none) ∨
      ∃ record', (machine.next db e)[jobId]? = some record' ∧ record.Touched record' := by
  have hsame : ∀ {db' : Database}, db'[jobId]? = some record →
      ∃ record', db'[jobId]? = some record' ∧ record.Touched record' :=
    fun h => ⟨record, h, .same⟩
  cases e with
  | registerJob spec =>
    exact Or.inr (hsame (registerJob_present spec h))
  | deleteJob other =>
    have hnext := deleteJob_present other h
    by_cases heq : other = jobId
    · subst heq
      rw [if_pos rfl] at hnext
      exact Or.inl ⟨rfl, hnext⟩
    · rw [if_neg heq] at hnext
      exact Or.inr (hsame hnext)
  | predict other draws =>
    refine Or.inr ?_
    rcases transact_present other (.value s!"Unknown job({other}). Please register the job first")
      (·.predict draws) h with hkept | ⟨id, record', -, hpredict, hnext⟩
    · exact hsame hkept
    · exact ⟨record', hnext, (JobRecord.predict_ok hpredict).2.2.1⟩
  | report other result =>
    refine Or.inr ?_
    rcases transact_present other (.serviceBadOperation s!"Unknown job {other}") (·.report other result) h with
      hkept | ⟨response, record', -, hreport, hnext⟩
    · exact hsame hkept
    · exact ⟨record', hnext, JobRecord.report_ok hreport⟩
  | endTrial other id =>
    refine Or.inr ?_
    show ∃ record', (db.endTrial other id).2[jobId]? = some record' ∧ record.Touched record'
    unfold Database.endTrial
    split
    · exact hsame h
    · rcases transact_present other (.serverNotFound s!"Could not find the trial: {id.text other}")
        (fun record => (record.endTrial other id).map fun record => ((), record)) h with
        hkept | ⟨answer, record', -, hend, hnext⟩
      · exact hsame hkept
      · obtain ⟨ended, hended, heq⟩ := Fallible.map_eq_ok.mp hend
        obtain rfl := (Prod.mk.inj heq).2
        exact ⟨ended, hnext, JobRecord.endTrial_ok hended⟩

/-- The rows of a job later in a run that does not delete it. -/
theorem record_run [Rounding] [Python] (h : db[jobId]? = some record) {requests : List Request}
    (hkept : .deleteJob jobId ∉ requests) :
    ∃ record', (machine.run db requests)[jobId]? = some record' ∧
      Relation.ReflTransGen JobRecord.Touched record record' := by
  induction requests generalizing db record with
  | nil => exact ⟨record, h, .refl⟩
  | cons e rest ih =>
    rcases next_present e h with ⟨hdelete, -⟩ | ⟨next, hnext, htouched⟩
    · exact absurd (hdelete ▸ List.mem_cons_self) hkept
    · obtain ⟨record', hrun, hrest⟩ := ih hnext (List.not_mem_of_not_mem_cons hkept)
      exact ⟨record', hrun, .head htouched hrest⟩

/-- **What all requests keep, all jobs have.** -/
theorem jobs_run [Rounding] [Python] {Inv : JobRecord → Prop}
    (hnew : ∀ spec new, createJob spec = .ok new → Inv new)
    (htouched : ∀ {record record' : JobRecord}, record.Touched record' → Inv record → Inv record')
    (requests : List Request) (h : (machine.run ∅ requests)[jobId]? = some record) : Inv record := by
  have hkept : machine.Preserved (fun _ => True) fun db : Database =>
      ∀ (jobId : String) record, db[jobId]? = some record → Inv record := by
    intro db e _ hinv jobId record h
    cases hbefore : db[jobId]? with
    | none =>
      rcases next_absent e hbefore with hnone | ⟨spec, new, -, hcreate, hnext⟩
      · cases hnone.symm.trans h
      · obtain rfl : new = record := Option.some.inj (hnext.symm.trans h)
        exact hnew spec new hcreate
    | some before =>
      rcases next_present e hbefore with ⟨-, hnone⟩ | ⟨after, hnext, hstep⟩
      · cases hnone.symm.trans h
      · obtain rfl : after = record := Option.some.inj (hnext.symm.trans h)
        exact htouched hstep (hinv jobId before hbefore)
  have hempty : ∀ (jobId : String) record, (∅ : Database)[jobId]? = some record → Inv record := by
    intro jobId record h
    rw [Std.ExtTreeMap.getElem?_empty] at h
    cases h
  exact hkept.run hempty (fun _ _ => trivial) jobId record h

end Runs

end ZeusPower.Reference.BatchSize
