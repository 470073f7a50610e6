import ZeusPower.Reference.BatchSize.Jobs

/-! The rows of a job in whole runs.

A trial is never forgotten and its result is final (`Kept`), so a client that is told to
stop is told the same however often it asks again (`reports_agree`), and no two clients
train under one number (`numbers_increase`). The least cost is that of all results
(`min_cost_least`), and what is trained is always one of the job's own batch sizes
(`batch_sizes_listed`).

One kind of training is lost: what the pruning stage has handed out and the last stage
finds still under way is never given a result (`late_trials_lost`). -/
namespace ZeusPower.Reference.BatchSize
open Library

/-! ### Rows stay -/

/-- The rows later on: every trial is still there, and one that has ended as it was. -/
def Kept (rows rows' : List Trial) : Prop :=
  ∀ (i : ℕ) t, rows[i]? = some t →
    ∃ status, rows'[i]? = some { t with status } ∧ (t.status ≠ .dispatched → status = t.status)

section Kept
variable {rows rows' rows'' : List Trial} {t : Trial}

theorem Kept.refl (rows : List Trial) : Kept rows rows := fun _ t h => ⟨t.status, h, fun _ => rfl⟩

theorem Kept.trans (h : Kept rows rows') (h' : Kept rows' rows'') : Kept rows rows'' := by
  intro i t ht
  obtain ⟨status, hnext, hsame⟩ := h i t ht
  obtain ⟨status', hlast, hsame'⟩ := h' i _ hnext
  refine ⟨status', hlast, fun hended => ?_⟩
  obtain rfl := hsame hended
  exact hsame' hended

theorem Kept.length_le (h : Kept rows rows') : rows.length ≤ rows'.length := by
  by_contra hlt
  obtain ⟨status, hnext, -⟩ := h rows'.length _ (List.getElem?_eq_getElem (not_le.mp hlt))
  rw [List.getElem?_eq_none (Nat.le_refl _)] at hnext
  cases hnext

/-- A result is final. -/
theorem Kept.ended (h : Kept rows rows') (ht : t ∈ rows) (hended : t.status ≠ .dispatched) : t ∈ rows' := by
  obtain ⟨i, hi⟩ := List.mem_iff_getElem?.mp ht
  obtain ⟨status, hnext, hsame⟩ := h i t hi
  obtain rfl := hsame hended
  exact List.mem_iff_getElem?.mpr ⟨i, hnext⟩

end Kept

namespace Trials
variable {trials : Trials} {t t' : Trial}

theorem row_unique (ht : t ∈ trials.rows) (ht' : t' ∈ trials.rows) (h : t.trialNumber = t'.trialNumber) : t = t' :=
  List.inj_on_of_nodup_map trials.numbers_nodup ht ht' h

theorem number_pos (ht : t ∈ trials.rows) : 0 < t.trialNumber := by
  have hmem : t.trialNumber ∈ trials.rows.map (·.trialNumber) := List.mem_map_of_mem ht
  rw [trials.numbered, List.mem_range'_1] at hmem
  omega

theorem updateTrial_mem (ht : t ∈ trials.rows) (status : TrialStatus) :
    { t with status } ∈ (trials.updateTrial t.trialNumber status).rows := List.mem_map.mpr ⟨t, ht, if_pos rfl⟩

theorem mem_updateTrial (ht : t ∈ trials.rows) (status : TrialStatus)
    (ht' : t' ∈ (trials.updateTrial t.trialNumber status).rows) : t' = { t with status } ∨ t' ∈ trials.rows := by
  obtain ⟨before, after, hrows, hrows'⟩ := updateTrial_rows ht status
  rw [hrows'] at ht'
  rw [hrows]
  rcases List.mem_append.mp ht' with ht' | ht'
  · exact Or.inr (List.mem_append_left _ ht')
  · rcases List.mem_cons.mp ht' with rfl | ht'
    · exact Or.inl rfl
    · exact Or.inr (List.mem_append_right _ (List.mem_cons_of_mem _ ht'))

theorem getTrial_eq (ht : t ∈ trials.rows) : trials.getTrial t.batchSize t.trialNumber = some t := by
  unfold getTrial
  cases hfind : trials.rows.find? fun t' => t'.batchSize == t.batchSize && t'.trialNumber == t.trialNumber with
  | none =>
    have hnot := List.find?_eq_none.mp hfind t ht
    simp at hnot
  | some found =>
    obtain ⟨hrow, -, hnumber⟩ := getTrial_some hfind
    rw [row_unique hrow ht hnumber]

theorem kept_createTrial (batchSize : Int) (type : TrialType) :
    Kept trials.rows (trials.createTrial batchSize type).rows := by
  intro i t ht
  refine ⟨t.status, ?_, fun _ => rfl⟩
  rw [createTrial_rows, List.getElem?_append_left (List.getElem?_eq_some_iff.mp ht).1]
  exact ht

theorem kept_updateTrial (ht : t ∈ trials.rows) (hdispatched : t.status = .dispatched) (status : TrialStatus) :
    Kept trials.rows (trials.updateTrial t.trialNumber status).rows := by
  intro i t' ht'
  have hrow : (trials.updateTrial t.trialNumber status).rows[i]? =
      some (if t'.trialNumber = t.trialNumber then { t' with status } else t') := by
    show (trials.rows.map _)[i]? = _
    rw [List.getElem?_map, ht']
    rfl
  rw [hrow]
  split
  · next heq =>
    obtain rfl := row_unique (List.mem_iff_getElem?.mpr ⟨i, ht'⟩) ht heq
    exact ⟨status, rfl, fun hended => absurd hdispatched hended⟩
  · exact ⟨t'.status, rfl, fun _ => rfl⟩

end Trials

section Runs
variable {db : Database} {jobId : String} {record record' : JobRecord} {requests : List Request}

theorem JobRecord.Touched.kept [Rounding] [Python] (h : record.Touched record') :
    Kept record.trials.rows record'.trials.rows := by
  cases h with
  | same => exact .refl _
  | explored type batchSize => exact Trials.kept_createTrial batchSize type
  | started goodBs arms draws batchSize => exact Trials.kept_createTrial batchSize .mab
  | sampled draws batchSize => exact Trials.kept_createTrial batchSize .mab
  | ended trial time energy converged hrow hdispatched => exact Trials.kept_updateTrial hrow hdispatched _
  | observed trial time energy converged arms hrow hdispatched => exact Trials.kept_updateTrial hrow hdispatched _
  | failed trial hrow hdispatched => exact Trials.kept_updateTrial hrow hdispatched _

/-- The rows later in a run that does not delete the job. -/
theorem kept_run [Rounding] [Python] (h : db[jobId]? = some record) (hkept : .deleteJob jobId ∉ requests) :
    ∃ record', (machine.run db requests)[jobId]? = some record' ∧ Kept record.trials.rows record'.trials.rows := by
  obtain ⟨record', hrun, hsteps⟩ := record_run h hkept
  refine ⟨record', hrun, ?_⟩
  clear hrun
  induction hsteps with
  | refl => exact .refl _
  | tail _ hstep ih => exact ih.trans hstep.kept

end Runs

/-! ### Reports -/

section Reports
variable {db : Database} {jobId : String} {record record' : JobRecord} {t : Trial}

theorem transact_ok {α : Type} {unknown : BsoError} {body : JobRecord → Except BsoError (α × JobRecord)} {a : α}
    (h : (db.transact jobId unknown body).1 = .ok a) :
    ∃ record record', db[jobId]? = some record ∧ body record = .ok (a, record') ∧
      (db.transact jobId unknown body).2[jobId]? = some record' := by
  unfold Database.transact at h ⊢
  split at h
  · cases h
  · next record hrecord =>
    split at h
    · cases h
    · next answer record' hbody =>
      obtain rfl := Except.ok.inj h
      refine ⟨record, record', hrecord, hbody, ?_⟩
      dsimp only
      rw [Map.lookup_insert, if_pos rfl]

theorem answer_ok {α : Type} {answer : α → Response} {x : Except BsoError α} {response : Response}
    (h : Response.ofExcept answer x = response) (herror : ∀ e, response ≠ .error e) :
    ∃ a, x = .ok a ∧ answer a = response := by
  cases x with
  | error e => exact absurd h.symm (herror e)
  | ok a => exact ⟨a, rfl, h⟩

/-- A report that was answered, with the rows before and after it. -/
theorem report_answered [Rounding] [Python] {result : TrainingResult} {response : ReportResponse}
    (h : machine.answer db (.report jobId result) = .report response) :
    ∃ record record', db[jobId]? = some record ∧ record.report jobId result = .ok (response, record') ∧
      (machine.next db (.report jobId result))[jobId]? = some record' := by
  obtain ⟨a, hok, heq⟩ := answer_ok h fun e he => by cases he
  obtain rfl := Response.report.inj heq
  exact transact_ok hok

theorem predict_answered [Rounding] [Python] {draws : Draws} {id : TrialId}
    (h : machine.answer db (.predict jobId draws) = .trial id) :
    ∃ record record', db[jobId]? = some record ∧ record.predict draws = .ok (id, record') ∧
      (machine.next db (.predict jobId draws))[jobId]? = some record' := by
  obtain ⟨a, hok, heq⟩ := answer_ok h fun e he => by cases he
  obtain rfl := Response.trial.inj heq
  exact transact_ok hok

theorem report_answer [Rounding] [Python] {result : TrainingResult} {response : ReportResponse}
    (hrecord : db[jobId]? = some record)
    (h : record.report jobId result = .ok (response, record')) :
    machine.answer db (.report jobId result) = .report response := by
  show Response.ofExcept .report (db.transact jobId _ (·.report jobId result)).1 = _
  unfold Database.transact
  simp only [hrecord, h]
  rfl

theorem JobRecord.endTraining_trials [Rounding] [Python] {result : TrainingResult} {converged : Bool}
    (h : record.endTraining t result converged = .ok record') :
    record'.trials = record.trials.updateTrial t.trialNumber (.succeeded result.time result.energy converged) := by
  unfold endTraining at h
  split at h
  · cases h
  cases hstage : record.job.stage with
  | mab =>
    simp only [hstage] at h
    obtain ⟨arms, -, h⟩ := Fallible.bind_eq_ok.mp h
    obtain ⟨-, rfl⟩ := updateTrial_succeeded h
    rfl
  | pruning =>
    simp only [hstage] at h
    obtain ⟨-, rfl⟩ := updateTrial_succeeded h
    rfl

/-- Who is told to stop has a result. -/
theorem JobRecord.report_stop [Rounding] [Python] {result : TrainingResult} {response : ReportResponse}
    (h : record.report jobId result = .ok (response, record')) (hstop : response.stopTrain = true) :
    ∃ t ∈ record'.trials.rows, 0 < result.batchSize ∧ t.batchSize = result.batchSize ∧
      t.trialNumber = result.trialNumber ∧ ∃ time energy, t.status = .succeeded time energy response.converged := by
  unfold report at h
  split at h
  · cases h
  next hpos =>
  rw [not_or, not_le, not_le] at hpos
  split at h
  · cases h
  next trial htrial =>
  obtain ⟨hrow, hbs, hnumber⟩ := Trials.getTrial_some htrial
  have hsame : (trial.trialNumber : Int) = result.trialNumber := by omega
  split at h
  · cases h
  · next time energy converged hstatus =>
    obtain ⟨rfl, rfl⟩ := Prod.mk.inj (Except.ok.inj h)
    exact ⟨trial, hrow, hpos.1, hbs, hsame, time, energy, hstatus⟩
  dsimp only at h
  split at h
  · obtain ⟨rfl, -⟩ := Prod.mk.inj (Except.ok.inj h)
    cases hstop
  · obtain ⟨ended, hended, h⟩ := Fallible.map_eq_ok.mp h
    obtain ⟨rfl, rfl⟩ := Prod.mk.inj h
    have hmem := Trials.updateTrial_mem hrow
      (.succeeded result.time result.energy (record.reached result.metric && record.withinCostRange
        (record.job.cost result.energy result.time)))
    rw [← endTraining_trials hended] at hmem
    exact ⟨_, hmem, hpos.1, hbs, hsame, result.time, result.energy, rfl⟩

theorem JobRecord.report_again [Rounding] [Python] {result : TrainingResult} {time energy : Double}
    {converged : Bool}
    (hrow : t ∈ record.trials.rows) (hpos : 0 < result.batchSize) (hbs : t.batchSize = result.batchSize)
    (hnumber : t.trialNumber = result.trialNumber) (hstatus : t.status = .succeeded time energy converged) :
    record.report jobId result =
      .ok (⟨true, converged, s!"Result for this trial({t.trialNumber}) is already reported."⟩, record) := by
  have hfirst := Trials.number_pos hrow
  have hfound : record.trials.getTrial result.batchSize result.trialNumber.toNat = some t := by
    rw [← hbs, ← hnumber, Int.toNat_natCast]
    exact Trials.getTrial_eq hrow
  have hvalid : ¬(result.batchSize ≤ 0 ∨ result.trialNumber ≤ 0) := by omega
  unfold report
  rw [if_neg hvalid]
  simp only [hfound, hstatus]

/-- **A client is told to stop once and for all**: whatever it or anybody sends afterwards,
the same decision is the answer until the job is deleted. -/
theorem reports_agree [Rounding] [Python] {result result' : TrainingResult} {response : ReportResponse}
    {later : List Request}
    (h : machine.answer db (.report jobId result) = .report response) (hstop : response.stopTrain = true)
    (hkept : .deleteJob jobId ∉ later) (hsame : result'.toTrialId = result.toTrialId) :
    machine.answer (machine.run (machine.next db (.report jobId result)) later) (.report jobId result') =
      .report ⟨true, response.converged, s!"Result for this trial({result.trialNumber}) is already reported."⟩ := by
  obtain ⟨record, record', -, hreport, hnext⟩ := report_answered h
  obtain ⟨t, hrow, hpos, hbs, hnumber, time, energy, hstatus⟩ := JobRecord.report_stop hreport hstop
  obtain ⟨record'', hrun, hrows⟩ := kept_run hnext hkept
  have hended : t.status ≠ .dispatched := by
    rw [hstatus]
    intro h
    cases h
  have hbs' : result'.batchSize = result.batchSize := congrArg TrialId.batchSize hsame
  have hnumber' : result'.trialNumber = result.trialNumber := congrArg TrialId.trialNumber hsame
  rw [← hbs'] at hpos hbs
  have hagain : record''.report jobId result' = _ :=
    JobRecord.report_again (hrows.ended hrow hended) hpos hbs (hnumber.trans hnumber'.symm) hstatus
  have htext : toString t.trialNumber = toString result.trialNumber := by
    rw [← hnumber]
    rfl
  rw [htext] at hagain
  exact report_answer hrun hagain

attribute [local instance] Rounding.binary64 samplePython in
theorem reports_agree_sample :
    machine.answer
        (machine.run (machine.next (machine.run ∅ (sampleRequests.take 3)) (.report "job-1" ⟨⟨16, 1⟩, 1, 10, 1, 1⟩))
          [.predict "job-1" sampleDraws, .endTrial "job-1" ⟨16, 1⟩])
        (.report "job-1" ⟨⟨16, 1⟩, 3, 30, 0, 2⟩) =
      .report ⟨true, true, "Result for this trial(1) is already reported."⟩ := by
  have hfirst : machine.answer (machine.run ∅ (sampleRequests.take 3)) (.report "job-1" ⟨⟨16, 1⟩, 1, 10, 1, 1⟩) =
      .report ⟨true, true, "Train succeeded"⟩ := by
    decide +kernel
  exact reports_agree hfirst rfl (by simp) rfl

/-- **No two trainings have one number**, whoever asks. -/
theorem numbers_increase [Rounding] [Python] {draws draws' : Draws} {id id' : TrialId} {later : List Request}
    (h : machine.answer db (.predict jobId draws) = .trial id) (hkept : .deleteJob jobId ∉ later)
    (h' : machine.answer (machine.run (machine.next db (.predict jobId draws)) later) (.predict jobId draws') =
      .trial id') :
    id.trialNumber < id'.trialNumber := by
  obtain ⟨record, first, -, hfirst, hnext⟩ := predict_answered h
  obtain ⟨record', second, hrecord', hsecond, -⟩ := predict_answered h'
  obtain ⟨-, hnumber, -, type, htrials⟩ := JobRecord.predict_ok hfirst
  obtain ⟨-, hnumber', -⟩ := JobRecord.predict_ok hsecond
  obtain ⟨later', hrun, hrows⟩ := kept_run hnext hkept
  obtain rfl : later' = record' := Option.some.inj (hrun.symm.trans hrecord')
  have hlength := hrows.length_le
  rw [htrials, Trials.createTrial_rows, List.length_append, List.length_singleton] at hlength
  omega

attribute [local instance] Rounding.binary64 samplePython in
theorem numbers_increase_sample :
    ∃ id id' : TrialId,
      machine.answer (machine.run ∅ (sampleRequests.take 1)) (.predict "job-1" sampleDraws) = .trial id ∧
      machine.answer (machine.run (machine.next (machine.run ∅ (sampleRequests.take 1))
        (.predict "job-1" sampleDraws)) [.endTrial "job-1" ⟨16, 1⟩]) (.predict "job-1" sampleDraws) = .trial id' ∧
      id.trialNumber < id'.trialNumber := by
  have hfirst : machine.answer (machine.run ∅ (sampleRequests.take 1)) (.predict "job-1" sampleDraws) =
      .trial ⟨16, 1⟩ := by
    decide +kernel
  have hsecond : machine.answer (machine.run (machine.next (machine.run ∅ (sampleRequests.take 1))
      (.predict "job-1" sampleDraws)) [.endTrial "job-1" ⟨16, 1⟩]) (.predict "job-1" sampleDraws) =
      .trial ⟨16, 2⟩ := by
    decide +kernel
  exact ⟨_, _, hfirst, hsecond, numbers_increase hfirst (by simp) hsecond⟩

end Reports

/-! ### The least cost -/

/-- The cost of a training that has a result. -/
def Trial.reportedCost [Rounding] (job : JobState) (t : Trial) : Option Double :=
  match t.status with
  | .succeeded time energy _ => some (job.cost energy time)
  | _ => none

/-- `min_cost` is the least of all results, converged or not, and `min_cost_batch_size` has it. -/
structure Least [Rounding] (record : JobRecord) : Prop where
  lower : ∀ t ∈ record.trials.rows, ∀ cost ∈ t.reportedCost record.job, ∃ least ∈ record.job.minCost, least ≤ cost
  attained : ∀ least ∈ record.job.minCost, ∃ t ∈ record.trials.rows,
    t.reportedCost record.job = some least ∧ t.batchSize = record.job.minCostBatchSize
  start : record.job.minCost = none → record.job.minCostBatchSize = record.job.spec.defaultBatchSize

theorem reportedCost_congr [Rounding] {job job' : JobState} (hspec : job'.spec = job.spec) (t : Trial) :
    t.reportedCost job' = t.reportedCost job := by
  unfold Trial.reportedCost JobState.cost
  rw [hspec]

namespace Least
variable {record record' : JobRecord}

theorem new [Rounding] {spec : JobSpec} (h : createJob spec = .ok record) : Least record := by
  obtain ⟨distinct, rfl⟩ := createJob_ok h
  refine ⟨fun t ht => ?_, fun least hleast => ?_, fun _ => rfl⟩
  · cases ht
  · cases hleast

/-- A trial without a result changes nothing. -/
theorem of_rows [Rounding] {job : JobState} {trials : Trials} {arms : List GaussianTsArmState} (h : Least record)
    (hspec : job.spec = record.job.spec) (hcost : job.minCost = record.job.minCost)
    (hbs : job.minCostBatchSize = record.job.minCostBatchSize) (hkept : Kept record.trials.rows trials.rows)
    (hrows : ∀ t ∈ trials.rows, t ∈ record.trials.rows ∨ t.reportedCost record.job = none) :
    Least ⟨job, trials, arms⟩ := by
  refine ⟨fun t ht cost hcost' => ?_, fun least hleast => ?_, fun hnone => ?_⟩
  · rw [reportedCost_congr hspec] at hcost'
    rw [hcost]
    rcases hrows t ht with hrow | hnone
    · exact h.lower t hrow cost hcost'
    · rw [hnone] at hcost'
      cases hcost'
  · rw [hcost] at hleast
    obtain ⟨t, hrow, hleast', heq⟩ := h.attained least hleast
    refine ⟨t, hkept.ended hrow fun hdispatched => ?_, (reportedCost_congr hspec t).trans hleast', heq.trans hbs.symm⟩
    rw [Trial.reportedCost, hdispatched] at hleast'
    cases hleast'
  · rw [hcost] at hnone
    rw [hbs, hspec]
    exact h.start hnone

theorem createTrial [Rounding] (h : Least record) {job : JobState} {arms : List GaussianTsArmState}
    (hspec : job.spec = record.job.spec) (hcost : job.minCost = record.job.minCost)
    (hbs : job.minCostBatchSize = record.job.minCostBatchSize) (batchSize : Int) (type : TrialType) :
    Least ⟨job, record.trials.createTrial batchSize type, arms⟩ := by
  refine h.of_rows hspec hcost hbs (Trials.kept_createTrial batchSize type) fun t ht => ?_
  rw [Trials.createTrial_rows] at ht
  rcases List.mem_append.mp ht with ht | ht
  · exact Or.inl ht
  · obtain rfl := List.mem_singleton.mp ht
    exact Or.inr rfl

theorem failed [Rounding] (h : Least record) {trial : Trial} (hrow : trial ∈ record.trials.rows)
    (hdispatched : trial.status = .dispatched) :
    Least { record with trials := record.trials.updateTrial trial.trialNumber .failed } := by
  refine h.of_rows rfl rfl rfl (Trials.kept_updateTrial hrow hdispatched .failed) fun t ht => ?_
  rcases Trials.mem_updateTrial hrow .failed ht with rfl | ht
  · exact Or.inr rfl
  · exact Or.inl ht

section Result
variable {trial : Trial} {time energy : Double} (converged : Bool)

/-- A cost below the least so far is the least. -/
theorem lowered [Rounding] (h : Least record) (hrow : trial ∈ record.trials.rows)
    (hbelow : below (record.job.cost energy time) record.job.minCost = true) :
    Least (record.withResult trial time energy converged) := by
  have hcost := reportedCost_congr (record.withResult_spec trial time energy converged)
  have hjob : (record.withResult trial time energy converged).job =
      { record.job with minCost := some (record.job.cost energy time), minCostBatchSize := trial.batchSize } :=
    if_pos hbelow
  refine ⟨fun t ht cost hcost' => ⟨_, by rw [hjob]; rfl, ?_⟩,
    fun least hleast => ⟨_, Trials.updateTrial_mem hrow _, ?_, ?_⟩, fun hnone => ?_⟩
  · rw [hcost] at hcost'
    rcases Trials.mem_updateTrial hrow _ ht with rfl | ht
    · exact (Option.some.inj hcost').le
    · obtain ⟨least, hleast, hle⟩ := h.lower t ht cost hcost'
      rw [Option.mem_def.mp hleast] at hbelow
      exact (of_decide_eq_true hbelow).le.trans hle
  · rw [hcost]
    rw [hjob] at hleast
    exact hleast
  · rw [hjob]
  · rw [hjob] at hnone
    cases hnone

/-- Any other leaves it, and the trial that attains it has its result still. -/
theorem unlowered [Rounding] (h : Least record) (hrow : trial ∈ record.trials.rows)
    (hdispatched : trial.status = .dispatched)
    (hbelow : below (record.job.cost energy time) record.job.minCost = false) :
    Least (record.withResult trial time energy converged) := by
  have hcost := reportedCost_congr (record.withResult_spec trial time energy converged)
  have hkept : Kept record.trials.rows (record.withResult trial time energy converged).trials.rows :=
    Trials.kept_updateTrial hrow hdispatched _
  have hjob : (record.withResult trial time energy converged).job = record.job :=
    if_neg (by rw [hbelow]; exact Bool.false_ne_true)
  obtain ⟨least, hleast, hle⟩ : ∃ least ∈ record.job.minCost, least ≤ record.job.cost energy time := by
    cases hmin : record.job.minCost with
    | none =>
      rw [hmin] at hbelow
      cases hbelow
    | some least =>
      rw [hmin] at hbelow
      exact ⟨least, rfl, not_lt.mp (of_decide_eq_false hbelow)⟩
  refine ⟨fun t ht cost hcost' => ?_, fun least' hleast' => ?_, fun hnone => ?_⟩
  · rw [hcost] at hcost'
    rw [hjob]
    rcases Trials.mem_updateTrial hrow _ ht with rfl | ht
    · obtain rfl := Option.some.inj hcost'
      exact ⟨least, hleast, hle⟩
    · exact h.lower t ht cost hcost'
  · rw [hjob] at hleast'
    obtain ⟨t, ht, hcost', hbs⟩ := h.attained least' hleast'
    refine ⟨t, hkept.ended ht fun hdispatched' => ?_, (hcost t).trans hcost', by rw [hjob]; exact hbs⟩
    rw [Trial.reportedCost, hdispatched'] at hcost'
    cases hcost'
  · rw [hjob, Option.mem_def.mp hleast] at hnone
    cases hnone

theorem withResult [Rounding] (h : Least record) (hrow : trial ∈ record.trials.rows)
    (hdispatched : trial.status = .dispatched) :
    Least (record.withResult trial time energy converged) := by
  cases hbelow : below (record.job.cost energy time) record.job.minCost with
  | true => exact h.lowered converged hrow hbelow
  | false => exact h.unlowered converged hrow hdispatched hbelow

end Result

theorem touched [Rounding] [Python] (htouched : record.Touched record') (h : Least record) : Least record' := by
  cases htouched with
  | same => exact h
  | explored type batchSize => exact h.createTrial rfl rfl rfl batchSize type
  | started goodBs arms draws batchSize => exact h.createTrial (by rfl) (by rfl) (by rfl) batchSize .mab
  | sampled draws batchSize => exact h.createTrial rfl rfl rfl batchSize .mab
  | ended trial time energy converged hrow hdispatched => exact h.withResult converged hrow hdispatched
  | observed trial time energy converged arms hrow hdispatched =>
    have hsame : Least { record with arms } := h.of_rows rfl rfl rfl (.refl _) fun t ht => Or.inl ht
    exact hsame.withResult converged hrow hdispatched
  | failed trial hrow hdispatched => exact h.failed hrow hdispatched

end Least

/-- **The least cost is the least of all results.** -/
theorem min_cost_least [Rounding] [Python] {requests : List Request} {jobId : String} {record : JobRecord}
    (h : (machine.run ∅ requests)[jobId]? = some record) : Least record :=
  jobs_run (fun _ _ => .new) .touched requests h

attribute [local instance] Rounding.binary64 samplePython in
theorem min_cost_least_sample : sampleRecord.job.minCost = some 54 ∧ Least sampleRecord :=
  ⟨by decide +kernel, min_cost_least sample_run⟩

/-! ### What is trained -/

section Listed
variable {record record' : JobRecord}

/-- Trials are of batch sizes of the job. -/
def Listed (record : JobRecord) : Prop :=
  ∀ t ∈ record.trials.rows, t.batchSize ∈ record.job.spec.batchSizes

theorem Listed.minCostBatchSize [Rounding] (h : Listed record) (hleast : Least record) :
    record.job.minCostBatchSize ∈ record.job.spec.batchSizes := by
  cases hmin : record.job.minCost with
  | none =>
    rw [hleast.start hmin]
    exact record.job.spec.default_mem
  | some least =>
    obtain ⟨t, ht, -, hbs⟩ := hleast.attained least hmin
    rw [← hbs]
    exact h t ht

/-- What the explorer hands out: a question of the loop, or the cheapest so far. -/
theorem Coherent.next_trial [Rounding] {type : TrialType} {batchSize : Int} (h : Coherent record)
    (hnext : PruningExploreManager.nextBatchSize record.job record.trials.getExplorationsOfJob =
      .ok (.createTrial type batchSize)) :
    (type = .exploration ∧ batchSize ∈ record.job.spec.batchSizes) ∨
      (type = .concurrent ∧ batchSize = record.job.minCostBatchSize) := by
  obtain ⟨answered, training, d, hsplit, hfollows, -⟩ := h
  rw [hsplit] at hnext
  obtain ⟨-, k, -, hwithin⟩ := (pruning_within record.job.spec).after hfollows.stands
  obtain ⟨bs, next, rfl, ⟨-, htype, rfl⟩ | ⟨-, hconcurrent⟩⟩ := hfollows.next_trial hnext
  · cases k with
    | zero => cases hwithin
    | succ k => exact Or.inl ⟨htype, hwithin.1⟩
  · exact Or.inr hconcurrent

/-- What the loop leaves is listed. -/
theorem Coherent.good_listed [Rounding] {goodBs : List Int} (h : Coherent record)
    (hnext : PruningExploreManager.nextBatchSize record.job record.trials.getExplorationsOfJob =
      .ok (.goodBatchSizes goodBs)) :
    ∀ bs ∈ goodBs, bs ∈ record.job.spec.batchSizes := by
  obtain ⟨answered, training, d, hsplit, hfollows, -⟩ := h
  rw [hsplit] at hnext
  obtain ⟨-, k, -, hwithin⟩ := (pruning_within record.job.spec).after hfollows.stands
  rw [hfollows.next_left hnext] at hwithin
  exact (hwithin.result goodBs rfl).subset

theorem Coherent.arms_listed [Rounding] (h : Coherent record) (hstage : record.job.stage = .mab) :
    ∀ bs ∈ record.arms.map (·.batchSize), bs ∈ record.job.spec.batchSizes := by
  obtain ⟨-, k, -, hwithin⟩ := (pruning_within record.job.spec).after (h.bandit hstage).2
  exact (hwithin.result _ rfl).subset

theorem Listed.createTrial (h : Listed record) {batchSize : Int} (hbs : batchSize ∈ record.job.spec.batchSizes)
    (type : TrialType) : ∀ t ∈ (record.trials.createTrial batchSize type).rows, t.batchSize ∈ record.job.spec.batchSizes := by
  intro t ht
  rw [Trials.createTrial_rows] at ht
  rcases List.mem_append.mp ht with ht | ht
  · exact h t ht
  · obtain rfl := List.mem_singleton.mp ht
    exact hbs

theorem Listed.updateTrial (h : Listed record) {trial : Trial} (hrow : trial ∈ record.trials.rows)
    (status : TrialStatus) :
    ∀ t ∈ (record.trials.updateTrial trial.trialNumber status).rows, t.batchSize ∈ record.job.spec.batchSizes := by
  intro t ht
  rcases Trials.mem_updateTrial hrow status ht with rfl | ht
  · exact h trial hrow
  · exact h t ht

/-- What holds of a job in every run. -/
structure Sound [Rounding] (record : JobRecord) : Prop where
  coherent : Coherent record
  least : Least record
  listed : Listed record

theorem Sound.new [Rounding] {spec : JobSpec} (h : createJob spec = .ok record) : Sound record := by
  refine ⟨.new h, .new h, fun t ht => ?_⟩
  obtain ⟨distinct, rfl⟩ := createJob_ok h
  cases ht

theorem Sound.touched [Rounding] [Python] (htouched : record.Touched record') (h : Sound record) :
    Sound record' := by
  refine ⟨h.coherent.touched htouched, h.least.touched htouched, ?_⟩
  obtain ⟨hcoherent, hleast, hlisted⟩ := h
  cases htouched with
  | same => exact hlisted
  | explored type batchSize hpruning hnext =>
    refine hlisted.createTrial ?_ type
    rcases hcoherent.next_trial hnext with ⟨-, hmem⟩ | ⟨-, rfl⟩
    · exact hmem
    · exact hlisted.minCostBatchSize hleast
  | started goodBs arms draws batchSize hpruning hnext harms hpick =>
    have hmem := GaussianTS.predict_mem hpick
    rw [GaussianTS.constructMab_batchSizes harms] at hmem
    exact hlisted.createTrial (hcoherent.good_listed hnext _ hmem) .mab
  | sampled draws batchSize hmab hpick =>
    exact hlisted.createTrial (hcoherent.arms_listed hmab _ (GaussianTS.predict_mem hpick)) .mab
  | ended trial time energy converged hrow =>
    unfold Listed
    rw [record.withResult_spec]
    exact hlisted.updateTrial hrow _
  | observed trial time energy converged arms hrow =>
    unfold Listed
    rw [JobRecord.withResult_spec]
    exact hlisted.updateTrial hrow _
  | failed trial hrow => exact hlisted.updateTrial hrow _

theorem Sound.run [Rounding] [Python] {requests : List Request} {jobId : String}
    (h : (machine.run ∅ requests)[jobId]? = some record) :
    Sound record :=
  jobs_run (fun _ _ => .new) .touched requests h

/-- **Only the job's own batch sizes are ever trained**, in every stage. -/
theorem batch_sizes_listed [Rounding] [Python] {requests : List Request} {jobId : String}
    (h : (machine.run ∅ requests)[jobId]? = some record) :
    ∀ t ∈ record.trials.rows, t.batchSize ∈ record.job.spec.batchSizes := (Sound.run h).listed

attribute [local instance] Rounding.binary64 samplePython in
theorem batch_sizes_listed_sample :
    sampleRecord.trials.rows.map (·.batchSize) = [16, 16, 32, 16] ∧
      ∀ t ∈ sampleRecord.trials.rows, t.batchSize ∈ sampleRecord.job.spec.batchSizes :=
  ⟨by decide +kernel, batch_sizes_listed sample_run⟩

end Listed

/-! ### Trainings of the stage before -/

section Late
variable {db : Database} {jobId : String} {record record' : JobRecord} {t : Trial}

/-- In the last stage, with a row of a training from before that has no result. -/
def Late (t : Trial) (record : JobRecord) : Prop :=
  record.job.stage = .mab ∧ ∃ status, { t with status } ∈ record.trials.rows ∧
    (status = .dispatched ∨ status = .failed)

/-- Another trial ends. -/
theorem Trials.updateTrial_other {trials : Trials} {trial : Trial} (ht : t ∈ trials.rows)
    (hne : t.trialNumber ≠ trial.trialNumber) (status : TrialStatus) :
    t ∈ (trials.updateTrial trial.trialNumber status).rows := List.mem_map.mpr ⟨t, ht, if_neg hne⟩

theorem Late.touched [Rounding] [Python] (htype : t.type ≠ .mab) (htouched : record.Touched record')
    (h : Late t record) :
    Late t record' := by
  obtain ⟨hmab, status, hrow, hstatus⟩ := h
  cases htouched with
  | same => exact ⟨hmab, status, hrow, hstatus⟩
  | explored type batchSize hpruning => cases hmab.symm.trans hpruning
  | started goodBs arms draws batchSize hpruning => cases hmab.symm.trans hpruning
  | sampled draws batchSize =>
    refine ⟨hmab, status, ?_, hstatus⟩
    rw [Trials.createTrial_rows]
    exact List.mem_append_left _ hrow
  | ended trial time energy converged _ _ hpruning => cases hmab.symm.trans hpruning
  | observed trial time energy converged arms hrow' hdispatched _ harms =>
    have hne : t.trialNumber ≠ trial.trialNumber := by
      intro heq
      obtain rfl : { t with status } = trial := Trials.row_unique hrow hrow' heq
      exact htype (GaussianTS.report_ok harms).1
    exact ⟨(JobRecord.withResult_stage ..).trans hmab, status, Trials.updateTrial_other hrow hne _, hstatus⟩
  | failed trial hrow' hdispatched =>
    by_cases heq : t.trialNumber = trial.trialNumber
    · obtain rfl : { t with status } = trial := Trials.row_unique hrow hrow' heq
      exact ⟨hmab, .failed, Trials.updateTrial_mem hrow .failed, Or.inr rfl⟩
    · exact ⟨hmab, status, Trials.updateTrial_other hrow heq _, hstatus⟩

/-- Its report is refused, or it is to go on. -/
theorem Late.report [Rounding] [Python] (htype : t.type ≠ .mab) (h : Late t record) {result : TrainingResult}
    (hbs : result.batchSize = t.batchSize) (hnumber : result.trialNumber = t.trialNumber) {response : ReportResponse}
    (hreport : record.report jobId result = .ok (response, record')) : response.stopTrain = false := by
  obtain ⟨hmab, status, hrow, hstatus⟩ := h
  have hfound : record.trials.getTrial result.batchSize result.trialNumber.toNat = some { t with status } := by
    rw [hbs, hnumber, Int.toNat_natCast]
    exact Trials.getTrial_eq hrow
  unfold JobRecord.report at hreport
  split at hreport
  · cases hreport
  rcases hstatus with rfl | rfl
  · simp only [hfound] at hreport
    split at hreport
    · obtain ⟨rfl, -⟩ := Prod.mk.inj (Except.ok.inj hreport)
      rfl
    · obtain ⟨ended, hended, -⟩ := Fallible.map_eq_ok.mp hreport
      unfold JobRecord.endTraining at hended
      split at hended
      · cases hended
      · simp only [hmab] at hended
        obtain ⟨arms, harms, -⟩ := Fallible.bind_eq_ok.mp hended
        exact absurd (GaussianTS.report_ok harms).1 htype
  · simp only [hfound] at hreport
    cases hreport

/-- **What the last stage finds under way is lost**: a training that the pruning stage has
handed out gets no result any more, and its client is never told to stop. -/
theorem late_trials_lost [Rounding] [Python] {later : List Request} (h : db[jobId]? = some record)
    (hstage : record.job.stage = .mab)
    (ht : t ∈ record.trials.rows) (htype : t.type ≠ .mab) (hdispatched : t.status = .dispatched)
    (hkept : .deleteJob jobId ∉ later) :
    (∃ record' status, (machine.run db later)[jobId]? = some record' ∧ { t with status } ∈ record'.trials.rows ∧
      (status = .dispatched ∨ status = .failed)) ∧
    ∀ (result : TrainingResult) (response : ReportResponse),
      result.batchSize = t.batchSize → result.trialNumber = (t.trialNumber : Int) →
      machine.answer (machine.run db later) (.report jobId result) = .report response →
      response.stopTrain = false := by
  obtain ⟨record', hrun, hsteps⟩ := record_run h hkept
  have hlate : Late t record' := by
    clear hrun
    induction hsteps with
    | refl =>
      refine ⟨hstage, .dispatched, ?_, Or.inl rfl⟩
      rw [← hdispatched]
      exact ht
    | tail _ hstep ih => exact ih.touched htype hstep
  constructor
  · obtain ⟨-, status, hrow, hstatus⟩ := hlate
    exact ⟨record', status, hrun, hrow, hstatus⟩
  · intro result response hbs hnumber hreport
    obtain ⟨found, after, hfound, hok, -⟩ := report_answered hreport
    obtain rfl : record' = found := Option.some.inj (hrun.symm.trans hfound)
    exact hlate.report htype hbs hnumber hok

attribute [local instance] Rounding.binary64 samplePython in
/-- The second client of the sample. -/
theorem late_trials_lost_sample :
    ∃ t ∈ sampleRecord.trials.rows, t = ⟨16, 2, .concurrent, .dispatched⟩ ∧
      ∀ (result : TrainingResult) (response : ReportResponse), result.batchSize = 16 → result.trialNumber = 2 →
        machine.answer (machine.run (machine.run ∅ sampleRequests) [.report "job-1" ⟨⟨16, 2⟩, 1, 10, 1, 1⟩])
          (.report "job-1" result) = .report response →
        response.stopTrain = false := by
  have hrow : (⟨16, 2, .concurrent, .dispatched⟩ : Trial) ∈ sampleRecord.trials.rows := by
    decide +kernel
  exact ⟨_, hrow, rfl,
    (late_trials_lost sample_run sample_stage hrow (by decide) rfl (by simp)).2⟩

end Late

end ZeusPower.Reference.BatchSize
