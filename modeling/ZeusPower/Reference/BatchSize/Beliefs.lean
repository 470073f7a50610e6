import ZeusPower.Reference.BatchSize.Records

/-! What the bandit believes.

An arm is fitted once when the last stage begins, to the explorations of its batch size, and
again with every report, to a window of results. `beliefs_fit` says what that comes to in a
whole run where the window is not limited: at any time an arm is the fit of its `evidence`.
In exact arithmetic, that is: floats make a sum of the order of the reports.
The trainings that ran beside the explorations are no evidence at first; they are from the
first report of the bandit's own on. -/
namespace ZeusPower.Reference.BatchSize
open Library

/-! ### A fit does not see an order -/

section Perm
variable [Rounding] [Exact] [Python] {rewards rewards' : List Double}

theorem sum_perm (h : rewards.Perm rewards') : Python.sum rewards = Python.sum rewards' := by
  rw [Python.sum_eq inferInstance, Python.sum_eq inferInstance, h.sum_eq]

theorem mean_perm (h : rewards.Perm rewards') : mean rewards = mean rewards' := by
  unfold mean
  rw [sum_perm h, h.length_eq]

theorem variance_perm (h : rewards.Perm rewards') : variance rewards = variance rewards' := by
  unfold variance
  rw [mean_perm h]
  exact mean_perm (h.map _)

theorem GaussianTS.fitArm_perm {batchSize : Int} {priorMean priorPrecision : Double} (h : rewards.Perm rewards') :
    fitArm batchSize priorMean priorPrecision rewards = fitArm batchSize priorMean priorPrecision rewards' := by
  unfold fitArm
  rw [h.isEmpty_eq, variance_perm h, mean_perm h, sum_perm h, h.length_eq]

end Perm

/-! ### Evidence -/

/-- The reward of a training that has a result. -/
def Trial.reward [Rounding] (job : JobState) (t : Trial) :
    Option Double := (t.reportedCost job).map fun cost => -cost

/-- A training of the bandit's own has been reported for the batch size. -/
def learned (rows : List Trial) (bs : Int) : Bool :=
  rows.any fun t => t.batchSize = bs ∧ t.type = .mab ∧ t.isSucceeded = true

/-- What one trial tells of a batch size: with `all` its result, else only that of an exploration. -/
def counted [Rounding] (job : JobState) (all : Bool) (bs : Int) (t : Trial) : Option Double :=
  if t.batchSize = bs ∧ (all = true ∨ t.type = .exploration) then t.reward job else none

/-- The rewards that the belief about a batch size rests on. -/
def evidence [Rounding] (job : JobState) (rows : List Trial) (bs : Int) : List Double :=
  rows.filterMap (counted job (learned rows bs) bs)

section Evidence
variable {job : JobState} {t t' : Trial} {rows before after : List Trial} {bs : Int} {all : Bool}

theorem Trial.reward_none [Rounding] (h : t.isSucceeded = false) : t.reward job = none := by
  unfold reward reportedCost
  cases hstatus : t.status with
  | dispatched => rfl
  | failed => rfl
  | succeeded time energy converged =>
    rw [Trial.isSucceeded, hstatus] at h
    cases h

theorem counted_none [Rounding] (h : t.isSucceeded = false) : counted job all bs t = none := by
  unfold counted
  split
  · exact Trial.reward_none h
  · rfl

theorem counted_other [Rounding] (h : t.batchSize ≠ bs) : counted job all bs t = none := if_neg fun heq => h heq.1

theorem evidence_congr [Rounding] {job' : JobState} (hspec : job'.spec = job.spec) :
    evidence job' rows bs = evidence job rows bs := by
  have hcounted : counted job' (learned rows bs) bs = counted job (learned rows bs) bs := by
    funext t
    unfold counted Trial.reward
    rw [reportedCost_congr hspec]
  unfold evidence
  rw [hcounted]

theorem learned_split :
    learned (before ++ t :: after) bs = (learned before bs || learned [t] bs || learned after bs) := by
  unfold learned
  rw [List.append_cons, List.any_append, List.any_append]

theorem learned_one (h : t.batchSize ≠ bs ∨ t.isSucceeded = false) : learned [t] bs = false := by
  unfold learned
  rw [List.any_cons, List.any_nil, Bool.or_false]
  refine decide_eq_false ?_
  rintro ⟨hbs, -, hsucceeded⟩
  rcases h with h | h
  · exact h hbs
  · rw [h] at hsucceeded
    cases hsucceeded

/-- Rows that tell nothing of the batch size can change. -/
theorem evidence_replace [Rounding] (t : Trial) (h : t.batchSize ≠ bs ∨ t.isSucceeded = false)
    (h' : t'.batchSize ≠ bs ∨ t'.isSucceeded = false) :
    evidence job (before ++ t' :: after) bs = evidence job (before ++ t :: after) bs := by
  have hnone : ∀ {t : Trial} {all : Bool}, t.batchSize ≠ bs ∨ t.isSucceeded = false → counted job all bs t = none :=
    fun h => h.elim counted_other counted_none
  unfold evidence
  rw [learned_split, learned_split, learned_one h, learned_one h', List.filterMap_append, List.filterMap_append,
    List.filterMap_cons_none (hnone h), List.filterMap_cons_none (hnone h')]

theorem evidence_append [Rounding] (h : t.isSucceeded = false) :
    evidence job (rows ++ [t]) bs = evidence job rows bs := by
  unfold evidence
  rw [learned_split, learned_one (Or.inr h), List.filterMap_append, List.filterMap_cons_none (counted_none h)]
  unfold learned
  rw [List.any_nil, Bool.or_false, Bool.or_false, List.filterMap_nil, List.append_nil]

end Evidence

/-! ### Arms -/

section Arms
variable {job : JobState} {record record' : JobRecord} {bs : Int}

theorem rewardsOf_ok [Rounding] {l : List Trial} {rewards : List Double}
    (h : GaussianTS.rewardsOf job l = .ok rewards) :
    rewards = l.filterMap (Trial.reward job) := by
  have hall := Fallible.mapM_eq_ok.mp h
  clear h
  induction hall with
  | nil => rfl
  | @cons t reward l rewards hone _ ih =>
    have hreward : t.reward job = some reward := by
      unfold Trial.reward Trial.reportedCost
      cases hstatus : t.status with
      | dispatched =>
        simp only [hstatus] at hone
        cases hone
      | failed =>
        simp only [hstatus] at hone
        cases hone
      | succeeded time energy converged =>
        simp only [hstatus] at hone
        obtain rfl := Except.ok.inj hone
        rfl
    rw [List.filterMap_cons_some hreward, ih]

/-- The first fit is to the explorations. -/
theorem constructArm_evidence [Rounding] [Python] {trials : Trials} {arm : GaussianTsArmState}
    (hnone : ∀ t ∈ trials.rows, t.type ≠ .mab)
    (h : GaussianTS.constructArm job trials.getExplorationsOfJob bs = .ok arm) :
    GaussianTS.fitArm bs job.spec.mabPriorMean job.spec.mabPriorPrecision (evidence job trials.rows bs) = .ok arm := by
  obtain ⟨rewards, hrewards, hfit⟩ := GaussianTS.constructArm_ok h
  have hlearned : learned trials.rows bs = false := by
    unfold learned
    rw [List.any_eq_false]
    intro t ht hlearned
    exact hnone t ht (of_decide_eq_true hlearned).2.1
  have hsame : evidence job trials.rows bs = rewards := by
    rw [rewardsOf_ok hrewards]
    unfold evidence Trials.getExplorationsOfJob
    rw [hlearned, List.filter_filter, List.filterMap_filter]
    refine List.filterMap_congr fun t _ => ?_
    unfold counted
    by_cases htype : t.type = .exploration
    · by_cases hfailed : t.status = .failed
      · have hreward : t.reward job = none := Trial.reward_none (by rw [Trial.isSucceeded, hfailed])
        simp [hreward]
      · simp [htype, hfailed]
    · simp [htype]
  rw [hsame]
  exact hfit

/-- A fit to all results, in the order of the window and with one more. -/
theorem armRewards_perm [Rounding] {trial : Trial} {time energy : Double} {before after : List Trial}
    (hwindow : record.job.spec.windowSize ≤ 0) (hrows : record.trials.rows = before ++ trial :: after)
    (hdispatched : trial.status = .dispatched) (htype : trial.type = .mab) (converged : Bool) :
    (GaussianTS.armRewards record trial time energy).Perm
      (evidence record.job (before ++ { trial with status := .succeeded time energy converged } :: after)
        trial.batchSize) := by
  have hnew : counted record.job true trial.batchSize { trial with status := .succeeded time energy converged } =
      some (-record.job.cost energy time) := if_pos ⟨rfl, Or.inl rfl⟩
  have hold : counted record.job true trial.batchSize trial = none :=
    counted_none (by rw [Trial.isSucceeded, hdispatched])
  have hlearned : learned (before ++ { trial with status := .succeeded time energy converged } :: after)
      trial.batchSize = true := by
    have hone : learned [{ trial with status := .succeeded time energy converged }] trial.batchSize = true := by
      unfold learned
      rw [List.any_cons, List.any_nil, Bool.or_false]
      exact decide_eq_true ⟨rfl, htype, rfl⟩
    rw [learned_split, hone, Bool.or_true, Bool.true_or]
  have hresults : GaussianTS.armRewards record trial time energy =
      (record.trials.rows.filterMap (counted record.job true trial.batchSize)).reverse ++
        [-record.job.cost energy time] := by
    have hunlimited : ¬0 < record.job.spec.windowSize := not_lt.mpr hwindow
    unfold GaussianTS.armRewards Trials.getTrialResultsOfBs
    simp only [hunlimited, and_false, if_false]
    rw [List.map_filterMap, List.filterMap_reverse, List.filterMap_filter]
    congr 2
    refine List.filterMap_congr fun t _ => ?_
    unfold counted Trial.reward Trial.reportedCost
    by_cases hbs : t.batchSize = trial.batchSize
    · rw [if_pos (decide_eq_true hbs), if_pos ⟨hbs, Or.inl rfl⟩]
      cases t.status <;> rfl
    · rw [if_neg (by simpa using hbs), if_neg fun h => hbs h.1]
  rw [hresults, hrows]
  unfold evidence
  rw [hlearned, List.filterMap_append, List.filterMap_append, List.filterMap_cons_none hold,
    List.filterMap_cons_some hnew]
  exact ((List.perm_append_singleton _ _).trans ((List.reverse_perm _).cons _)).trans List.perm_middle.symm

theorem constructMab_arm [Rounding] [Python] {trials : Trials} {goodBs : List Int} {arms : List GaussianTsArmState}
    (h : GaussianTS.constructMab job trials.getExplorationsOfJob goodBs = .ok arms) :
    ∀ arm ∈ arms, GaussianTS.constructArm job trials.getExplorationsOfJob arm.batchSize = .ok arm := by
  have hall := GaussianTS.constructMab_ok h
  clear h
  induction hall with
  | nil => exact List.forall_mem_nil _
  | cons hone _ ih =>
    obtain ⟨rewards, -, hfit⟩ := GaussianTS.constructArm_ok hone
    have hbs := GaussianTS.fitArm_batchSize hfit
    exact List.forall_mem_cons.mpr ⟨by rw [hbs]; exact hone, ih⟩

/-- Arms are fits of their evidence, and the bandit trains nothing before its stage. -/
structure Fitted [Rounding] [Python] (record : JobRecord) : Prop where
  unlearned : record.job.stage = .pruning → ∀ t ∈ record.trials.rows, t.type ≠ .mab
  fits : record.job.stage = .mab → record.job.spec.windowSize ≤ 0 → ∀ arm ∈ record.arms,
    GaussianTS.fitArm arm.batchSize record.job.spec.mabPriorMean record.job.spec.mabPriorPrecision
      (evidence record.job record.trials.rows arm.batchSize) = .ok arm

theorem Fitted.new [Rounding] [Python] {spec : JobSpec} (h : createJob spec = .ok record) : Fitted record := by
  obtain ⟨distinct, rfl⟩ := createJob_ok h
  refine ⟨fun _ t ht => ?_, fun hstage => ?_⟩
  · cases ht
  · cases hstage

/-- A trial that ends keeps its type. -/
theorem Fitted.unlearned_updateTrial [Rounding] [Python] (h : Fitted record)
    (hpruning : record.job.stage = .pruning) {trial : Trial}
    (hrow : trial ∈ record.trials.rows) (status : TrialStatus) :
    ∀ t ∈ (record.trials.updateTrial trial.trialNumber status).rows, t.type ≠ .mab := by
  intro t ht
  rcases Trials.mem_updateTrial hrow status ht with rfl | ht
  · exact h.unlearned hpruning trial hrow
  · exact h.unlearned hpruning t ht

/-- A report of the bandit's own trial fits its arm again, and no other. -/
theorem Fitted.observed [Rounding] [Exact] [Python] (h : Fitted record) {trial : Trial}
    {time energy : Double} (converged : Bool)
    {arms : List GaussianTsArmState} (hrow : trial ∈ record.trials.rows) (hdispatched : trial.status = .dispatched)
    (hmab : record.job.stage = .mab) (harms : GaussianTS.report record trial time energy = .ok arms) :
    Fitted ({ record with arms }.withResult trial time energy converged) := by
  refine ⟨fun hpruning => ?_, fun _ hwindow arm harm => ?_⟩
  · rw [JobRecord.withResult_stage] at hpruning
    cases hpruning.symm.trans hmab
  rw [JobRecord.withResult_spec] at hwindow
  obtain ⟨htype, newArm, hfit, rfl⟩ := GaussianTS.report_ok harms
  obtain ⟨before, after, hrows, hrows'⟩ :=
    Trials.updateTrial_rows hrow (.succeeded time energy converged)
  rw [evidence_congr (JobRecord.withResult_spec ..), JobRecord.withResult_spec]
  show GaussianTS.fitArm _ _ _ (evidence record.job
    (record.trials.updateTrial trial.trialNumber (.succeeded time energy converged)).rows arm.batchSize) = .ok arm
  rw [hrows']
  obtain ⟨old, hold, rfl⟩ := List.mem_map.mp harm
  by_cases hbs : old.batchSize = trial.batchSize
  · rw [if_pos hbs, GaussianTS.fitArm_batchSize hfit,
      ← GaussianTS.fitArm_perm (armRewards_perm hwindow hrows hdispatched htype converged)]
    exact hfit
  · have hne : trial.batchSize ≠ old.batchSize := Ne.symm hbs
    rw [if_neg hbs, evidence_replace trial (Or.inl hne) (Or.inl (by exact hne)), ← hrows]
    exact h.fits hmab hwindow old hold

theorem Fitted.touched [Rounding] [Exact] [Python] (htouched : record.Touched record')
    (hcoherent : Coherent record) (h : Fitted record) :
    Fitted record' := by
  cases htouched with
  | same => exact h
  | explored type batchSize hpruning hnext =>
    refine ⟨fun _ t ht => ?_, fun hmab => ?_⟩
    · rw [Trials.createTrial_rows] at ht
      rcases List.mem_append.mp ht with ht | ht
      · exact h.unlearned hpruning t ht
      · obtain rfl := List.mem_singleton.mp ht
        rcases hcoherent.next_trial hnext with ⟨rfl, -⟩ | ⟨rfl, -⟩
        · intro htype
          cases htype
        · intro htype
          cases htype
    · cases hpruning.symm.trans hmab
  | started goodBs arms draws batchSize hpruning hnext harms hpick =>
    refine ⟨fun hstage => ?_, fun _ _ arm harm => ?_⟩
    · cases hstage
    · have hfit := constructArm_evidence (h.unlearned hpruning) (constructMab_arm harms arm harm)
      rw [Trials.createTrial_rows, evidence_append rfl]
      exact hfit
  | sampled draws batchSize hmab hpick =>
    refine ⟨fun hpruning => ?_, fun _ hwindow arm harm => ?_⟩
    · cases hpruning.symm.trans hmab
    · rw [Trials.createTrial_rows, evidence_append rfl]
      exact h.fits hmab hwindow arm harm
  | ended trial time energy converged hrow hdispatched hpruning =>
    refine ⟨fun _ => h.unlearned_updateTrial hpruning hrow _, fun hmab => ?_⟩
    rw [record.withResult_stage] at hmab
    cases hpruning.symm.trans hmab
  | observed trial time energy converged arms hrow hdispatched hmab harms =>
    exact h.observed converged hrow hdispatched hmab harms
  | failed trial hrow hdispatched =>
    refine ⟨fun hpruning => h.unlearned_updateTrial hpruning hrow _, fun hmab hwindow arm harm => ?_⟩
    obtain ⟨before, after, hrows, hrows'⟩ := Trials.updateTrial_rows hrow .failed
    have hnone : trial.isSucceeded = false := by rw [Trial.isSucceeded, hdispatched]
    dsimp only
    rw [hrows', evidence_replace trial (Or.inr hnone) (Or.inr rfl), ← hrows]
    exact h.fits hmab hwindow arm harm

/-- **An arm is the fit of its evidence**, in whatever order the reports come. -/
theorem beliefs_fit [Rounding] [Exact] [Python] {requests : List Request} {jobId : String}
    (h : (machine.run ∅ requests)[jobId]? = some record)
    (hstage : record.job.stage = .mab) (hwindow : record.job.spec.windowSize ≤ 0) :
    ∀ arm ∈ record.arms,
      GaussianTS.fitArm arm.batchSize record.job.spec.mabPriorMean record.job.spec.mabPriorPrecision
          (evidence record.job record.trials.rows arm.batchSize) = .ok arm := by
  have hall := @jobs_run jobId record _ _ (fun record => Coherent record ∧ Fitted record)
    (fun _ _ hnew => ⟨.new hnew, .new hnew⟩)
    (fun hstep hinv => ⟨hinv.1.touched hstep, hinv.2.touched hstep hinv.1⟩) requests h
  exact hall.2.fits hstage hwindow

attribute [local instance] Rounding.exact Rounding.exact_exact samplePython in
/-- The first training of the bandit's own has ended; both results of its batch size count. -/
def learnedRecord : JobRecord :=
  (machine.run ∅ (sampleRequests ++ [.report "job-1" ⟨⟨16, 4⟩, 1, 12, 1, 1⟩]))["job-1"]?.get (by decide +kernel)

attribute [local instance] Rounding.exact Rounding.exact_exact samplePython in
theorem beliefs_fit_sample :
    evidence learnedRecord.job learnedRecord.trials.rows 16 = [-55, -56] ∧
      learnedRecord.arms.map (fun arm => (arm.batchSize, arm.paramMean)) = [(16, -111 / 2), (32, -54)] ∧
      ∀ arm ∈ learnedRecord.arms,
        GaussianTS.fitArm arm.batchSize learnedRecord.job.spec.mabPriorMean
          learnedRecord.job.spec.mabPriorPrecision
          (evidence learnedRecord.job learnedRecord.trials.rows arm.batchSize) = .ok arm := by
  have hrun : (machine.run ∅ (sampleRequests ++ [.report "job-1" ⟨⟨16, 4⟩, 1, 12, 1, 1⟩]))["job-1"]? =
      some learnedRecord := (Option.some_get _).symm
  exact ⟨by decide +kernel, by decide +kernel, beliefs_fit hrun (by decide +kernel) (by decide +kernel)⟩

end Arms

end ZeusPower.Reference.BatchSize
