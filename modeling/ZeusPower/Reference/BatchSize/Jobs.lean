import Mathlib.Data.List.Nodup
import ZeusPower.Reference.BatchSize.Pruning

/-! Jobs in whole runs.

Requests on a job come in any order, from clients that know nothing of each other: a batch
size is asked for while others are being trained, a training ends long after the stage it
was started in, or never. `Coherent` is what holds of the rows of a job all along: its
explorations are the questions of the pruning loop so far, and its arms are what the loop
has left.

So the server prunes as the loop does (`explorer_follows`), and plays the bandit on the
loop's result (`bandit_follows`), whose arms have converged in every round
(`arms_converged`). -/
namespace ZeusPower.Reference.BatchSize
open Library

/-! ### Rows -/

namespace Trials
variable {trials : Trials} {trial : Trial}

theorem numbers_nodup (trials : Trials) : (trials.rows.map (·.trialNumber)).Nodup := by
  rw [trials.numbered]
  exact List.nodup_range'

/-- The other rows stay. -/
theorem updateTrial_rows (hrow : trial ∈ trials.rows) (status : TrialStatus) :
    ∃ before after, trials.rows = before ++ trial :: after ∧
      (trials.updateTrial trial.trialNumber status).rows = before ++ { trial with status } :: after := by
  obtain ⟨before, after, hrows⟩ := List.append_of_mem hrow
  have hnodup := trials.numbers_nodup
  rw [hrows, List.map_append, List.map_cons] at hnodup
  obtain ⟨-, hrest, hdisjoint⟩ := List.nodup_append.mp hnodup
  have hbefore : ∀ t ∈ before, t.trialNumber ≠ trial.trialNumber := fun t ht =>
    hdisjoint _ (List.mem_map_of_mem ht) _ List.mem_cons_self
  have hafter : ∀ t ∈ after, t.trialNumber ≠ trial.trialNumber := by
    intro t ht heq
    exact (List.nodup_cons.mp hrest).1 (heq ▸ List.mem_map_of_mem ht)
  have hsame : ∀ l : List Trial, (∀ t ∈ l, t.trialNumber ≠ trial.trialNumber) →
      l.map (fun t => if t.trialNumber = trial.trialNumber then { t with status } else t) = l := fun l hl =>
    (List.map_congr_left fun t ht => if_neg (hl t ht)).trans (List.map_id l)
  refine ⟨before, after, hrows, ?_⟩
  show trials.rows.map _ = _
  rw [hrows, List.map_append, List.map_cons, if_pos rfl, hsame before hbefore, hsame after hafter]

theorem explorations_createTrial (batchSize : Int) (type : TrialType) :
    (trials.createTrial batchSize type).getExplorationsOfJob =
      trials.getExplorationsOfJob ++
        if type = .exploration then [⟨batchSize, trials.rows.length + 1, type, .dispatched⟩] else [] := by
  unfold getExplorationsOfJob
  rw [createTrial_rows, List.filter_append]
  cases type <;> rfl

/-- An exploration that has not failed. -/
def isExploration (t : Trial) : Bool := t.type = .exploration ∧ t.status ≠ .failed

theorem explorations_updateTrial (hrow : trial ∈ trials.rows) (status : TrialStatus) :
    ∃ before after,
      trials.getExplorationsOfJob = before ++ [trial].filter isExploration ++ after ∧
      (trials.updateTrial trial.trialNumber status).getExplorationsOfJob =
        before ++ [{ trial with status }].filter isExploration ++ after := by
  obtain ⟨before, after, hrows, hrows'⟩ := updateTrial_rows hrow status
  have hfilter : ∀ t : Trial, (before ++ t :: after).filter isExploration =
      before.filter isExploration ++ [t].filter isExploration ++ after.filter isExploration := by
    intro t
    rw [List.append_cons, List.filter_append, List.filter_append]
  refine ⟨before.filter isExploration, after.filter isExploration, ?_, ?_⟩
  · rw [← hfilter, ← hrows]
    rfl
  · rw [← hfilter, ← hrows']
    rfl

end Trials

/-! ### The explorations follow the loop -/

section Follows
variable {job job' : JobState} {answered : List Trial} {training : Option Trial} {t : Trial}
  {d : Dialogue Int (Option Double) (Option (List Int))}

theorem Follows.of_spec [Rounding] (h : Follows job answered training d) (hspec : job'.spec = job.spec) :
    Follows job' answered training d := by
  have hanswer : Trial.answer job' = Trial.answer job := by
    funext t
    unfold Trial.answer JobState.cost
    rw [hspec]
  refine ⟨h.ended, ?_, h.asked⟩
  rw [hspec, hanswer]
  exact h.stands

/-- The loop goes on with a training that has ended. -/
theorem Follows.succeeded [Rounding] (h : Follows job answered (some t) d) (time energy : Double)
    (converged : Bool) :
    ∃ d', Follows job (answered ++ [{ t with status := .succeeded time energy converged }]) none d' := by
  obtain ⟨-, next, rfl⟩ := h.asked t rfl
  obtain ⟨d', hd'⟩ : ∃ d', next (Trial.answer job { t with status := .succeeded time energy converged }).2 = d' :=
    ⟨_, rfl⟩
  refine ⟨d', fun t' ht' => ?_, ?_, fun t' ht' => ?_⟩
  · rcases List.mem_append.mp ht' with ht' | ht'
    · exact h.ended t' ht'
    · obtain rfl := List.mem_singleton.mp ht'
      exact ⟨time, energy, converged, rfl⟩
  · rw [List.map_append, List.map_singleton]
    exact Dialogue.after_snoc.mpr ⟨next, h.stands, hd'⟩
  · cases ht'

/-- One that has failed is asked for again. -/
theorem Follows.failed [Rounding] (h : Follows job answered (some t) d) : Follows job answered none d := by
  refine ⟨h.ended, h.stands, fun t' ht' => ?_⟩
  cases ht'

theorem Follows.dispatched [Rounding] (h : Follows job answered training d) (ht : t ∈ answered ++ training.toList)
    (hdispatched : t.status = .dispatched) : t ∉ answered ∧ training = some t := by
  have hnot : t ∉ answered := by
    intro hmem
    obtain ⟨time, energy, converged, hstatus⟩ := h.ended t hmem
    rw [hdispatched] at hstatus
    cases hstatus
  refine ⟨hnot, ?_⟩
  rcases List.mem_append.mp ht with hmem | hmem
  · exact absurd hmem hnot
  · exact Option.mem_toList.mp hmem

theorem Follows.finished [Rounding] {left : Option (List Int)}
    (h : Follows job answered training (.finished left)) :
    training = none := by
  cases training with
  | none => rfl
  | some t =>
    obtain ⟨-, next, hask⟩ := h.asked t rfl
    cases hask

/-- A trial is handed out for the loop's question, or beside a training that answers it. -/
theorem Follows.next_trial [Rounding] {type : TrialType} {batchSize : Int} (h : Follows job answered training d)
    (hnext : PruningExploreManager.nextBatchSize job (answered ++ training.toList) =
      .ok (.createTrial type batchSize)) :
    ∃ bs next, d = .ask bs next ∧
      ((training = none ∧ type = .exploration ∧ batchSize = bs) ∨
        (∃ t, training = some t) ∧ type = .concurrent ∧ batchSize = job.minCostBatchSize) := by
  rw [h.next] at hnext
  cases d with
  | finished left =>
    cases left with
    | none => cases hnext
    | some goodBs => cases hnext
  | ask bs next =>
    obtain ⟨rfl, rfl⟩ := NextBatchSize.createTrial.inj (Except.ok.inj hnext)
    refine ⟨bs, next, rfl, ?_⟩
    cases training with
    | none => exact Or.inl ⟨rfl, rfl, rfl⟩
    | some t => exact Or.inr ⟨⟨t, rfl⟩, rfl, rfl⟩

/-- Batch sizes are left when the loop is over. -/
theorem Follows.next_left [Rounding] {goodBs : List Int} (h : Follows job answered training d)
    (hnext : PruningExploreManager.nextBatchSize job (answered ++ training.toList) =
      .ok (.goodBatchSizes goodBs)) : d = .finished (some goodBs) := by
  rw [h.next] at hnext
  cases d with
  | ask bs next => cases hnext
  | finished left =>
    cases left with
    | none => cases hnext
    | some left =>
      obtain rfl := NextBatchSize.goodBatchSizes.inj (Except.ok.inj hnext)
      rfl

end Follows

/-- What holds of the rows of a job in every run. -/
def Coherent [Rounding] (record : JobRecord) : Prop :=
  ∃ answered training d, record.trials.getExplorationsOfJob = answered ++ training.toList ∧
    Follows record.job answered training d ∧
    (record.job.stage = .mab → d = .finished (some (record.arms.map (·.batchSize))))

namespace Coherent
variable {record record' : JobRecord}

theorem new [Rounding] {spec : JobSpec} (h : createJob spec = .ok record) : Coherent record := by
  obtain ⟨distinct, rfl⟩ := createJob_ok h
  refine ⟨[], none, pruning spec, rfl, ⟨fun t ht => ?_, Dialogue.after_nil, fun t ht => ?_⟩, fun hstage => ?_⟩
  · cases ht
  · cases ht
  · cases hstage

/-- The end of a training moves the loop if it was an exploration, and nothing otherwise. -/
theorem updateTrial [Rounding] {job : JobState} {trials : Trials} {trial : Trial} (status : TrialStatus)
    {answered : List Trial} {training : Option Trial} {d : Dialogue Int (Option Double) (Option (List Int))}
    (hsplit : trials.getExplorationsOfJob = answered ++ training.toList) (hfollows : Follows job answered training d)
    (hrow : trial ∈ trials.rows) (hdispatched : trial.status = .dispatched) (hstatus : status ≠ .dispatched) :
    ∃ answered' training' d',
      (trials.updateTrial trial.trialNumber status).getExplorationsOfJob = answered' ++ training'.toList ∧
      Follows job answered' training' d' ∧ (training = none → d' = d) := by
  obtain ⟨before, after, hbefore, hafter⟩ := Trials.explorations_updateTrial hrow status
  by_cases htype : trial.type = .exploration
  · have hexploration : Trials.isExploration trial = true :=
      decide_eq_true ⟨htype, by rw [hdispatched]; exact nofun⟩
    rw [List.filter_singleton, hexploration, hsplit] at hbefore
    obtain ⟨hnot, rfl⟩ := hfollows.dispatched (t := trial) (by rw [hbefore]; simp) hdispatched
    have heq : answered ++ trial :: [] = before ++ trial :: after :=
      hbefore.trans (List.append_cons before trial after).symm
    obtain ⟨rfl, -, rfl⟩ := (List.append_cons_inj_of_notMem hnot List.not_mem_nil).mp heq
    rw [List.append_nil, List.filter_singleton] at hafter
    cases status with
    | dispatched => exact absurd rfl hstatus
    | succeeded time energy converged =>
      have hended : Trials.isExploration { trial with status := .succeeded time energy converged } = true :=
        decide_eq_true ⟨htype, nofun⟩
      rw [hended] at hafter
      obtain ⟨d', hd'⟩ := hfollows.succeeded time energy converged
      refine ⟨_, none, d', hafter.trans (List.append_nil _).symm, hd', fun h => ?_⟩
      cases h
    | failed =>
      have hfailed : Trials.isExploration { trial with status := .failed } = false :=
        decide_eq_false fun h => h.2 rfl
      rw [hfailed] at hafter
      exact ⟨answered, none, d, hafter, hfollows.failed, fun _ => rfl⟩
  · have hskip : ∀ status, [{ trial with status }].filter Trials.isExploration = [] := by
      intro status
      simp [Trials.isExploration, htype]
    have hsame : (trials.updateTrial trial.trialNumber status).getExplorationsOfJob = trials.getExplorationsOfJob := by
      rw [hafter, hbefore, hskip status]
      exact congrArg (before ++ · ++ after) (hskip trial.status).symm
    exact ⟨answered, training, d, hsame.trans hsplit, hfollows, fun _ => rfl⟩

theorem touched [Rounding] [Python] (htouched : record.Touched record') (h : Coherent record) :
    Coherent record' := by
  obtain ⟨answered, training, d, hsplit, hfollows, hstage⟩ := h
  cases htouched with
  | same => exact ⟨answered, training, d, hsplit, hfollows, hstage⟩
  | explored type batchSize hpruning hnext =>
    rw [hsplit] at hnext
    have hnew := record.trials.explorations_createTrial batchSize type
    obtain ⟨bs, next, rfl, ⟨rfl, rfl, rfl⟩ | ⟨⟨t, rfl⟩, rfl, -⟩⟩ := hfollows.next_trial hnext
    · refine ⟨answered, some ⟨batchSize, record.trials.rows.length + 1, .exploration, .dispatched⟩,
        .ask batchSize next, ?_, ⟨hfollows.ended, hfollows.stands, fun t ht => ?_⟩, fun h => ?_⟩
      · exact hnew.trans (by rw [hsplit, Option.toList_none, List.append_nil]; rfl)
      · obtain rfl := Option.some.inj ht
        exact ⟨rfl, next, rfl⟩
      · cases hpruning.symm.trans h
    · refine ⟨answered, some t, .ask bs next, ?_, hfollows, fun h => ?_⟩
      · exact hnew.trans ((List.append_nil _).trans hsplit)
      · cases hpruning.symm.trans h
  | started goodBs arms draws batchSize hpruning hnext harms hpick =>
    rw [hsplit] at hnext
    have hnew := record.trials.explorations_createTrial batchSize .mab
    refine ⟨answered, training, d, hnew.trans ((List.append_nil _).trans hsplit), hfollows.of_spec rfl, fun _ => ?_⟩
    rw [hfollows.next_left hnext, GaussianTS.constructMab_batchSizes harms]
  | sampled draws batchSize hmab hpick =>
    have hnew := record.trials.explorations_createTrial batchSize .mab
    exact ⟨answered, training, d, hnew.trans ((List.append_nil _).trans hsplit), hfollows, hstage⟩
  | ended trial time energy converged hrow hdispatched hpruning =>
    obtain ⟨answered', training', d', hsplit', hfollows', -⟩ := updateTrial
      (.succeeded time energy converged) hsplit hfollows hrow hdispatched (by intro h; cases h)
    refine ⟨answered', training', d', hsplit', hfollows'.of_spec (record.withResult_spec ..), fun h => ?_⟩
    rw [record.withResult_stage, hpruning] at h
    cases h
  | observed trial time energy converged arms hrow hdispatched hmab harms =>
    obtain ⟨answered', training', d', hsplit', hfollows', hsame⟩ := updateTrial
      (.succeeded time energy converged) hsplit hfollows hrow hdispatched (by intro h; cases h)
    refine ⟨answered', training', d', hsplit', hfollows'.of_spec (JobRecord.withResult_spec ..), fun _ => ?_⟩
    show d' = .finished (some (arms.map (·.batchSize)))
    obtain rfl := hstage hmab
    rw [GaussianTS.report_batchSizes harms, hsame hfollows.finished]
  | failed trial hrow hdispatched =>
    obtain ⟨answered', training', d', hsplit', hfollows', hsame⟩ := updateTrial .failed hsplit hfollows hrow hdispatched
      (by intro h; cases h)
    refine ⟨answered', training', d', hsplit', hfollows', fun h => ?_⟩
    obtain rfl := hstage h
    exact hsame hfollows.finished

theorem run [Rounding] [Python] {requests : List Request} {jobId : String}
    (h : (machine.run ∅ requests)[jobId]? = some record) :
    Coherent record :=
  jobs_run (fun _ _ => new) (fun hstep hinv => hinv.touched hstep) requests h

/-- In the last stage the loop is over. -/
theorem bandit [Rounding] (h : Coherent record) (hstage : record.job.stage = .mab) :
    (∀ t ∈ record.trials.getExplorationsOfJob, t.Answered) ∧
      (pruning record.job.spec).after (record.trials.getExplorationsOfJob.map (Trial.answer record.job)) =
        some (.finished (some (record.arms.map (·.batchSize)))) := by
  obtain ⟨answered, training, d, hsplit, hfollows, hover⟩ := h
  obtain rfl := hover hstage
  obtain rfl := hfollows.finished
  rw [hsplit, Option.toList_none, List.append_nil]
  exact ⟨hfollows.ended, hfollows.stands⟩

end Coherent

/-! ### The server and the loop -/

def sampleSpec : JobSpec where
  jobId := "job-1"
  jobIdPrefix := "job"
  batchSizes := [16, 32]
  defaultBatchSize := 16
  maxEpochs := 2
  numPruningRounds := 1
  maxPower := 100
  numberOfGpus := 1
  gpuModel := "A40"

/-- Sums in the order of the terms, and whole floats as Python writes them. -/
@[reducible] def samplePython [Rounding] : Python where
  sum := Rounding.sum
  reprFloat x := if x.den = 1 then s!"{x.num}.0" else toString x
  reprStr text := s!"'{text}'"
  sum_eq _ l := Rounding.sum_eq l

def sampleDraws : Draws := ⟨id, fun arm => arm.paramMean, List.Perm.refl⟩

/-- Two clients; both batch sizes converge, while the second client trains the first again. -/
def sampleRequests : List Request :=
  [.registerJob sampleSpec, .predict "job-1" sampleDraws, .predict "job-1" sampleDraws,
    .report "job-1" ⟨⟨16, 1⟩, 1, 10, 1, 1⟩, .predict "job-1" sampleDraws,
    .report "job-1" ⟨⟨32, 3⟩, 1, 8, 1, 1⟩, .predict "job-1" sampleDraws]

attribute [local instance] Rounding.binary64 samplePython in
def sampleRecord : JobRecord := (machine.run ∅ sampleRequests)["job-1"]?.get (by decide +kernel)

attribute [local instance] Rounding.binary64 samplePython in
theorem sample_run : (machine.run ∅ sampleRequests)["job-1"]? = some sampleRecord := (Option.some_get _).symm

attribute [local instance] Rounding.binary64 samplePython in
theorem sample_stage : sampleRecord.job.stage = .mab := by decide +kernel

section Server
variable {requests : List Request} {jobId : String} {record : JobRecord}

/-- **The server prunes as the loop does.** In every run the explorations of a job are the
loop's questions so far, the last one perhaps unanswered, and the explorer answers where the
loop stands. -/
theorem explorer_follows [Rounding] [Python] (h : (machine.run ∅ requests)[jobId]? = some record) :
    ∃ answered training d, record.trials.getExplorationsOfJob = answered ++ training.toList ∧
      Follows record.job answered training d ∧
      PruningExploreManager.nextBatchSize record.job record.trials.getExplorationsOfJob =
        reply record.job training d := by
  obtain ⟨answered, training, d, hsplit, hfollows, -⟩ := Coherent.run h
  refine ⟨answered, training, d, hsplit, hfollows, ?_⟩
  rw [hsplit]
  exact hfollows.next

attribute [local instance] Rounding.binary64 samplePython in
theorem explorer_follows_sample :
    PruningExploreManager.nextBatchSize sampleRecord.job sampleRecord.trials.getExplorationsOfJob =
        .ok (.goodBatchSizes [16, 32]) ∧
      ∃ answered training d, sampleRecord.trials.getExplorationsOfJob = answered ++ training.toList ∧
        Follows sampleRecord.job answered training d ∧
        PruningExploreManager.nextBatchSize sampleRecord.job sampleRecord.trials.getExplorationsOfJob =
          reply sampleRecord.job training d :=
  ⟨by decide +kernel, explorer_follows sample_run⟩

/-- **The bandit's arms are what the loop leaves.** -/
theorem bandit_follows [Rounding] [Python] (h : (machine.run ∅ requests)[jobId]? = some record)
    (hstage : record.job.stage = .mab) :
    (pruning record.job.spec).after (record.trials.getExplorationsOfJob.map (Trial.answer record.job)) =
      some (.finished (some (record.arms.map (·.batchSize)))) :=
  ((Coherent.run h).bandit hstage).2

attribute [local instance] Rounding.binary64 samplePython in
theorem bandit_follows_sample :
    sampleRecord.arms.map (·.batchSize) = [16, 32] ∧
      (pruning sampleRecord.job.spec).after
          (sampleRecord.trials.getExplorationsOfJob.map (Trial.answer sampleRecord.job)) =
        some (.finished (some (sampleRecord.arms.map (·.batchSize)))) :=
  ⟨by decide +kernel, bandit_follows sample_run sample_stage⟩

theorem answersOn_explorations [Rounding] (job : JobState) (explorations : List Trial) (bs : Int) :
    answersOn (explorations.map (Trial.answer job)) bs =
      (PruningExploreManager.explorationsPerBs explorations bs).map fun t => (t.answer job).2 := by
  unfold answersOn PruningExploreManager.explorationsPerBs
  rw [List.filter_map, List.map_map]
  rfl

/-- **An arm has converged in every round.** -/
theorem arms_converged [Rounding] [Python] (h : (machine.run ∅ requests)[jobId]? = some record)
    (hstage : record.job.stage = .mab) :
    ∀ arm ∈ record.arms,
      (PruningExploreManager.explorationsPerBs record.trials.getExplorationsOfJob arm.batchSize).length =
        record.job.spec.numPruningRounds ∧
      ∀ t ∈ PruningExploreManager.explorationsPerBs record.trials.getExplorationsOfJob arm.batchSize,
        ∃ time energy, t.status = .succeeded time energy true := by
  intro arm harm
  obtain ⟨-, hover⟩ := (Coherent.run h).bandit hstage
  obtain ⟨hlength, hconverged⟩ :=
    pruneRounds_leaves record.job.distinct hover arm.batchSize (List.mem_map_of_mem harm)
  rw [answersOn_explorations] at hlength hconverged
  rw [List.length_map] at hlength
  refine ⟨hlength, fun t ht => ?_⟩
  have hsome : (t.answer record.job).2.isSome = true := hconverged _ (List.mem_map_of_mem ht)
  unfold Trial.answer at hsome
  dsimp only at hsome
  split at hsome
  · next time energy hstatus => exact ⟨time, energy, hstatus⟩
  · cases hsome

attribute [local instance] Rounding.binary64 samplePython in
theorem arms_converged_sample :
    sampleRecord.arms.map (·.batchSize) = [16, 32] ∧
      ∀ arm ∈ sampleRecord.arms,
        (PruningExploreManager.explorationsPerBs sampleRecord.trials.getExplorationsOfJob arm.batchSize).length =
          sampleRecord.job.spec.numPruningRounds ∧
        ∀ t ∈ PruningExploreManager.explorationsPerBs sampleRecord.trials.getExplorationsOfJob arm.batchSize,
          ∃ time energy, t.status = .succeeded time energy true :=
  ⟨by decide +kernel, arms_converged sample_run sample_stage⟩

/-! ### Nothing has converged -/

/-- The loop has ended with nothing. -/
def Exhausted [Rounding] (record : JobRecord) : Prop :=
  record.job.stage = .pruning ∧ Follows record.job record.trials.getExplorationsOfJob none (.finished none)

theorem Exhausted.touched [Rounding] [Python] {record' : JobRecord} (h : Exhausted record)
    (htouched : record.Touched record') :
    Exhausted record' := by
  obtain ⟨hpruning, hfollows⟩ := h
  have hsplit : record.trials.getExplorationsOfJob = record.trials.getExplorationsOfJob ++ (none : Option Trial).toList :=
    (List.append_nil _).symm
  have hreply := hfollows.next
  rw [← hsplit] at hreply
  have hended : ∀ {trial : Trial} {status : TrialStatus}, trial ∈ record.trials.rows → trial.status = .dispatched →
      status ≠ .dispatched →
      Follows record.job (record.trials.updateTrial trial.trialNumber status).getExplorationsOfJob none (.finished none) := by
    intro trial status hrow hdispatched hstatus
    obtain ⟨answered, training, d, hsplit', hfollows', hsame⟩ :=
      Coherent.updateTrial status hsplit hfollows hrow hdispatched hstatus
    obtain rfl := hsame rfl
    obtain rfl := hfollows'.finished
    rw [hsplit', Option.toList_none, List.append_nil]
    exact hfollows'
  cases htouched with
  | same => exact ⟨hpruning, hfollows⟩
  | explored type batchSize _ hnext => cases hreply.symm.trans hnext
  | started goodBs arms draws batchSize _ hnext harms hpick => cases hreply.symm.trans hnext
  | sampled draws batchSize hmab hpick => cases hpruning.symm.trans hmab
  | ended trial time energy converged hrow hdispatched _ =>
    refine ⟨(record.withResult_stage ..).trans hpruning, Follows.of_spec ?_ (record.withResult_spec ..)⟩
    exact hended hrow hdispatched (by intro h; cases h)
  | observed trial time energy converged arms hrow hdispatched hmab harms => cases hpruning.symm.trans hmab
  | failed trial hrow hdispatched => exact ⟨hpruning, hended hrow hdispatched (by intro h; cases h)⟩

theorem Exhausted.of_error [Rounding] {e : BsoError} (h : Coherent record)
    (hnext : PruningExploreManager.nextBatchSize record.job record.trials.getExplorationsOfJob = .error e) :
    Exhausted record := by
  obtain ⟨answered, training, d, hsplit, hfollows, hover⟩ := h
  rw [hsplit, hfollows.next] at hnext
  cases d with
  | ask bs next => cases hnext
  | finished left =>
    cases left with
    | some goodBs => cases hnext
    | none =>
      obtain rfl := hfollows.finished
      have hall := hsplit.trans (List.append_nil answered)
      refine ⟨?_, by rw [hall]; exact hfollows⟩
      cases hstage : record.job.stage with
      | pruning => rfl
      | mab => cases hover hstage

theorem Exhausted.predict [Rounding] [Python] (h : Exhausted record) (draws : Draws) :
    record.predict draws = .error (.serverRuntime
      "No converged batch sizes has observed. Reconfigure batch_sizes and re-launch the job.") := by
  have hnext := h.2.next
  rw [Option.toList_none, List.append_nil] at hnext
  unfold JobRecord.predict
  simp only [h.1, hnext]
  rfl

/-- **A job that nothing has converged for is lost**: until it is deleted it gets no other
batch size, also when trainings that were under way end well. -/
theorem exhausted_forever [Rounding] [Python] {later : List Request} {e : BsoError}
    (h : (machine.run ∅ requests)[jobId]? = some record)
    (hnext : PruningExploreManager.nextBatchSize record.job record.trials.getExplorationsOfJob = .error e)
    (hkept : .deleteJob jobId ∉ later) (draws : Draws) :
    machine.answer (machine.run ∅ (requests ++ later)) (.predict jobId draws) =
      .error (.serverRuntime
        "No converged batch sizes has observed. Reconfigure batch_sizes and re-launch the job.") := by
  obtain ⟨record', hrun, hsteps⟩ := record_run h hkept
  have hexhausted : Exhausted record' := by
    clear hrun
    induction hsteps with
    | refl => exact .of_error (Coherent.run h) hnext
    | tail _ hstep ih => exact ih.touched hstep
  rw [machine.run_append]
  show Response.ofExcept .trial (Database.transact _ jobId _ (·.predict draws)).1 = _
  unfold Database.transact
  simp only [hrun, hexhausted.predict draws]
  rfl

/-- The last two epochs of the only trainings do not reach the target. -/
def lostRequests : List Request :=
  [.registerJob sampleSpec, .predict "job-1" sampleDraws, .predict "job-1" sampleDraws,
    .report "job-1" ⟨⟨16, 1⟩, 1, 10, 0, 2⟩, .predict "job-1" sampleDraws,
    .report "job-1" ⟨⟨32, 3⟩, 1, 8, 0, 2⟩]

attribute [local instance] Rounding.binary64 samplePython in
def lostRecord : JobRecord := (machine.run ∅ lostRequests)["job-1"]?.get (by decide +kernel)

attribute [local instance] Rounding.binary64 samplePython in
/-- The training that was under way converges, and it does not help. -/
theorem exhausted_forever_sample :
    machine.answer (machine.run ∅ (lostRequests ++ [.report "job-1" ⟨⟨16, 2⟩, 1, 10, 1, 1⟩]))
        (.predict "job-1" sampleDraws) =
      .error (.serverRuntime
        "No converged batch sizes has observed. Reconfigure batch_sizes and re-launch the job.") := by
  have hrun : (machine.run ∅ lostRequests)["job-1"]? = some lostRecord := (Option.some_get _).symm
  have hlost : PruningExploreManager.nextBatchSize lostRecord.job lostRecord.trials.getExplorationsOfJob =
      .error (.serverRuntime
        "No converged batch sizes has observed. Reconfigure batch_sizes and re-launch the job.") := by
    decide +kernel
  exact exhausted_forever hrun hlost (by simp) sampleDraws

end Server

end ZeusPower.Reference.BatchSize
