import ZeusPower.Reference.BatchSize.JobLocks
import ZeusPower.Reference.BatchSize.Server

/-! Requests that take time (the endpoints in `server/router.py`).

An endpoint comes to the lock of its job. Inside it reads the rows of the job, in a session
of its own, and later commits what it makes of them, or rolls back; where there is no job
the error is raised at once. Between the two others arrive, and requests of other jobs read
and commit. A registration takes the lock of its prefix instead, and is one step here.

`machine` answers a request in one step. `served_in_turn` says when it may: as long as no
delete leaves others waiting (`JobLocks`), all requests are answered, and all rows are left,
as if each had been one step, at the time it was answered. -/
namespace ZeusPower.Reference.BatchSize.Sessions
open Library

/-! ### Sessions -/

/-- A request that takes the lock of its job. -/
inductive Call where
  | deleteJob
  | endTrial (id : TrialId)
  | predict (draws : Draws)
  | report (result : TrainingResult)

def Call.endpoint : Call → JobLocks.Endpoint
  | deleteJob => .deleteJob
  | endTrial _ => .endTrial
  | predict _ => .predict
  | report _ => .report

def Call.request (jobId : String) : Call → Request
  | deleteJob => .deleteJob jobId
  | endTrial id => .endTrial jobId id
  | predict draws => .predict jobId draws
  | report result => .report jobId result

inductive Progress where
  | begun
  | read (record : JobRecord)
  | answered

structure Session where
  call : Call
  progress : Progress

/-- The locks of a job, each with who is inside and then who waits, and the one in the table. -/
structure Line where
  made : ℕ
  sessions : ℕ → List Session
  entry : Option ℕ

namespace Line
variable (line : Line) (lock : ℕ)

def empty : Line := ⟨0, fun _ => [], none⟩

/-- What the locks know. -/
def locks : JobLocks.State :=
  ⟨line.made, (List.map fun session => session.call.endpoint) ∘ line.sessions, line.entry⟩

def inside : Option Session := (line.sessions lock).head?

def arrive (call : Call) : Line :=
  match line.entry with
  | none => ⟨line.made + 1, Function.update line.sessions line.made [⟨call, .begun⟩], some line.made⟩
  | some lock =>
    { line with sessions := Function.update line.sessions lock (line.sessions lock ++ [⟨call, .begun⟩]) }

/-- Whoever is inside goes on. -/
def proceed (progress : Progress) : Line :=
  let sessions := (line.sessions lock).modifyHead fun session => { session with progress }
  { line with sessions := Function.update line.sessions lock sessions }

def leave : Line :=
  match line.sessions lock with
  | [] => line
  | session :: waiting =>
    { line with
      sessions := Function.update line.sessions lock waiting
      entry := if session.call.endpoint = .deleteJob then none else line.entry }

end Line

structure State where
  lines : String → Line
  db : Database

def State.empty : State := ⟨fun _ => .empty, ∅⟩

def State.withLine (s : State) (jobId : String) (line : Line) : State :=
  { s with lines := Function.update s.lines jobId line }

inductive Event where
  | register (spec : JobSpec)
  | arrive (jobId : String) (call : Call)
  | read (jobId : String) (lock : ℕ)
  | commit (jobId : String) (lock : ℕ)
  | leave (jobId : String) (lock : ℕ)

section Step
variable [Rounding] [Python]

/-- A request does to the rows that its session has read what it does to a job, and the
rows are written unless it raises. -/
def commit (db : Database) (jobId : String) (record : JobRecord) (request : Request) : Response × Database :=
  match BatchSize.step (db.insert jobId record) request with
  | (.error e, _) => (.error e, db)
  | (response, db) => (response, db)

/-- A step, and the request that is answered in it. -/
def step (s : State) : Event → Option (Request × Response) × State
  | .register spec =>
    let (response, db) := BatchSize.step s.db (.registerJob spec)
    (some (.registerJob spec, response), { s with db })
  | .arrive jobId call => (none, s.withLine jobId ((s.lines jobId).arrive call))
  | .read jobId lock =>
    match (s.lines jobId).inside lock with
    | some ⟨call, .begun⟩ =>
      match s.db[jobId]? with
      | none =>
        (some (call.request jobId, BatchSize.machine.answer s.db (call.request jobId)),
          s.withLine jobId ((s.lines jobId).proceed lock .answered))
      | some record => (none, s.withLine jobId ((s.lines jobId).proceed lock (.read record)))
    | _ => (none, s)
  | .commit jobId lock =>
    match (s.lines jobId).inside lock with
    | some ⟨call, .read record⟩ =>
      let (response, db) := commit s.db jobId record (call.request jobId)
      (some (call.request jobId, response),
        { s.withLine jobId ((s.lines jobId).proceed lock .answered) with db })
    | _ => (none, s)
  | .leave jobId lock =>
    match (s.lines jobId).inside lock with
    | some ⟨_, .answered⟩ => (none, s.withLine jobId ((s.lines jobId).leave lock))
    | _ => (none, s)

def machine : Machine State Event (Option (Request × Response)) := ⟨step⟩

end Step

/-! ### The locks are the locks -/

namespace Line
variable {line : Line} {lock : ℕ} {session : Session}

theorem locks_arrive (line : Line) (call : Call) :
    (line.arrive call).locks = JobLocks.machine.next line.locks (.arrive call.endpoint) := by
  show (line.arrive call).locks = (JobLocks.arrive line.locks call.endpoint).2
  unfold arrive JobLocks.arrive locks
  cases hentry : line.entry with
  | none =>
    dsimp only
    rw [Function.comp_update]
    rfl
  | some lock =>
    dsimp only
    rw [Function.comp_update, List.map_append]
    rfl

theorem locks_proceed (line : Line) (lock : ℕ) (progress : Progress) :
    (line.proceed lock progress).locks = line.locks := by
  have hsame : ((line.sessions lock).modifyHead fun session => { session with progress }).map
      (fun session => session.call.endpoint) = (line.sessions lock).map fun session => session.call.endpoint := by
    cases line.sessions lock <;> rfl
  unfold proceed locks
  dsimp only
  rw [Function.comp_update, hsame]
  congr 1
  exact Function.update_eq_self lock line.locks.queues

theorem locks_leave (line : Line) (lock : ℕ) :
    (line.leave lock).locks = JobLocks.machine.next line.locks (.leave lock) := by
  show (line.leave lock).locks = (JobLocks.leave line.locks lock).2
  unfold leave JobLocks.leave locks
  simp only [Function.comp_apply]
  cases hsessions : line.sessions lock with
  | nil => rfl
  | cons session waiting =>
    simp only [List.map_cons, Function.comp_update]
    split <;> rfl

/-! ### Orderly lines -/

/-- All sessions are at the lock in the table, and those that wait have not begun to read. -/
structure Orderly (line : Line) : Prop where
  gathered : JobLocks.Gathered line.locks
  begun : ∀ lock, ∀ session ∈ (line.sessions lock).tail, session.progress = .begun

namespace Orderly

theorem empty : Line.empty.Orderly where
  gathered lock hlock := absurd rfl hlock
  begun _ _ h := by cases h

/-- One session is inside. -/
theorem inside_eq (h : line.Orderly) {lock' : ℕ} {session' : Session} (hinside : line.inside lock = some session)
    (hinside' : line.inside lock' = some session') : lock = lock' := by
  have hheld : ∀ {lock session}, line.inside lock = some session → line.locks.holder lock ≠ none := by
    intro lock session hinside
    show ((line.sessions lock).map _).head? ≠ none
    rw [List.head?_map]
    show (line.inside lock).map _ ≠ none
    rw [hinside]
    exact Option.some_ne_none _
  exact h.gathered.exclusive lock lock' (hheld hinside) (hheld hinside')

theorem arrive (h : line.Orderly) (call : Call) : (line.arrive call).Orderly where
  gathered := by
    rw [locks_arrive]
    refine h.gathered.next _ ?_
    rintro ⟨lock, first, waiting, hevent, -⟩
    cases hevent
  begun := by
    intro lock session hsession
    unfold Line.arrive at hsession
    split at hsession
    all_goals
      dsimp only at hsession
      rw [Function.update_apply] at hsession
      split at hsession
    · cases hsession
    · exact h.begun lock session hsession
    · next taken _ heq =>
      subst heq
      cases hline : line.sessions lock with
      | nil =>
        rw [hline] at hsession
        cases hsession
      | cons first rest =>
        rw [hline, List.cons_append, List.tail_cons] at hsession
        rcases List.mem_append.mp hsession with hrest | hnew
        · exact h.begun lock session (by rw [hline]; exact hrest)
        · rw [List.mem_singleton.mp hnew]
    · exact h.begun lock session hsession

theorem proceed (h : line.Orderly) (lock : ℕ) (progress : Progress) : (line.proceed lock progress).Orderly where
  gathered := by
    rw [locks_proceed]
    exact h.gathered
  begun := by
    intro other session hsession
    unfold Line.proceed at hsession
    dsimp only at hsession
    rw [Function.update_apply] at hsession
    split at hsession
    · next heq =>
      rw [heq] at *
      refine h.begun lock session ?_
      cases hline : line.sessions lock with
      | nil =>
        rw [hline] at hsession
        cases hsession
      | cons first rest =>
        rw [hline] at hsession
        exact hsession
    · exact h.begun other session hsession

theorem leave (h : line.Orderly) (lock : ℕ)
    (hkept : ¬JobLocks.Orphans ⟨line.locks, .leave lock, JobLocks.machine.answer line.locks (.leave lock)⟩) :
    (line.leave lock).Orderly where
  gathered := by
    rw [locks_leave]
    exact h.gathered.next _ hkept
  begun := by
    intro other session hsession
    unfold Line.leave at hsession
    cases hline : line.sessions lock with
    | nil =>
      rw [hline] at hsession
      exact h.begun other session hsession
    | cons first rest =>
      rw [hline] at hsession
      dsimp only at hsession
      rw [Function.update_apply] at hsession
      split at hsession
      · exact h.begun lock session (by rw [hline]; exact List.mem_of_mem_tail hsession)
      · exact h.begun other session hsession

end Orderly

/-! ### Who has read what -/

/-- The session inside with a lock has read these rows. -/
def HasRead (line : Line) (lock : ℕ) (record : JobRecord) : Prop :=
  ∃ call, line.inside lock = some ⟨call, .read record⟩

theorem HasRead.of_arrive {record : JobRecord} {call : Call} (h : (line.arrive call).HasRead lock record) :
    line.HasRead lock record := by
  obtain ⟨reader, hinside⟩ := h
  refine ⟨reader, ?_⟩
  unfold inside Line.arrive at *
  split at hinside
  all_goals
    dsimp only at hinside
    rw [Function.update_apply] at hinside
    split at hinside
  · cases hinside
  · exact hinside
  · next taken _ heq =>
    subst heq
    cases hline : line.sessions lock with
    | nil =>
      rw [hline] at hinside
      cases hinside
    | cons first rest =>
      rw [hline] at hinside
      exact hinside
  · exact hinside

theorem HasRead.of_proceed {record : JobRecord} {progress : Progress} {other : ℕ}
    (h : (line.proceed lock progress).HasRead other record) :
    progress = .read record ∨ other ≠ lock ∧ line.HasRead other record := by
  obtain ⟨reader, hinside⟩ := h
  unfold inside Line.proceed at hinside
  dsimp only at hinside
  rw [Function.update_apply] at hinside
  split at hinside
  · cases hline : line.sessions lock with
    | nil =>
      rw [hline] at hinside
      cases hinside
    | cons first rest =>
      rw [hline] at hinside
      exact Or.inl (Session.mk.inj (Option.some.inj hinside)).2
  · next hne => exact Or.inr ⟨hne, reader, hinside⟩

/-- The next that gets in has read nothing. -/
theorem HasRead.of_leave {record : JobRecord} {other : ℕ} (hline : line.Orderly)
    (h : (line.leave lock).HasRead other record) : line.HasRead other record := by
  obtain ⟨reader, hinside⟩ := h
  unfold inside Line.leave at hinside
  cases hsessions : line.sessions lock with
  | nil =>
    rw [hsessions] at hinside
    exact ⟨reader, hinside⟩
  | cons first rest =>
    rw [hsessions] at hinside
    dsimp only at hinside
    rw [Function.update_apply] at hinside
    split at hinside
    · have hbegun := hline.begun lock _ (by rw [hsessions]; exact List.mem_of_mem_head? hinside)
      cases hbegun
    · exact ⟨reader, hinside⟩

end Line

/-! ### Requests in one step -/

section Requests
variable {db : Database} {jobId : String} {record : JobRecord}

theorem transact_error {α : Type} {unknown e : BsoError} {body : JobRecord → Except BsoError (α × JobRecord)}
    (h : (db.transact jobId unknown body).1 = .error e) : (db.transact jobId unknown body).2 = db := by
  unfold Database.transact at h ⊢
  split
  · rfl
  · next hfound =>
    simp only [hfound] at h
    split
    · rfl
    · next hbody =>
      rw [hbody] at h
      cases h

theorem ofExcept_error {α : Type} {answer : α → Response} (hanswer : ∀ a e, answer a ≠ .error e) {e : BsoError}
    {result : Except BsoError α} (h : Response.ofExcept answer result = .error e) : result = .error e := by
  cases result with
  | error e' => exact congrArg Except.error (Response.error.inj h)
  | ok a => exact absurd h (hanswer a e)

variable [Rounding] [Python]

/-- **A request that raises is rolled back.** -/
theorem rolled_back {request : Request} {e : BsoError} (h : BatchSize.machine.answer db request = .error e) :
    BatchSize.machine.next db request = db := by
  cases request with
  | registerJob spec =>
    have hraised := ofExcept_error (fun _ _ h => by cases h) h
    show (db.registerJob spec).2 = db
    unfold Database.registerJob at hraised ⊢
    split
    · split <;> rfl
    · next hfound =>
      simp only [hfound] at hraised
      split
      · rfl
      · next hcreate =>
        rw [hcreate] at hraised
        cases hraised
  | deleteJob jobId =>
    have hraised := ofExcept_error (fun _ _ h => by cases h) h
    show (db.deleteJob jobId).2 = db
    unfold Database.deleteJob at hraised ⊢
    split
    · rfl
    · next hfound =>
      simp only [hfound] at hraised
      cases hraised
  | predict jobId draws => exact transact_error (ofExcept_error (fun _ _ h => by cases h) h)
  | report jobId result => exact transact_error (ofExcept_error (fun _ _ h => by cases h) h)
  | endTrial jobId id =>
    have hraised : (db.endTrial jobId id).1 = .error e := ofExcept_error (fun _ _ h => by cases h) h
    show (db.endTrial jobId id).2 = db
    unfold Database.endTrial at hraised ⊢
    split
    · rfl
    · next hvalid =>
      rw [if_neg hvalid] at hraised
      exact transact_error hraised

/-- Where there is no job nothing is done. -/
theorem next_unknown (call : Call) (h : db[jobId]? = none) :
    BatchSize.machine.next db (call.request jobId) = db := by
  have htransact : ∀ {α : Type} (unknown : BsoError) (body : JobRecord → Except BsoError (α × JobRecord)),
      (db.transact jobId unknown body).2 = db := by
    intro α unknown body
    unfold Database.transact
    rw [h]
  cases call with
  | deleteJob =>
    show (db.deleteJob jobId).2 = db
    unfold Database.deleteJob
    rw [h]
  | endTrial id =>
    show (db.endTrial jobId id).2 = db
    unfold Database.endTrial
    split
    · rfl
    · exact htransact _ _
  | predict draws => exact htransact _ _
  | report result => exact htransact _ _

/-- The rows of other jobs stay. -/
theorem next_other (call : Call) {other : String} (h : jobId ≠ other) :
    (BatchSize.machine.next db (call.request jobId))[other]? = db[other]? := by
  have htransact : ∀ {α : Type} (unknown : BsoError) (body : JobRecord → Except BsoError (α × JobRecord)),
      (db.transact jobId unknown body).2[other]? = db[other]? := by
    intro α unknown body
    unfold Database.transact
    split
    · rfl
    · split
      · rfl
      · exact Map.lookup_insert_ne _ _ h
  cases call with
  | deleteJob =>
    show (db.deleteJob jobId).2[other]? = db[other]?
    unfold Database.deleteJob
    split
    · rfl
    · rw [Map.lookup_erase, if_neg h]
  | endTrial id =>
    show (db.endTrial jobId id).2[other]? = db[other]?
    unfold Database.endTrial
    split
    · rfl
    · exact htransact _ _
  | predict draws => exact htransact _ _
  | report result => exact htransact _ _

/-- What has been read is still so. -/
theorem commit_eq (h : db[jobId]? = some record) (request : Request) :
    commit db jobId record request = BatchSize.machine.step db request := by
  unfold commit
  rw [Map.insert_self h]
  show _ = BatchSize.step db request
  split
  · next e after heq =>
    have hsame : BatchSize.machine.next db request = db := rolled_back (congrArg Prod.fst heq)
    exact Prod.ext (congrArg Prod.fst heq).symm hsame.symm
  · next response after hresponse heq => exact heq.symm

end Requests

/-! ### One after the other -/

/-- What a session has read is what the database holds. -/
structure InTurn (s : State) : Prop where
  orderly : ∀ jobId, (s.lines jobId).Orderly
  current : ∀ jobId lock record, (s.lines jobId).HasRead lock record → s.db[jobId]? = some record

/-- A delete comes out while others wait for its lock. -/
def Orphans (x : Entry State Event (Option (Request × Response))) : Prop :=
  ∃ jobId lock call, x.event = .leave jobId lock ∧ (x.before.lines jobId).inside lock = some ⟨call, .answered⟩ ∧
    let locks := (x.before.lines jobId).locks
    JobLocks.Orphans ⟨locks, .leave lock, JobLocks.machine.answer locks (.leave lock)⟩

namespace InTurn
variable {s : State}

theorem empty : InTurn .empty where
  orderly _ := .empty
  current _ _ _ h := by
    obtain ⟨call, hinside⟩ := h
    cases hinside

theorem withLine (h : InTurn s) {jobId : String} {line : Line} (hline : line.Orderly)
    (hread : ∀ lock record, line.HasRead lock record → s.db[jobId]? = some record) :
    InTurn (s.withLine jobId line) where
  orderly other := by
    show (Function.update s.lines jobId line other).Orderly
    rw [Function.update_apply]
    split
    · exact hline
    · exact h.orderly other
  current other lock record hother := by
    change (Function.update s.lines jobId line other).HasRead lock record at hother
    rw [Function.update_apply] at hother
    split at hother
    · next heq =>
      rw [heq]
      exact hread lock record hother
    · exact h.current other lock record hother

variable [Rounding] [Python]

/-- A registration finds the rows of a job or makes them. -/
theorem register (h : InTurn s) (spec : JobSpec) : InTurn (machine.next s (.register spec)) where
  orderly := h.orderly
  current jobId lock record hread := registerJob_present spec (h.current jobId lock record hread)

/-- Nobody else of the job is inside when a request commits. -/
theorem committed (h : InTurn s) {jobId : String} {lock : ℕ} {call : Call} {record : JobRecord}
    (hinside : (s.lines jobId).inside lock = some ⟨call, .read record⟩) :
    InTurn { s.withLine jobId ((s.lines jobId).proceed lock .answered) with
      db := BatchSize.machine.next s.db (call.request jobId) } where
  orderly other := by
    show (Function.update s.lines jobId ((s.lines jobId).proceed lock .answered) other).Orderly
    rw [Function.update_apply]
    split
    · exact (h.orderly jobId).proceed lock .answered
    · exact h.orderly other
  current other lock' record' hother := by
    change (Function.update s.lines jobId ((s.lines jobId).proceed lock .answered) other).HasRead lock'
      record' at hother
    rw [Function.update_apply] at hother
    split at hother
    · rcases hother.of_proceed with hanswered | ⟨hne, reader, hinside'⟩
      · cases hanswered
      · exact absurd ((h.orderly jobId).inside_eq hinside' hinside) hne
    · next hne =>
      show (BatchSize.machine.next s.db (call.request jobId))[other]? = some record'
      rw [next_other call (Ne.symm hne)]
      exact h.current other lock' record' hother

/-- **A step is a request in one step, or none.** -/
theorem next (h : InTurn s) (e : Event) (hkept : ¬Orphans ⟨s, e, machine.answer s e⟩) :
    InTurn (machine.next s e) ∧ Machine.Does BatchSize.machine s.db (machine.answer s e) (machine.next s e).db := by
  have hidle : InTurn s ∧ Machine.Does BatchSize.machine s.db none s.db := ⟨h, rfl⟩
  cases e with
  | register spec => exact ⟨h.register spec, rfl⟩
  | arrive jobId call =>
    refine ⟨h.withLine ((h.orderly jobId).arrive call) fun lock record hread => ?_, rfl⟩
    exact h.current jobId lock record hread.of_arrive
  | read jobId lock =>
    unfold Machine.next Machine.answer machine step
    dsimp only
    split
    · next call hinside =>
      split
      · next hnone =>
        refine ⟨h.withLine ((h.orderly jobId).proceed lock _) fun other record hread => ?_, ?_⟩
        · rcases hread.of_proceed with hanswered | ⟨-, hread⟩
          · cases hanswered
          · exact h.current jobId other record hread
        · exact Prod.ext rfl (next_unknown call hnone)
      · next record hsome =>
        refine ⟨h.withLine ((h.orderly jobId).proceed lock _) fun other record' hread => ?_, rfl⟩
        rcases hread.of_proceed with hread | ⟨-, hread⟩
        · rw [hsome, (Progress.read.inj hread)]
        · exact h.current jobId other record' hread
    · exact hidle
  | commit jobId lock =>
    unfold Machine.next Machine.answer machine step
    dsimp only
    split
    · next call record hinside =>
      rw [commit_eq (h.current jobId lock record ⟨call, hinside⟩)]
      exact ⟨h.committed hinside, rfl⟩
    · exact hidle
  | leave jobId lock =>
    unfold Machine.next Machine.answer machine step
    dsimp only
    split
    · next call hinside =>
      have hstay : ¬JobLocks.Orphans ⟨(s.lines jobId).locks, .leave lock, _⟩ := fun horphans =>
        hkept ⟨jobId, lock, call, rfl, hinside, horphans⟩
      refine ⟨h.withLine ((h.orderly jobId).leave lock hstay) fun other record hread => ?_, rfl⟩
      exact h.current jobId other record (hread.of_leave (h.orderly jobId))
    · exact hidle

end InTurn

/-- **Under their locks requests are atomic.** As long as no delete leaves others waiting, the
rows and the answers of any interleaving are those of `BatchSize.machine` for the requests in the
order in which they are answered. -/
theorem served_in_turn [Rounding] [Python] {events : List Event}
    (hkept : ∀ x ∈ machine.trace .empty events, ¬Orphans x) :
    let served := (machine.trace .empty events).filterMap Entry.outcome
    (machine.run .empty events).db = BatchSize.machine.run ∅ (served.map Prod.fst) ∧
      served = (BatchSize.machine.trace ∅ (served.map Prod.fst)).map fun x => (x.event, x.outcome) := by
  have hstep : ∀ s e, ¬Orphans ⟨s, e, machine.answer s e⟩ → InTurn s →
      InTurn (machine.next s e) ∧
        Machine.Does BatchSize.machine s.db (machine.answer s e) (machine.next s e).db :=
    fun _ e hkept h => h.next e hkept
  obtain ⟨hrun, htrace⟩ := Machine.refines hstep InTurn.empty hkept
  exact ⟨hrun.symm, htrace.symm⟩

end ZeusPower.Reference.BatchSize.Sessions
