import ZeusPower.Device.JetsonRounds
import ZeusPower.Library.Machine

/-! The threads of the Jetson backend, step by step.

The polling thread takes the time, waits for the lock, reads the rails one by one and
releases the lock; any number of client threads take snapshots, which wait for the same
lock and copy the accumulators one by one. A run lets any thread take the next step, and
a thread that waits for the lock stands still (`blocked`).

Whoever holds the lock finds the accumulators as a whole number of rounds has left them
(`Consistent`), so every call returns what it would return between two rounds
(`returns_between_rounds`): one sum for each rail, over the same rounds for all
(`snapshots_are_cuts`). -/
namespace ZeusPower.Device.JetsonThreads
open Library JetsonSoCBackend

/-- What the polling thread meets: the time it starts at and the time of each round, and
the files at each turn of each round. -/
structure Schedule where
  times : ℕ → Double
  sysfs : ℕ → ℕ → Sysfs

namespace Schedule
variable (schedule : Schedule)

def round (i : ℕ) : Round := ⟨schedule.times (i + 1), schedule.sysfs i⟩

def rounds (n : ℕ) : List Round := (List.range n).map schedule.round

theorem rounds_succ (n : ℕ) : schedule.rounds (n + 1) = schedule.rounds n ++ [schedule.round n] := by
  rw [rounds, rounds, List.range_succ, List.map_append, List.map_singleton]

/-- What the first `n` rounds add up to for the rail at place `m`: in each the power read, if
it was read, over the time since the round before. -/
def energyMj [Rounding] (rail : PowerRail) (m n : ℕ) : Double :=
  (List.range n).foldl (fun mj i =>
    match rail.readPowerMw (schedule.sysfs i m) with
    | .ok powerMw => fl (mj + fl (powerMw * fl (schedule.times (i + 1) - schedule.times i)))
    | .error _ => mj) 0

theorem accumulated_rounds [Rounding] (rail : PowerRail) (m n : ℕ) :
    RightSum.accumulated 0 (schedule.times 0) (rail.readings m (schedule.rounds n)) =
      schedule.energyMj rail m n := by
  rw [PowerRail.readings, rounds, List.map_map]
  refine (RightSum.accumulated_range 0 schedule.times
    (fun i => (rail.readPowerMw (schedule.sysfs i m)).toOption) n).trans ?_
  unfold energyMj
  congr 1
  funext mj i
  cases rail.readPowerMw (schedule.sysfs i m) <;> rfl

/-- In exact arithmetic, a sum over the rounds. -/
theorem energyMj_eq [Rounding] [Exact] (rail : PowerRail) (m n : ℕ) :
    schedule.energyMj rail m n =
      ∑ i ∈ Finset.range n, rail.powerMw m (schedule.round i) * (schedule.times (i + 1) - schedule.times i) := by
  rw [← accumulated_rounds, RightSum.accumulated_eq, zero_add, PowerRail.readings, rounds, List.map_map]
  exact RightSum.total_range schedule.times
    (fun i => (rail.readPowerMw (schedule.sysfs i m)).toOption) n

end Schedule

/-! ### The threads -/

/-- A call of a client. -/
inductive Call where
  | snapshotEnergyJ
  | computeEnergyDeltaJ (startSnap : Map String Double)

/-- What a call returns, once it has its snapshot. -/
def Call.answer [Rounding] (snap : Map String Double) : Call → Map String Double
  | snapshotEnergyJ => snap
  | computeEnergyDeltaJ startSnap =>
    Map.overwrite (fun key endE => fl (endE - startSnap[key]?.getD 0)) ∅ snap

/-- `energy_mutex_`, with what its holder has done so far. -/
inductive Lock (ι : Type) where
  | free
  /-- The polling thread, about to visit the rail at this place. -/
  | poller (turn : ℕ)
  /-- A client, the copy it has made, and the keys it has still to copy. -/
  | client (i : ι) (call : Call) (snap : Map String Double) (rest : List String)

structure Threads (ι : Type) where
  cumulativeEnergyMj : Map String Double
  lock : Lock ι
  prevTs : Double
  /-- The time of the round the polling thread is in, if it is in one. -/
  dt : Option Double
  /-- The rounds the polling thread has completed. -/
  completed : ℕ

/-- Whose turn it is. A client that is in no call makes this one. -/
inductive Move (ι : Type) where
  | poller
  | client (i : ι) (call : Call)

inductive Outcome (ι : Type) where
  | moved
  | blocked
  | roundCompleted
  | returned (i : ι) (call : Call) (result : Map String Double)

namespace Outcome
variable {ι : Type}

def completesRound : Outcome ι → Bool
  | roundCompleted => true
  | _ => false

def returns : Outcome ι → Bool
  | returned _ _ _ => true
  | _ => false

end Outcome

section Machine
variable (rails : List PowerRail) (schedule : Schedule) {ι : Type}

/-- The constructor, with the polling thread about to run. -/
def start : Threads ι := ⟨zeroed rails, .free, schedule.times 0, none, 0⟩

def pollerStep [Rounding] (s : Threads ι) : Outcome ι × Threads ι :=
  match s.dt, s.lock with
  | none, _ =>
    let now := schedule.times (s.completed + 1)
    (.moved, { s with dt := some (fl (now - s.prevTs)), prevTs := now })
  | some _, .free => (.moved, { s with lock := .poller 0 })
  | some _, .client _ _ _ _ => (.blocked, s)
  | some dt, .poller turn =>
    match rails[turn]? with
    | some rail =>
      (.moved, { s with
        lock := .poller (turn + 1)
        cumulativeEnergyMj :=
          accumulate dt (schedule.sysfs s.completed) s.cumulativeEnergyMj (rail, turn) })
    | none => (.roundCompleted, { s with lock := .free, dt := none, completed := s.completed + 1 })

variable [DecidableEq ι]

def clientStep [Rounding] (i : ι) (call : Call) (s : Threads ι) : Outcome ι × Threads ι :=
  match s.lock with
  | .free => (.moved, { s with lock := .client i call ∅ s.cumulativeEnergyMj.keys })
  | .poller _ => (.blocked, s)
  | .client j call snap rest =>
    if j = i then
      match rest with
      | key :: rest =>
        let energyJ := fl (s.cumulativeEnergyMj[key]?.getD 0 / 1000)
        (.moved, { s with lock := .client j call (snap.insert key energyJ) rest })
      | [] => (.returned j call (call.answer snap), { s with lock := .free })
    else (.blocked, s)

def machine [Rounding] : Machine (Threads ι) (Move ι) (Outcome ι) where
  step := fun s move => match move with
    | .poller => pollerStep rails schedule s
    | .client i call => clientStep i call s

end Machine

/-! ### What holds at every step -/

section Invariant
variable (rails : List PowerRail) (schedule : Schedule) {ι : Type}

/-- The backend after `n` rounds, no round being in progress. -/
def between [Rounding] (n : ℕ) : JetsonSoCBackend :=
  (ofRails rails (schedule.times 0)).pollRounds (schedule.rounds n)

/-- What the holder of the lock has made of the accumulators that the completed rounds
have left. -/
def HeldBy [Rounding] (s : Threads ι) : Lock ι → Prop
  | .free => s.cumulativeEnergyMj = (between rails schedule s.completed).cumulativeEnergyMj
  | .poller turn => ∃ dt, s.dt = some dt ∧ turn ≤ rails.length ∧
      s.cumulativeEnergyMj = (rails.zipIdx.take turn).foldl
        (accumulate dt (schedule.sysfs s.completed))
        (between rails schedule s.completed).cumulativeEnergyMj
  | .client _ _ snap rest =>
    s.cumulativeEnergyMj = (between rails schedule s.completed).cumulativeEnergyMj ∧
      rest.Nodup ∧ (∀ key ∈ rest, key ∈ s.cumulativeEnergyMj) ∧
      ∀ key : String, snap[key]? =
        if key ∈ rest then none else s.cumulativeEnergyMj[key]?.map fun mj => fl (mj / 1000)

/-- A state that any run may reach. The polling thread has moved `prevTs` to the time of
the round it is in, if it is in one. -/
structure Consistent [Rounding] (s : Threads ι) : Prop where
  held : HeldBy rails schedule s s.lock
  clock : match s.dt with
    | none => s.prevTs = schedule.times s.completed
    | some dt => s.prevTs = schedule.times (s.completed + 1) ∧
        dt = fl (schedule.times (s.completed + 1) - schedule.times s.completed)

theorem between_succ [Rounding] (n : ℕ) : between rails schedule (n + 1) =
    (between rails schedule n).pollRound (schedule.times (n + 1)) (schedule.sysfs n) := by
  rw [between, schedule.rounds_succ, pollRounds_append]
  rfl

theorem powerRails_between [Rounding] (n : ℕ) : (between rails schedule n).powerRails = rails := by
  rw [between, powerRails_pollRounds]
  rfl

theorem prevTs_between [Rounding] (n : ℕ) : (between rails schedule n).prevTs = schedule.times n := by
  cases n with
  | zero => rfl
  | succ n =>
    rw [between_succ]
    rfl

/-- A round that has visited every rail is a whole round. -/
theorem cumulative_between_succ [Rounding] (n : ℕ) : (between rails schedule (n + 1)).cumulativeEnergyMj =
    rails.zipIdx.foldl (accumulate (fl (schedule.times (n + 1) - schedule.times n)) (schedule.sysfs n))
      (between rails schedule n).cumulativeEnergyMj := by
  rw [between_succ]
  show (between rails schedule n).powerRails.zipIdx.foldl
    (accumulate (fl (schedule.times (n + 1) - (between rails schedule n).prevTs)) (schedule.sysfs n))
    (between rails schedule n).cumulativeEnergyMj = _
  rw [powerRails_between, prevTs_between]

theorem start_consistent [Rounding] : Consistent rails schedule (start rails schedule : Threads ι) := ⟨rfl, rfl⟩

variable {rails schedule}

theorem pollerStep_consistent [Rounding] {s : Threads ι} (h : Consistent rails schedule s) :
    Consistent rails schedule (pollerStep rails schedule s).2 := by
  obtain ⟨cumulative, lock, prevTs, dt, completed⟩ := s
  obtain ⟨hheld, hclock⟩ := h
  cases dt with
  | none =>
    obtain rfl : prevTs = schedule.times completed := hclock
    refine ⟨?_, rfl, rfl⟩
    cases lock with
    | free => exact hheld
    | client i call snap rest => exact hheld
    | poller turn =>
      obtain ⟨dt, hdt, -⟩ := hheld
      cases hdt
  | some dt =>
    cases lock with
    | client i call snap rest => exact ⟨hheld, hclock⟩
    | free => exact ⟨⟨dt, rfl, Nat.zero_le _, hheld⟩, hclock⟩
    | poller turn =>
      obtain ⟨dt', hdt, hturn, hcumulative⟩ := hheld
      obtain rfl : dt = dt' := Option.some.inj hdt
      cases hrail : rails[turn]? with
      | some rail =>
        have hnext : rails.zipIdx.take (turn + 1) = rails.zipIdx.take turn ++ [(rail, turn)] := by
          rw [List.take_add_one, List.getElem?_zipIdx, hrail]
          simp
        have hlt : turn < rails.length := (List.getElem?_eq_some_iff.mp hrail).1
        simp only [pollerStep, hrail]
        refine ⟨⟨dt, rfl, hlt, ?_⟩, hclock⟩
        show accumulate dt _ cumulative (rail, turn) = _
        rw [hnext, List.foldl_append, ← hcumulative]
        rfl
      | none =>
        -- Every rail has been visited.
        have hall : rails.zipIdx.take turn = rails.zipIdx := by
          apply List.take_of_length_le
          rw [List.length_zipIdx]
          exact List.getElem?_eq_none_iff.mp hrail
        obtain ⟨rfl, rfl⟩ : prevTs = schedule.times (completed + 1) ∧
          dt = fl (schedule.times (completed + 1) - schedule.times completed) := hclock
        rw [hall] at hcumulative
        simp only [pollerStep, hrail]
        exact ⟨hcumulative.trans (cumulative_between_succ rails schedule completed).symm, rfl⟩

variable [DecidableEq ι]

theorem clientStep_consistent [Rounding] (i : ι) (call : Call) {s : Threads ι} (h : Consistent rails schedule s) :
    Consistent rails schedule (clientStep i call s).2 := by
  obtain ⟨cumulative, lock, prevTs, dt, completed⟩ := s
  obtain ⟨hheld, hclock⟩ := h
  cases lock with
  | free =>
    refine ⟨⟨hheld, Std.ExtTreeMap.nodup_keys, ?_, ?_⟩, hclock⟩
    · intro key hkey
      exact Std.ExtTreeMap.mem_of_mem_keys hkey
    · intro key
      rw [Std.ExtTreeMap.getElem?_empty]
      split
      next => rfl
      next hkey =>
        rw [Std.ExtTreeMap.mem_keys, Map.not_mem_iff_lookup] at hkey
        show none = cumulative[key]?.map fun mj => fl (mj / 1000)
        rw [hkey]
        rfl
  | poller turn => exact ⟨hheld, hclock⟩
  | client j call' snap rest =>
    by_cases hj : j = i
    · simp only [clientStep, if_pos hj]
      obtain ⟨hcumulative, hnodup, hrest, hsnap⟩ := hheld
      cases rest with
      | nil => exact ⟨hcumulative, hclock⟩
      | cons next rest =>
        obtain ⟨hnext, hnodup⟩ := List.nodup_cons.mp hnodup
        refine ⟨⟨hcumulative, hnodup, fun key hkey => hrest key (List.mem_cons_of_mem _ hkey), ?_⟩, hclock⟩
        intro key
        show (snap.insert next (fl (cumulative[next]?.getD 0 / 1000)))[key]? =
          if key ∈ rest then none else cumulative[key]?.map fun mj => fl (mj / 1000)
        rw [Map.lookup_insert]
        by_cases hkey : next = key
        · subst hkey
          obtain ⟨mj, hmj⟩ := (Map.mem_iff_lookup cumulative next).mp (hrest next List.mem_cons_self)
          rw [if_pos rfl, if_neg hnext, hmj]
          rfl
        · rw [if_neg hkey, hsnap key]
          simp only [List.mem_cons, Ne.symm hkey, false_or]
    · simp only [clientStep, if_neg hj]
      exact ⟨hheld, hclock⟩

/-- **No step, of any thread, breaks what holds at the lock.** -/
theorem consistent_preserved [Rounding] : (machine rails schedule (ι := ι)).Preserved (fun _ => True)
    (Consistent rails schedule) := by
  intro s move _ h
  cases move with
  | poller => exact pollerStep_consistent h
  | client i call => exact clientStep_consistent i call h

/-! ### What a call returns -/

/-- What a call returns that runs alone, over a backend at rest. -/
def Call.run [Rounding] (b : JetsonSoCBackend) : Call → Map String Double
  | snapshotEnergyJ => b.snapshotEnergyJ
  | computeEnergyDeltaJ startSnap => b.computeEnergyDeltaJ startSnap

/-- A copy with nothing left to copy is a snapshot. -/
theorem snap_eq [Rounding] {b : JetsonSoCBackend} {snap : Map String Double}
    (h : ∀ key : String, snap[key]? = b.cumulativeEnergyMj[key]?.map fun mj => fl (mj / 1000)) :
    snap = b.snapshotEnergyJ := by
  apply Std.ExtTreeMap.ext_getElem?
  intro key
  rw [h key, JetsonSoCBackend.snapshotEnergyJ, Map.lookup_overwrite_empty]

/-- A call returns when its client holds the lock and has copied every key. -/
theorem returned_of_step [Rounding] {s : Threads ι} {move : Move ι} {i : ι} {call : Call}
    {result : Map String Double} (h : (machine rails schedule).answer s move = .returned i call result) :
    ∃ snap, s.lock = .client i call snap [] ∧ result = call.answer snap := by
  obtain ⟨cumulative, lock, prevTs, dt, completed⟩ := s
  cases move with
  | poller =>
    exfalso
    change (pollerStep rails schedule _).1 = _ at h
    unfold pollerStep at h
    repeat' split at h
    all_goals cases h
  | client j call' =>
    change (clientStep j call' _).1 = _ at h
    cases lock with
    | free => cases h
    | poller turn => cases h
    | client k callK snap rest =>
      by_cases hk : k = j
      · simp only [clientStep, if_pos hk] at h
        cases rest with
        | cons key rest => cases h
        | nil =>
          cases h
          exact ⟨snap, rfl, rfl⟩
      · simp only [clientStep, if_neg hk] at h
        cases h

/-- **A call returns what it would return between two rounds**, whatever the other threads
do during it. -/
theorem returns_between_rounds [Rounding] {moves : List (Move ι)} {x : Entry (Threads ι) (Move ι) (Outcome ι)}
    (hx : x ∈ (machine rails schedule).trace (start rails schedule) moves) {i : ι} {call : Call}
    {result : Map String Double} (h : x.outcome = .returned i call result) :
    result = call.run (between rails schedule x.before.completed) := by
  have hconsistent := consistent_preserved.trace (start_consistent rails schedule)
    (fun _ _ => trivial) x hx
  rw [((machine rails schedule).mem_trace hx).1] at h
  obtain ⟨snap, hlock, rfl⟩ := returned_of_step h
  have hheld := hconsistent.held
  rw [hlock] at hheld
  obtain ⟨hcumulative, -, -, hsnap⟩ := hheld
  have hsnapshot : snap = (between rails schedule x.before.completed).snapshotEnergyJ := by
    apply snap_eq
    intro key
    rw [← hcumulative]
    exact hsnap key
  rw [hsnapshot]
  cases call with
  | snapshotEnergyJ => rfl
  | computeEnergyDeltaJ startSnap => rfl

/-! ### How many rounds -/

theorem completed_next [Rounding] (s : Threads ι) (move : Move ι) :
    ((machine rails schedule).next s move).completed =
      s.completed + if ((machine rails schedule).answer s move).completesRound then 1 else 0 := by
  obtain ⟨cumulative, lock, prevTs, dt, completed⟩ := s
  cases move with
  | poller =>
    show (pollerStep rails schedule _).2.completed =
      completed + if (pollerStep rails schedule _).1.completesRound then 1 else 0
    cases dt with
    | none => rfl
    | some dt =>
      cases lock with
      | free => rfl
      | client i call snap rest => rfl
      | poller turn =>
        cases hrail : rails[turn]? with
        | some rail =>
          simp only [pollerStep, hrail]
          rfl
        | none =>
          simp only [pollerStep, hrail]
          rfl
  | client i call =>
    show (clientStep i call _).2.completed =
      completed + if (clientStep i call _).1.completesRound then 1 else 0
    cases lock with
    | free => rfl
    | poller turn => rfl
    | client j call' snap rest =>
      by_cases hj : j = i
      · simp only [clientStep, if_pos hj]
        cases rest with
        | nil => rfl
        | cons key rest => rfl
      · simp only [clientStep, if_neg hj]
        rfl

/-- The rounds completed are those whose lock was released. -/
theorem completed_run [Rounding] (s : Threads ι) (moves : List (Move ι)) :
    ((machine rails schedule).run s moves).completed =
      s.completed + ((machine rails schedule).trace s moves).countP (·.outcome.completesRound) := by
  induction moves generalizing s with
  | nil => rfl
  | cons move rest ih =>
    rw [Machine.run, Machine.trace, ih, completed_next, List.countP_cons, Nat.add_right_comm]
    exact Nat.add_assoc _ _ _

/-! ### Main result -/

/-- **Snapshots are consistent cuts.** In any run of the polling thread and any clients,
when a call returns, let `n` be the number of rounds completed so far. The call's
snapshot has the rails' keys and no other, and holds for every rail at once the energy
of the first `n` rounds, in exact arithmetic the sum of each power read over the time
since the round before. A delta is this snapshot less the one it was given. -/
theorem snapshots_are_cuts [Rounding] (rails : List PowerRail) (schedule : Schedule) (moves : List (Move ι))
    (hkeys : (rails.map (·.key)).Nodup)
    {history rest : List (Entry (Threads ι) (Move ι) (Outcome ι))}
    {x : Entry (Threads ι) (Move ι) (Outcome ι)} {i : ι} {call : Call} {result : Map String Double}
    (h : (machine rails schedule).trace (start rails schedule) moves = history ++ x :: rest)
    (hx : x.outcome = .returned i call result) :
    let n := history.countP (·.outcome.completesRound)
    ∃ snap : Map String Double, result = call.answer snap ∧
      (∀ key, key ∈ snap ↔ ∃ rail ∈ rails, rail.key = key) ∧
      ∀ (rail : PowerRail) (m : ℕ), rails[m]? = some rail →
        snap[rail.key]? = some (fl (schedule.energyMj rail m n / 1000)) ∧
        (Exact → schedule.energyMj rail m n = ∑ i ∈ Finset.range n,
          rail.powerMw m (schedule.round i) * (schedule.times (i + 1) - schedule.times i)) := by
  intro n
  have hmem : x ∈ (machine rails schedule).trace (start rails schedule) moves := by
    rw [h]
    exact List.mem_append_right _ List.mem_cons_self
  obtain ⟨hhistory, hbefore, -, -⟩ := (machine rails schedule).trace_split h
  have hn : x.before.completed = n := by
    rw [hbefore, completed_run, ← hhistory]
    exact Nat.zero_add n
  have hresult := returns_between_rounds hmem hx
  rw [hn] at hresult
  refine ⟨(between rails schedule n).snapshotEnergyJ, ?_, ?_, ?_⟩
  · rw [hresult]
    cases call with
    | snapshotEnergyJ => rfl
    | computeEnergyDeltaJ startSnap => rfl
  · intro key
    rw [mem_snapshotEnergyJ, powerRails_between]
  · intro rail m hrail
    refine ⟨?_, fun _ => schedule.energyMj_eq rail m n⟩
    rw [between, snapshot_ofRails _ _ hkeys hrail, schedule.accumulated_rounds]

end Invariant

/-- The first rail at 5 W, and the second one at 2 W until it cannot be read. -/
def sampleSchedule : Schedule where
  times := fun i => i
  sysfs := fun round _ path =>
    if path = "in1_power" then some "5000" else if round = 1 then none else some "2000"

/-- Two rounds, and a client that comes while the second one holds the lock: it has to
wait, and has copied both rails when the moves end. -/
def sampleMoves : List (Move ℕ) :=
  List.replicate 8 .poller ++ [.client 0 .snapshotEnergyJ, .poller, .poller] ++
    List.replicate 3 (.client 0 .snapshotEnergyJ)

attribute [local instance] Rounding.binary64 in
theorem snapshots_are_cuts_sample :
    let s := (machine sampleRails sampleSchedule).run (start sampleRails sampleSchedule) sampleMoves
    ∃ i call result snap, (machine sampleRails sampleSchedule).answer s (.client 0 .snapshotEnergyJ) =
        .returned i call result ∧
      result = Call.answer snap call ∧ snap["VDD_IN"]? = some 10 ∧ snap["VDD_SOC"]? = some 2 := by
  intro s
  have hreturns : ((machine sampleRails sampleSchedule).answer s
      (.client 0 .snapshotEnergyJ)).returns = true := by
    decide +kernel
  cases hout : (machine sampleRails sampleSchedule).answer s (.client 0 .snapshotEnergyJ) with
  | moved => rw [hout] at hreturns; cases hreturns
  | blocked => rw [hout] at hreturns; cases hreturns
  | roundCompleted => rw [hout] at hreturns; cases hreturns
  | returned i call result =>
    obtain ⟨snap, hresult, -, hsums⟩ := snapshots_are_cuts sampleRails sampleSchedule
      (sampleMoves ++ [.client 0 .snapshotEnergyJ]) (by decide)
      (Machine.trace_append _ _ sampleMoves [.client 0 .snapshotEnergyJ]) hout
    refine ⟨i, call, result, snap, rfl, hresult, ?_, ?_⟩
    · refine (hsums sampleRail 0 rfl).1.trans ?_
      decide +kernel
    · refine (hsums ⟨"VDD_SOC", .directPower, "in2_power", "", ""⟩ 1 rfl).1.trans ?_
      decide +kernel

end ZeusPower.Device.JetsonThreads
