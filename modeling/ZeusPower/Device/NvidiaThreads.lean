import Mathlib.Order.Monotone.Basic
import ZeusPower.Device.NvidiaIntegral
import ZeusPower.Library.Machine

/-! The polling thread of the NVIDIA backend, step by step.

The thread takes the time once, at the start of a round, and then visits the listed GPUs:
it reads the power of a polled one without the lock, and pushes the sample under it. A
client that ends a window takes the time, and then integrates the samples of one GPU after
another, each under the lock. A run lets any thread take the next step.

Between two rounds the backend is what whole rounds make of it (`consistent_preserved`).
In a round it is not: a sample is stamped before it is read, so an interval that ends
during a round can get samples after it was integrated (`late_sample`). Which ones, and
when none, is said by `finished_interval`. -/
namespace ZeusPower.Device.NvidiaThreads
open Library NvidiaGpuBackend

/-- What the threads meet: the readings of the clock in the order in which they are taken,
and the answers of NVML to each round. -/
structure Schedule where
  clock : ℕ → Double
  steady : Monotone clock
  nvml : ℕ → NvmlReads

/-! ### The threads -/

/-- Where the polling thread stands. -/
inductive Poller where
  | idle
  /-- In the round stamped `ts`, about to visit this turn. -/
  | visit (ts : Double) (turn : ℕ)
  /-- This turn has read the power of `idx`, and waits for the lock. -/
  | push (ts : Double) (turn : ℕ) (idx : Int) (power : Double)
  deriving DecidableEq, Repr

structure Threads (ι : Type) where
  backend : NvidiaGpuBackend
  poller : Poller
  /-- The rounds the polling thread has completed. -/
  completed : ℕ
  /-- The readings of the clock that were taken. -/
  readings : ℕ
  /-- The `end_time` of the window each client ends, if it ends one. -/
  endTimes : ι → Option Double

/-- The steps of `end_window`: the time, and the integral for one GPU. -/
inductive Call where
  | takeEndTime
  | integrate (startTime : Double) (gpuIndex : Int)

/-- Whose turn it is. -/
inductive Move (ι : Type) where
  | poller
  | client (i : ι) (call : Call)

inductive Outcome where
  | moved
  | blocked
  /-- A round began at this time. -/
  | stamped (ts : Double)
  | integrated (endTime energy : Double)
  deriving DecidableEq

section Machine
variable (schedule : Schedule) {ι : Type}

/-- The backend as it stands, with the polling thread about to run. -/
def start (b : NvidiaGpuBackend) : Threads ι := ⟨b, .idle, 0, 0, fun _ => none⟩

/-- What one turn does before it needs the lock. Every listed GPU has an entry, so
`supports_energy_[idx]` inserts nothing. -/
def readTurn [Rounding] (b : NvidiaGpuBackend) (ts : Double) (nvml : NvmlReads) (turn : ℕ) (idx : Int) : Poller :=
  if b.supportsEnergyCounter idx then .visit ts (turn + 1)
  else
    match b.getInstantPowerW nvml turn idx with
    | .error _ => .visit ts (turn + 1)
    | .ok power => if 0 < power then .push ts turn idx power else .visit ts (turn + 1)

def pollerStep [Rounding] (s : Threads ι) : Outcome × Threads ι :=
  match s.poller with
  | .idle =>
    if s.backend.pollingActive then
      let ts := schedule.clock s.readings
      (.stamped ts, { s with poller := .visit ts 0, readings := s.readings + 1 })
    else (.blocked, s)
  | .visit ts turn =>
    match s.backend.gpuIndices[turn]? with
    | none => (.moved, { s with poller := .idle, completed := s.completed + 1 })
    | some idx =>
      (.moved, { s with poller := readTurn s.backend ts (schedule.nvml s.completed) turn idx })
  | .push ts turn idx power =>
    (.moved, { s with
      poller := .visit ts (turn + 1)
      backend := { s.backend with samples := s.backend.samples ++ [⟨ts, idx, power⟩] } })

variable [DecidableEq ι]

def clientStep [Rounding] (i : ι) (call : Call) (s : Threads ι) : Outcome × Threads ι :=
  match call, s.endTimes i with
  | .takeEndTime, _ =>
    (.moved, { s with
      endTimes := Function.update s.endTimes i (some (schedule.clock s.readings))
      readings := s.readings + 1 })
  | .integrate _ _, none => (.blocked, s)
  | .integrate startTime gpuIndex, some endTime =>
    (.integrated endTime (s.backend.computeEnergyFromSamples gpuIndex startTime endTime), s)

def machine [Rounding] : Machine (Threads ι) (Move ι) Outcome where
  step := fun s move => match move with
    | .poller => pollerStep schedule s
    | .client i call => clientStep schedule i call s

end Machine

/-! ### Between two rounds -/

/-- The turns of whole rounds with these timestamps, over `n` listed GPUs. -/
def turnsOf (schedule : Schedule) (n : ℕ) (stamps : List Double) : List (Double × NvmlReads × ℕ) :=
  stamps.zipIdx.flatMap fun (ts, k) => roundTurns (schedule.nvml k) ts n

theorem roundTurns_succ (nvml : NvmlReads) (ts : Double) (n : ℕ) :
    roundTurns nvml ts (n + 1) = roundTurns nvml ts n ++ [(ts, nvml, n)] := by
  rw [roundTurns, roundTurns, List.range_succ, List.map_append, List.map_singleton]

theorem turnsOf_succ (schedule : Schedule) (n : ℕ) (stamps : List Double) (ts : Double) :
    turnsOf schedule n (stamps ++ [ts]) =
      turnsOf schedule n stamps ++ roundTurns (schedule.nvml stamps.length) ts n := by
  rw [turnsOf, turnsOf, List.zipIdx_append, List.flatMap_append]
  simp

/-- Reading a turn, and pushing what it has read, is the turn. -/
theorem readTurn_cases [Rounding] {b : NvidiaGpuBackend} (hactive : b.pollingActive = true) {turn : ℕ} {idx : Int}
    (hidx : b.gpuIndices[turn]? = some idx) (ts : Double) (nvml : NvmlReads) :
    (readTurn b ts nvml turn idx = .visit ts (turn + 1) ∧ b.pollTurn ts nvml turn = b) ∨
    ∃ power, readTurn b ts nvml turn idx = .push ts turn idx power ∧
      b.pollTurn ts nvml turn = { b with samples := b.samples ++ [⟨ts, idx, power⟩] } := by
  rw [pollTurn_eq b ts nvml hidx, hactive, Bool.not_true, if_neg Bool.false_ne_true, readTurn]
  cases hs : b.supportsEnergyCounter idx with
  | true => exact Or.inl ⟨rfl, rfl⟩
  | false =>
    cases hp : b.getInstantPowerW nvml turn idx with
    | error e => exact Or.inl ⟨rfl, rfl⟩
    | ok power =>
      by_cases hpos : 0 < power
      · exact Or.inr ⟨power, if_pos hpos, if_pos hpos⟩
      · exact Or.inl ⟨if_neg hpos, if_neg hpos⟩

section Rounds
variable (schedule : Schedule) (b : NvidiaGpuBackend) {ι : Type}

/-- What the polling thread has made of the backend `b` it was started over, after whole
rounds with these timestamps. -/
def Stands [Rounding] (stamps : List Double) (backend : NvidiaGpuBackend) : Poller → Prop
  | .idle => backend = b.pollTurns (turnsOf schedule b.gpuIndices.length stamps)
  | .visit ts turn => turn ≤ b.gpuIndices.length ∧
      backend = b.pollTurns (turnsOf schedule b.gpuIndices.length stamps ++
        roundTurns (schedule.nvml stamps.length) ts turn)
  | .push ts turn idx power => turn < b.gpuIndices.length ∧
      backend = b.pollTurns (turnsOf schedule b.gpuIndices.length stamps ++
        roundTurns (schedule.nvml stamps.length) ts turn) ∧
      backend.pollTurn ts (schedule.nvml stamps.length) turn =
        { backend with samples := backend.samples ++ [⟨ts, idx, power⟩] }

/-- A state that any run may reach. -/
structure Consistent [Rounding] (s : Threads ι) : Prop where
  stands : ∃ stamps : List Double, stamps.length = s.completed ∧ Stands schedule b stamps s.backend s.poller
  active : s.poller ≠ .idle → s.backend.pollingActive = true

theorem start_consistent [Rounding] : Consistent schedule b (start b : Threads ι) :=
  ⟨⟨[], rfl, rfl⟩, fun h => absurd rfl h⟩

variable {schedule b}

theorem Stands.gpuIndices [Rounding] {stamps : List Double} {backend : NvidiaGpuBackend} {poller : Poller}
    (h : Stands schedule b stamps backend poller) : backend.gpuIndices = b.gpuIndices := by
  cases poller with
  | idle => exact h ▸ gpuIndices_pollTurns b _
  | visit ts turn => exact h.2 ▸ gpuIndices_pollTurns b _
  | push ts turn idx power => exact h.2.1 ▸ gpuIndices_pollTurns b _

theorem pollerStep_consistent [Rounding] {s : Threads ι} (h : Consistent schedule b s) :
    Consistent schedule b (pollerStep schedule s).2 := by
  obtain ⟨backend, poller, completed, readings, endTimes⟩ := s
  obtain ⟨⟨stamps, hlen, hstands⟩, hactive⟩ := h
  obtain rfl : stamps.length = completed := hlen
  have hindices := hstands.gpuIndices
  dsimp only at hindices hstands hactive
  cases poller with
  | idle =>
    cases hon : backend.pollingActive with
    | false =>
      simp only [pollerStep, hon, Bool.false_eq_true, if_false]
      exact ⟨⟨stamps, rfl, hstands⟩, fun h => absurd rfl h⟩
    | true =>
      simp only [pollerStep, hon, if_true]
      refine ⟨⟨stamps, rfl, Nat.zero_le _, ?_⟩, fun _ => hon⟩
      rw [roundTurns, List.range_zero, List.map_nil, List.append_nil]
      exact hstands
  | visit ts turn =>
    have hon := hactive (by simp)
    obtain ⟨hle, hbackend⟩ := hstands
    cases hidx : backend.gpuIndices[turn]? with
    | none =>
      -- Every listed GPU has been visited.
      simp only [pollerStep, hidx]
      rw [hindices, List.getElem?_eq_none_iff] at hidx
      obtain rfl : turn = b.gpuIndices.length := Nat.le_antisymm hle hidx
      refine ⟨⟨stamps ++ [ts], by simp, ?_⟩, fun h => absurd rfl h⟩
      show backend = _
      rw [turnsOf_succ, hbackend]
    | some idx =>
      have hlt : turn < b.gpuIndices.length := by
        rw [hindices] at hidx
        exact (List.getElem?_eq_some_iff.mp hidx).1
      simp only [pollerStep, hidx]
      obtain ⟨hread, hsame⟩ | ⟨power, hread, hpush⟩ :=
        readTurn_cases hon hidx ts (schedule.nvml stamps.length)
      · rw [hread]
        refine ⟨⟨stamps, rfl, hlt, ?_⟩, fun _ => hon⟩
        show backend = _
        rw [roundTurns_succ, ← List.append_assoc, pollTurns_append, ← hbackend]
        exact hsame.symm
      · rw [hread]
        exact ⟨⟨stamps, rfl, hlt, hbackend, hpush⟩, fun _ => hon⟩
  | push ts turn idx power =>
    have hon := hactive (by simp)
    obtain ⟨hlt, hbackend, hpush⟩ := hstands
    refine ⟨⟨stamps, rfl, hlt, ?_⟩, fun _ => hon⟩
    show ({ backend with samples := backend.samples ++ [⟨ts, idx, power⟩] } : NvidiaGpuBackend) = _
    rw [roundTurns_succ, ← List.append_assoc, pollTurns_append, ← hbackend]
    exact hpush.symm

variable [DecidableEq ι]

/-- **The polling thread makes whole rounds**, however its steps and the clients' are
ordered. -/
theorem consistent_preserved [Rounding] : (machine schedule (ι := ι)).Preserved (fun _ => True)
    (Consistent schedule b) := by
  intro s move _ h
  cases move with
  | poller => exact pollerStep_consistent h
  | client i call =>
    show Consistent schedule b (clientStep schedule i call s).2
    cases call with
    | takeEndTime => exact ⟨h.stands, h.active⟩
    | integrate startTime g =>
      unfold clientStep
      cases s.endTimes i with
      | none => exact h
      | some endTime => exact h

/-- So what is known of any sequence of turns is known of every state of a run. -/
theorem reachable_pollTurns [Rounding] (schedule : Schedule) (b : NvidiaGpuBackend) (moves : List (Move ι)) :
    ∃ turns, ((machine schedule).run (start b) moves).backend = b.pollTurns turns := by
  have h : Consistent schedule b ((machine schedule).run (start b) moves) :=
    consistent_preserved.run (start_consistent schedule b) fun _ _ => trivial
  obtain ⟨stamps, -, hstands⟩ := h.stands
  cases hpoller : ((machine schedule).run (start b) moves).poller with
  | idle =>
    rw [hpoller] at hstands
    exact ⟨_, hstands⟩
  | visit ts turn =>
    rw [hpoller] at hstands
    exact ⟨_, hstands.2⟩
  | push ts turn idx power =>
    rw [hpoller] at hstands
    exact ⟨_, hstands.2.1⟩

end Rounds

/-! ### Samples that arrive later -/

/-- The round in progress is stamped `ts` and may still push a sample of `g`. -/
def Poller.Owes (indices : List Int) (g : Int) (ts : Double) : Poller → Prop
  | .idle => False
  | .visit ts' turn => ts' = ts ∧ ∃ n, turn ≤ n ∧ indices[n]? = some g
  | .push ts' turn idx _ => ts' = ts ∧ (idx = g ∨ ∃ n, turn < n ∧ indices[n]? = some g)

section Late
variable {schedule : Schedule} {ι : Type}

/-- What a turn has read is owed if the turn was. -/
theorem owes_readTurn [Rounding] {b : NvidiaGpuBackend} {ts : Double} {nvml : NvmlReads} {turn : ℕ} {idx g : Int}
    (hidx : b.gpuIndices[turn]? = some idx) {ts' : Double}
    (h : (readTurn b ts nvml turn idx).Owes b.gpuIndices g ts') :
    (Poller.visit ts turn).Owes b.gpuIndices g ts' := by
  have hlater : ∀ n, turn < n → b.gpuIndices[n]? = some g → ∃ n, turn ≤ n ∧ b.gpuIndices[n]? = some g :=
    fun n hn hg => ⟨n, hn.le, hg⟩
  have hvisit : (Poller.visit ts (turn + 1)).Owes b.gpuIndices g ts' →
      (Poller.visit ts turn).Owes b.gpuIndices g ts' := by
    intro ⟨hts, n, hn, hg⟩
    exact ⟨hts, hlater n hn hg⟩
  unfold readTurn at h
  split at h
  next => exact hvisit h
  next =>
    split at h
    next => exact hvisit h
    next power _ =>
      split at h
      next =>
        obtain ⟨hts, rfl | ⟨n, hn, hg⟩⟩ := h
        · exact ⟨hts, turn, le_refl turn, hidx⟩
        · exact ⟨hts, hlater n hn hg⟩
      next => exact hvisit h

/-- A step adds at most a sample that the round in progress owes, and lets that round owe no more
than it did; only a step that begins a round makes more owed. -/
structure Settles (s : Threads ι) (g : Int) (outcome : Outcome) (s' : Threads ι) : Prop where
  gpuIndices : s'.backend.gpuIndices = s.backend.gpuIndices
  late : ∃ late, samplesOf s'.backend.samples g = samplesOf s.backend.samples g ++ late ∧
    ∀ p ∈ late, s.poller.Owes s.backend.gpuIndices g p.1
  owes : ∀ ts, s'.poller.Owes s.backend.gpuIndices g ts →
    s.poller.Owes s.backend.gpuIndices g ts ∨ outcome = .stamped ts

theorem settles_same {s s' : Threads ι} {g : Int} (outcome : Outcome) (hbackend : s'.backend = s.backend)
    (hpoller : s'.poller = s.poller) : Settles s g outcome s' where
  gpuIndices := by rw [hbackend]
  late := ⟨[], by rw [hbackend, List.append_nil], fun _ hp => absurd hp List.not_mem_nil⟩
  owes := fun ts h => Or.inl (hpoller ▸ h)

variable [DecidableEq ι]

variable (schedule) in
theorem next_settles [Rounding] (s : Threads ι) (move : Move ι) (g : Int) :
    Settles s g ((machine schedule).answer s move) ((machine schedule).next s move) := by
  cases move with
  | client i call =>
    show Settles s g (clientStep schedule i call s).1 (clientStep schedule i call s).2
    cases call with
    | takeEndTime => exact settles_same _ rfl rfl
    | integrate startTime g' =>
      unfold clientStep
      cases s.endTimes i with
      | none => exact settles_same _ rfl rfl
      | some endTime => exact settles_same _ rfl rfl
  | poller =>
    show Settles s g (pollerStep schedule s).1 (pollerStep schedule s).2
    have hnone : ∀ samples : List (Double × Double), samples = samples ++ [] := fun samples =>
      (List.append_nil samples).symm
    obtain ⟨backend, poller, completed, readings, endTimes⟩ := s
    cases poller with
    | idle =>
      cases hon : backend.pollingActive with
      | false =>
        simp only [pollerStep, hon, Bool.false_eq_true, if_false]
        exact settles_same _ rfl rfl
      | true =>
        simp only [pollerStep, hon, if_true]
        refine ⟨rfl, ⟨[], hnone _, fun _ hp => absurd hp List.not_mem_nil⟩, fun ts h => Or.inr ?_⟩
        exact congrArg Outcome.stamped h.1
    | visit ts turn =>
      cases hidx : backend.gpuIndices[turn]? with
      | none =>
        simp only [pollerStep, hidx]
        exact ⟨rfl, ⟨[], hnone _, fun _ hp => absurd hp List.not_mem_nil⟩, fun ts' h => h.elim⟩
      | some idx =>
        simp only [pollerStep, hidx]
        refine ⟨rfl, ⟨[], hnone _, fun _ hp => absurd hp List.not_mem_nil⟩, fun ts' h => Or.inl ?_⟩
        exact owes_readTurn hidx h
    | push ts turn idx power =>
      refine ⟨rfl, ⟨samplesOf [⟨ts, idx, power⟩] g, samplesOf_append _ _ g, ?_⟩, fun ts' h => Or.inl ?_⟩
      · intro p hp
        have hsample := List.mem_singleton.mp (mem_samplesOf.mp hp)
        rw [PowerSample.mk.injEq] at hsample
        obtain ⟨hts, hg, -⟩ := hsample
        exact ⟨hts.symm, Or.inl hg.symm⟩
      · obtain ⟨hts, n, hn, hg⟩ := h
        exact ⟨hts, Or.inr ⟨n, hn, hg⟩⟩

/-- A round with this timestamp begins at one of these moves. -/
def Stamps [Rounding] (schedule : Schedule) (s : Threads ι) (moves : List (Move ι)) (ts : Double) : Prop :=
  ∃ x ∈ (machine schedule).trace s moves, x.outcome = .stamped ts

variable (schedule) in
/-- Along a run, the samples that arrive are owed by the round in progress, or by a round that
begins later. -/
theorem late_samples [Rounding] (s : Threads ι) (moves : List (Move ι)) (g : Int) :
    ∃ late, samplesOf ((machine schedule).run s moves).backend.samples g =
        samplesOf s.backend.samples g ++ late ∧
      ∀ p ∈ late, s.poller.Owes s.backend.gpuIndices g p.1 ∨ Stamps schedule s moves p.1 := by
  induction moves generalizing s with
  | nil => exact ⟨[], (List.append_nil _).symm, fun _ hp => absurd hp List.not_mem_nil⟩
  | cons move moves ih =>
    obtain ⟨hindices, ⟨first, hfirst, howed⟩, howes⟩ := next_settles schedule s move g
    obtain ⟨rest, hrest, hlater⟩ := ih ((machine schedule).next s move)
    refine ⟨first ++ rest, ?_, fun p hp => ?_⟩
    · rw [Machine.run, hrest, hfirst, List.append_assoc]
    · obtain hp | hp := List.mem_append.mp hp
      · exact Or.inl (howed p hp)
      · obtain h | ⟨x, hx, hstamped⟩ := hlater p hp
        · rw [hindices] at h
          obtain h | hstamped := howes p.1 h
          · exact Or.inl h
          · exact Or.inr ⟨_, List.mem_cons_self, hstamped⟩
        · exact Or.inr ⟨x, List.mem_cons_of_mem _ hx, hstamped⟩

/-! ### The clock -/

theorem readings_next [Rounding] (s : Threads ι) (move : Move ι) :
    s.readings ≤ ((machine schedule).next s move).readings := by
  cases move with
  | poller =>
    show s.readings ≤ (pollerStep schedule s).2.readings
    unfold pollerStep
    repeat' split
    all_goals first | exact le_refl _ | exact Nat.le_succ _
  | client i call =>
    show s.readings ≤ (clientStep schedule i call s).2.readings
    unfold clientStep
    repeat' split
    all_goals first | exact le_refl _ | exact Nat.le_succ _

theorem stamped_eq [Rounding] {s : Threads ι} {move : Move ι} {ts : Double}
    (h : (machine schedule).answer s move = .stamped ts) : ts = schedule.clock s.readings := by
  cases move with
  | poller =>
    change (pollerStep schedule s).1 = _ at h
    unfold pollerStep at h
    repeat' split at h
    all_goals cases h
    rfl
  | client i call =>
    change (clientStep schedule i call s).1 = _ at h
    unfold clientStep at h
    repeat' split at h
    all_goals cases h

/-- A time that was read stays behind the clock. -/
theorem passed_preserved [Rounding] (t : Double) : (machine schedule (ι := ι)).Preserved (fun _ => True)
    fun s => t ≤ schedule.clock s.readings :=
  fun s move _ h => h.trans (schedule.steady (readings_next s move))

/-- The `end_time` of every client has been read. -/
theorem endTimes_preserved [Rounding] : (machine schedule (ι := ι)).Preserved (fun _ => True)
    fun s => ∀ i endTime, s.endTimes i = some endTime → endTime ≤ schedule.clock s.readings := by
  intro s move _ h i endTime hend
  have hpassed : ((machine schedule).next s move).endTimes i = s.endTimes i →
      endTime ≤ schedule.clock ((machine schedule).next s move).readings := by
    intro hsame
    rw [hsame] at hend
    exact passed_preserved endTime s move trivial (h i endTime hend)
  cases move with
  | poller =>
    apply hpassed
    show (pollerStep schedule s).2.endTimes i = s.endTimes i
    unfold pollerStep
    repeat' split
    all_goals rfl
  | client j call =>
    cases call with
    | integrate startTime g =>
      apply hpassed
      show (clientStep schedule j (.integrate startTime g) s).2.endTimes i = s.endTimes i
      unfold clientStep
      cases s.endTimes j with
      | none => rfl
      | some endTime => rfl
    | takeEndTime =>
      by_cases hij : i = j
      · subst hij
        change Function.update s.endTimes i (some (schedule.clock s.readings)) i = some endTime at hend
        rw [Function.update_self] at hend
        obtain rfl := Option.some.inj hend
        exact schedule.steady (Nat.le_succ s.readings)
      · exact hpassed (Function.update_of_ne hij _ _)

/-- A round that begins after a time was read is stamped no earlier. -/
theorem stamps_ge [Rounding] {s : Threads ι} {moves : List (Move ι)} {t ts : Double}
    (ht : t ≤ schedule.clock s.readings) (h : Stamps schedule s moves ts) : t ≤ ts := by
  obtain ⟨x, hx, hstamped⟩ := h
  rw [((machine schedule).mem_trace hx).1] at hstamped
  rw [stamped_eq hstamped]
  exact (passed_preserved t).trace ht (fun _ _ => trivial) x hx

/-! ### A finished interval -/

theorem integrated_cases [Rounding] {s : Threads ι} {i : ι} {startTime endTime energy : Double} {g : Int}
    (h : (machine schedule).answer s (.client i (.integrate startTime g)) = .integrated endTime energy) :
    s.endTimes i = some endTime ∧ energy = s.backend.computeEnergyFromSamples g startTime endTime ∧
      (machine schedule).next s (.client i (.integrate startTime g)) = s := by
  change (clientStep schedule i (.integrate startTime g) s).1 = _ at h
  show _ ∧ _ ∧ (clientStep schedule i (.integrate startTime g) s).2 = s
  unfold clientStep at h ⊢
  cases hend : s.endTimes i with
  | none =>
    rw [hend] at h
    cases h
  | some e =>
    rw [hend] at h
    cases h
    exact ⟨rfl, rfl, rfl⟩

/-- Samples that arrive outside of an interval leave its integral as it was. -/
theorem computeEnergyFromSamples_late [Rounding] {b b' : NvidiaGpuBackend} {g : Int} {startTime endTime : Double}
    {late : List (Double × Double)} (h : samplesOf b'.samples g = samplesOf b.samples g ++ late)
    (hlate : ∀ p ∈ late, startTime ≤ p.1 → ¬ p.1 ≤ endTime) :
    b'.computeEnergyFromSamples g startTime endTime = b.computeEnergyFromSamples g startTime endTime := by
  have hnone : Trapezoid.within startTime endTime late = [] := by
    rw [List.eq_nil_iff_forall_not_mem]
    intro p hp
    obtain ⟨hmem, hfirst, hlast⟩ := Trapezoid.mem_within.mp hp
    exact hlate p hmem hfirst hlast
  have hsame : b'.timeline g startTime endTime = b.timeline g startTime endTime := by
    rw [timeline_eq_within, timeline_eq_within, h]
    unfold Trapezoid.within at hnone ⊢
    rw [List.filter_append, hnone, List.append_nil]
  rw [computeEnergyFromSamples_eq, computeEnergyFromSamples_eq, hsame]

/-- **When a finished interval is final.** In any run of the polling thread and any clients, let
an interval of a GPU be integrated by a client that ends a window. A sample in the interval that
arrives later is one that the round in progress at that moment still owed, or is stamped exactly
`end_time` by a round that begins later; where there is neither, the integral is the same at every
later point of the run. -/
theorem finished_interval [Rounding] (schedule : Schedule) (b : NvidiaGpuBackend)
    (pre post : List (Move ι)) (i : ι)
    (g : Int) {startTime endTime energy : Double}
    (h : (machine schedule).answer ((machine schedule).run (start b) pre)
      (.client i (.integrate startTime g)) = .integrated endTime energy) :
    let s := (machine schedule).run (start b) pre
    let s' := (machine schedule).run (start b) (pre ++ .client i (.integrate startTime g) :: post)
    (∃ late, samplesOf s'.backend.samples g = samplesOf s.backend.samples g ++ late ∧
      ∀ p ∈ late, p.1 ≤ endTime →
        s.poller.Owes b.gpuIndices g p.1 ∨ p.1 = endTime ∧ Stamps schedule s post endTime) ∧
    ((∀ ts, startTime ≤ ts → ts ≤ endTime → ¬ s.poller.Owes b.gpuIndices g ts) →
      ¬ Stamps schedule s post endTime →
      s'.backend.computeEnergyFromSamples g startTime endTime = energy) := by
  intro s s'
  obtain ⟨hend, henergy, hnext⟩ := integrated_cases h
  have hindices : s.backend.gpuIndices = b.gpuIndices := by
    obtain ⟨turns, hturns⟩ := reachable_pollTurns schedule b pre
    show ((machine schedule).run (start b) pre).backend.gpuIndices = _
    rw [hturns, gpuIndices_pollTurns]
  have hpassed : endTime ≤ schedule.clock s.readings := by
    have hnone : ∀ i e, (start b : Threads ι).endTimes i = some e → e ≤ schedule.clock 0 :=
      fun i e he => absurd he.symm (Option.some_ne_none e)
    exact endTimes_preserved.run hnone (fun _ _ => trivial) i endTime hend
  have hrun : s' = (machine schedule).run s post := by
    show (machine schedule).run (start b) (pre ++ _) = _
    rw [Machine.run_append, Machine.run, hnext]
  obtain ⟨late, hsamples, hlate⟩ := late_samples schedule s post g
  rw [hindices] at hlate
  have howed : ∀ p ∈ late, p.1 ≤ endTime →
      s.poller.Owes b.gpuIndices g p.1 ∨ p.1 = endTime ∧ Stamps schedule s post endTime := by
    intro p hp hle
    obtain howes | hstamps := hlate p hp
    · exact Or.inl howes
    · have heq : p.1 = endTime := le_antisymm hle (stamps_ge hpassed hstamps)
      exact Or.inr ⟨heq, heq ▸ hstamps⟩
  rw [hrun]
  refine ⟨⟨late, hsamples, howed⟩, fun hdone hstamped => ?_⟩
  rw [henergy]
  apply computeEnergyFromSamples_late hsamples
  intro p hp hfirst hlast
  obtain howes | ⟨-, hstamps⟩ := howed p hp hlast
  · exact hdone p.1 hfirst hlast howes
  · exact hstamped hstamps

end Late

/-- Two GPUs that have no counter. -/
def pairSetup : NvmlSetup where
  init := .ok ()
  deviceCount := .ok 2
  handleByIndex := fun _ index => .ok (index + 7)
  architecture := fun _ _ => .ok 3

/-- A reading each second, and a driver that always answers. -/
def pairSchedule : Schedule where
  clock := fun n => n + 1
  steady := by
    intro m n h
    show (m : Double) + 1 ≤ n + 1
    exact_mod_cast Nat.succ_le_succ h
  nvml := fun _ => sampleAnswers

/-- Two whole rounds, and a client that ends a window after them. -/
def betweenRounds : List (Move ℕ) := List.replicate 12 .poller ++ [.client 0 .takeEndTime]

attribute [local instance] Rounding.binary64 in
theorem finished_interval_sample :
    ∃ built, construct true pairSetup [0, 1] = .ok built ∧
      (machine pairSchedule).answer ((machine pairSchedule).run (start built) betweenRounds)
        (.client 0 (.integrate 0 1)) = .integrated 3 170 ∧
      ((machine pairSchedule).run (start built) (betweenRounds ++ .client 0 (.integrate 0 1) ::
        List.replicate 6 .poller)).backend.computeEnergyFromSamples 1 0 3 = 170 := by
  have hrun : ∃ built, construct true pairSetup [0, 1] = .ok built ∧
      (machine pairSchedule).answer ((machine pairSchedule).run (start built) betweenRounds)
        (.client 0 (.integrate 0 1)) = .integrated 3 170 ∧
      ((machine pairSchedule).run (start built) betweenRounds).poller = .idle ∧
      ∀ x ∈ (machine pairSchedule).trace ((machine pairSchedule).run (start built) betweenRounds)
        (List.replicate 6 .poller), x.outcome ≠ .stamped 3 := by
    decide +kernel
  obtain ⟨built, hbuilt, hanswer, hidle, hlater⟩ := hrun
  refine ⟨built, hbuilt, hanswer, ?_⟩
  refine (finished_interval pairSchedule built betweenRounds (List.replicate 6 .poller) 0 1 hanswer).2 ?_ ?_
  · intro ts _ _ howes
    rw [hidle] at howes
    exact howes
  · intro ⟨x, hx, hstamped⟩
    exact hlater x hx hstamped

/-- A whole round, and a second one that has pushed the sample of the first GPU when a client ends
a window over the second one. -/
def duringRound : List (Move ℕ) := List.replicate 9 .poller ++ [.client 0 .takeEndTime]

attribute [local instance] Rounding.binary64 in
/-- The interval had one sample of the second GPU and gets another after it was integrated. -/
theorem late_sample :
    ∃ built, construct true pairSetup [0, 1] = .ok built ∧
      (machine pairSchedule).answer ((machine pairSchedule).run (start built) duringRound)
        (.client 0 (.integrate 0 1)) = .integrated 3 0 ∧
      ((machine pairSchedule).run (start built) (duringRound ++ [.client 0 (.integrate 0 1), .poller,
        .poller])).backend.computeEnergyFromSamples 1 0 3 = 170 := by
  decide +kernel

end ZeusPower.Device.NvidiaThreads
