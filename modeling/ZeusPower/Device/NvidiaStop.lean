import ZeusPower.Device.NvidiaTimeline
import ZeusPower.Library.Machine

/-! How the NVIDIA polling thread is stopped (`start_polling`, `stop_polling`).

The polling thread tests `polling_active_` before a round and sleeps after it; nothing
interrupts a round or the sleep. The destructor clears the flag and joins the thread, if
there is one. A run lets either thread take the next step.

After the flag is cleared the thread pushes at most a sample for every turn that is left of
the round it is in, all with the same timestamp, and none after `stop_polling` has returned
(`samples_after_stop`); and a round's worth of its own turns lets the destructor return
(`stop_returns`). -/
namespace ZeusPower.Device.NvidiaStop
open Library NvidiaGpuBackend

/-! ### The threads -/

/-- Where the polling thread stands. -/
inductive Poller where
  /-- About to test `polling_active_`. -/
  | test
  /-- In the loop, about to take the time. -/
  | stamp
  /-- In the round stamped `ts`, about to make this turn. -/
  | visit (ts : Double) (turn : ℕ)
  | sleep
  | finished
  deriving DecidableEq, Repr

/-- Where the destructor stands in `stop_polling`. -/
inductive Stopper where
  | idle
  | test
  | clear
  | join
  | returned
  deriving DecidableEq, Repr

structure Threads where
  backend : NvidiaGpuBackend
  /-- `polling_active_`. That the thread was started is `backend.pollingActive`. -/
  pollingActive : Bool
  poller : Poller
  stopper : Stopper

inductive Move where
  /-- The polling thread's turn, with the time if it takes it and NVML's answers if it reads. -/
  | poller (now : Double) (nvml : NvmlReads)
  | stopper

def Move.ofPoller : Move → Bool
  | poller _ _ => true
  | stopper => false

inductive Outcome where
  | moved
  | blocked
  deriving DecidableEq, Repr

/-- The constructor has returned. Without a polling thread there is nothing to join. -/
def start (b : NvidiaGpuBackend) : Threads :=
  ⟨b, b.pollingActive, if b.pollingActive then .test else .finished, .idle⟩

def pollerStep [Rounding] (now : Double) (nvml : NvmlReads) (s : Threads) : Outcome × Threads :=
  match s.poller with
  | .test => (.moved, { s with poller := if s.pollingActive then .stamp else .finished })
  | .stamp => (.moved, { s with poller := .visit now 0 })
  | .visit ts turn =>
    if turn < s.backend.gpuIndices.length then
      (.moved, { s with backend := s.backend.pollTurn ts nvml turn, poller := .visit ts (turn + 1) })
    else (.moved, { s with poller := .sleep })
  | .sleep => (.moved, { s with poller := .test })
  | .finished => (.blocked, s)

def stopperStep (s : Threads) : Outcome × Threads :=
  match s.stopper with
  | .idle => (.moved, { s with stopper := .test })
  | .test => (.moved, { s with stopper := if s.pollingActive then .clear else .returned })
  | .clear => (.moved, { s with pollingActive := false, stopper := .join })
  | .join =>
    match s.poller with
    | .finished => (.moved, { s with stopper := .returned })
    | _ => (.blocked, s)
  | .returned => (.blocked, s)

def machine [Rounding] : Machine Threads Move Outcome where
  step := fun s move => match move with
    | .poller now nvml => pollerStep now nvml s
    | .stopper => stopperStep s

/-! ### What holds at every step -/

/-- A state that a run may reach. -/
structure Coherent (s : Threads) : Prop where
  finished : s.poller = .finished → s.pollingActive = false
  returned : s.stopper = .returned → s.poller = .finished
  cleared : s.stopper = .join → s.pollingActive = false
  /-- Until the destructor clears the flag, a thread that runs has it set. -/
  untouched : s.pollingActive = false → s.stopper = .idle ∨ s.stopper = .test → s.poller = .finished

theorem start_coherent (b : NvidiaGpuBackend) : Coherent (start b) := by
  unfold start
  cases b.pollingActive with
  | true => exact ⟨nofun, nofun, nofun, nofun⟩
  | false => exact ⟨fun _ => rfl, nofun, nofun, fun _ _ => rfl⟩

/-- The polling thread goes on. -/
theorem Coherent.goesOn {s : Threads} (h : Coherent s) (hrunning : s.poller ≠ .finished) {p : Poller}
    (hp : p ≠ .finished) (backend : NvidiaGpuBackend) :
    Coherent { s with backend := backend, poller := p } where
  finished := fun hfinished => absurd hfinished hp
  returned := fun hreturned => absurd (h.returned hreturned) hrunning
  cleared := h.cleared
  untouched := fun hinactive huntouched => absurd (h.untouched hinactive huntouched) hrunning

theorem pollerStep_coherent [Rounding] (now : Double) (nvml : NvmlReads) {s : Threads} (h : Coherent s) :
    Coherent (pollerStep now nvml s).2 := by
  obtain ⟨backend, active, poller, stopper⟩ := s
  cases poller with
  | test =>
    cases active with
    | true => exact h.goesOn (p := .stamp) nofun nofun backend
    | false => exact ⟨fun _ => rfl, fun _ => rfl, h.cleared, fun _ _ => rfl⟩
  | stamp => exact h.goesOn (p := .visit now 0) nofun nofun backend
  | visit ts turn =>
    unfold pollerStep
    dsimp only
    split
    next => exact h.goesOn (p := .visit ts (turn + 1)) nofun nofun _
    next => exact h.goesOn (p := .sleep) nofun nofun backend
  | sleep => exact h.goesOn (p := .test) nofun nofun backend
  | finished => exact h

theorem stopperStep_coherent {s : Threads} (h : Coherent s) : Coherent (stopperStep s).2 := by
  obtain ⟨backend, active, poller, stopper⟩ := s
  cases stopper with
  | idle => exact ⟨h.finished, nofun, nofun, fun hinactive _ => h.untouched hinactive (Or.inl rfl)⟩
  | test =>
    cases active with
    | true => exact ⟨h.finished, nofun, nofun, nofun⟩
    | false =>
      have hfinished := h.untouched rfl (Or.inr rfl)
      exact ⟨fun _ => rfl, fun _ => hfinished, nofun, fun _ _ => hfinished⟩
  | clear => exact ⟨fun _ => rfl, nofun, fun _ => rfl, nofun⟩
  | join =>
    cases poller with
    | finished => exact ⟨h.finished, fun _ => rfl, nofun, nofun⟩
    | _ => exact h
  | returned => exact h

/-- **No step of either thread breaks what holds at every step.** -/
theorem coherent_preserved [Rounding] : machine.Preserved (fun _ => True) Coherent := by
  intro s move _ h
  cases move with
  | poller now nvml => exact pollerStep_coherent now nvml h
  | stopper => exact stopperStep_coherent h

theorem coherent_run [Rounding] (b : NvidiaGpuBackend) (moves : List Move) :
    Coherent (machine.run (start b) moves) :=
  coherent_preserved.run (start_coherent b) fun _ _ => trivial

/-- A cleared flag stays cleared. -/
theorem inactive_next [Rounding] {s : Threads} (h : s.pollingActive = false) (move : Move) :
    (machine.next s move).pollingActive = false := by
  obtain ⟨backend, active, poller, stopper⟩ := s
  obtain rfl : active = false := h
  cases move with
  | poller now nvml =>
    cases poller with
    | visit ts turn =>
      show (pollerStep now nvml _).2.pollingActive = false
      unfold pollerStep
      dsimp only
      split <;> rfl
    | _ => rfl
  | stopper =>
    cases stopper with
    | join => cases poller <;> rfl
    | _ => rfl

/-! ### After the flag is cleared -/

/-- The turns the polling thread still needs when the flag is cleared and `n` GPUs are listed. -/
def Poller.turnsLeft (n : ℕ) : Poller → ℕ
  | finished => 0
  | test => 1
  | sleep => 2
  | visit _ turn => n - turn + 3
  | stamp => n + 4

theorem gpuIndices_next [Rounding] (s : Threads) (move : Move) :
    (machine.next s move).backend.gpuIndices = s.backend.gpuIndices := by
  obtain ⟨backend, active, poller, stopper⟩ := s
  cases move with
  | poller now nvml =>
    cases poller with
    | visit ts turn =>
      show (pollerStep now nvml _).2.backend.gpuIndices = _
      unfold pollerStep
      dsimp only
      split
      next => exact congrArg Devices.gpuIndices (backend.pollTurn_devices ts nvml turn)
      next => rfl
    | _ => rfl
  | stopper =>
    cases stopper with
    | join => cases poller <;> rfl
    | _ => rfl

/-- The polling thread's turn takes it nearer to its end. -/
theorem turnsLeft_poller [Rounding] {s : Threads} (h : s.pollingActive = false) (now : Double) (nvml : NvmlReads) :
    (pollerStep now nvml s).2.poller.turnsLeft s.backend.gpuIndices.length ≤
      s.poller.turnsLeft s.backend.gpuIndices.length - 1 := by
  obtain ⟨backend, active, poller, stopper⟩ := s
  obtain rfl : active = false := h
  cases poller with
  | visit ts turn =>
    unfold pollerStep
    dsimp only
    split
    next hturn =>
      show backend.gpuIndices.length - (turn + 1) + 3 ≤ backend.gpuIndices.length - turn + 3 - 1
      omega
    next =>
      show 2 ≤ backend.gpuIndices.length - turn + 3 - 1
      omega
  | test => exact Nat.le_refl 0
  | stamp => exact Nat.le_refl _
  | sleep => exact Nat.le_refl 1
  | finished => exact Nat.le_refl 0

theorem turnsLeft_stopper (s : Threads) (n : ℕ) :
    (stopperStep s).2.poller.turnsLeft n ≤ s.poller.turnsLeft n := by
  obtain ⟨backend, active, poller, stopper⟩ := s
  cases stopper with
  | join => cases poller <;> exact Nat.le_refl _
  | _ => exact Nat.le_refl _

theorem inactive_finishes [Rounding] {s : Threads} (hinactive : s.pollingActive = false) {later : List Move}
    (hturns : s.backend.gpuIndices.length + 4 ≤ later.countP Move.ofPoller) :
    (machine.run s later).poller = .finished := by
  have hkept : machine.Preserved (fun _ => True) fun t =>
      t.pollingActive = false ∧ t.backend.gpuIndices.length = s.backend.gpuIndices.length := by
    intro t move _ ⟨ht, hlen⟩
    exact ⟨inactive_next ht move, by rw [gpuIndices_next, hlen]⟩
  have hmeasure := Machine.measure_run Move.ofPoller
    (fun t => t.poller.turnsLeft s.backend.gpuIndices.length) hkept ?mine ?other ⟨hinactive, rfl⟩ later
    fun _ _ => trivial
  case mine =>
    intro t move _ ⟨ht, hlen⟩ hmove
    cases move with
    | poller now nvml => exact hlen ▸ turnsLeft_poller ht now nvml
    | stopper => cases hmove
  case other =>
    intro t move _ _ hmove
    cases move with
    | poller now nvml => cases hmove
    | stopper => exact turnsLeft_stopper t _
  have hmost : s.poller.turnsLeft s.backend.gpuIndices.length ≤ s.backend.gpuIndices.length + 4 := by
    cases s.poller <;> simp only [Poller.turnsLeft] <;> omega
  have hzero : (machine.run s later).poller.turnsLeft s.backend.gpuIndices.length = 0 := by omega
  cases hp : (machine.run s later).poller with
  | finished => rfl
  | _ => rw [hp] at hzero; simp [Poller.turnsLeft] at hzero

theorem gpuIndices_run [Rounding] (s : Threads) (moves : List Move) :
    (machine.run s moves).backend.gpuIndices = s.backend.gpuIndices :=
  Machine.constant_run (f := fun s => s.backend.gpuIndices) gpuIndices_next s moves

/-- The destructor that waits for the thread goes on waiting, or returns. -/
theorem joined_next [Rounding] {s : Threads} (h : s.stopper = .join ∨ s.stopper = .returned) (move : Move) :
    (machine.next s move).stopper = .join ∨ (machine.next s move).stopper = .returned := by
  obtain ⟨backend, active, poller, stopper⟩ := s
  cases move with
  | poller now nvml =>
    cases poller with
    | visit ts turn =>
      show (pollerStep now nvml _).2.stopper = .join ∨ (pollerStep now nvml _).2.stopper = .returned
      unfold pollerStep
      dsimp only
      split <;> exact h
    | _ => exact h
  | stopper =>
    rcases h with h | h
    · obtain rfl : stopper = .join := h
      cases poller with
      | finished => exact Or.inr rfl
      | _ => exact Or.inl rfl
    · obtain rfl : stopper = .returned := h
      exact Or.inr rfl

/-- **Stopping takes a round's worth of turns at most.** A destructor that has cleared the
flag returns once the polling thread has had as many turns as GPUs are listed, and four. -/
theorem stop_returns [Rounding] (b : NvidiaGpuBackend) (moves later : List Move)
    (hjoin : (machine.run (start b) moves).stopper = .join)
    (hturns : b.gpuIndices.length + 4 ≤ later.countP Move.ofPoller) :
    (machine.run (start b) (moves ++ later ++ [.stopper])).stopper = .returned := by
  have hinactive := (coherent_run b moves).cleared hjoin
  have hlength : (machine.run (start b) moves).backend.gpuIndices.length = b.gpuIndices.length := by
    rw [gpuIndices_run]
    rfl
  have hturns' : (machine.run (start b) moves).backend.gpuIndices.length + 4 ≤ later.countP Move.ofPoller := by
    rw [hlength]
    exact hturns
  have hfinished := inactive_finishes hinactive hturns'
  have hjoined : machine.Preserved (fun _ => True) fun s => s.stopper = .join ∨ s.stopper = .returned :=
    fun _ move _ h => joined_next h move
  have hstopper : (machine.run (machine.run (start b) moves) later).stopper = .join ∨
      (machine.run (machine.run (start b) moves) later).stopper = .returned :=
    hjoined.run (Or.inl hjoin) fun _ _ => trivial
  rw [Machine.run_append, Machine.run_append]
  generalize machine.run (machine.run (start b) moves) later = s at hfinished hstopper ⊢
  obtain ⟨backend, active, poller, stopper⟩ := s
  obtain rfl : poller = .finished := hfinished
  rcases hstopper with h | h
  · obtain rfl : stopper = .join := h
    rfl
  · obtain rfl : stopper = .returned := h
    rfl

/-- The destructor clears the flag while the polling thread is in its round. -/
def sampleMoves : List Move := List.replicate 2 (.poller 4 sampleAnswers) ++ List.replicate 3 .stopper

attribute [local instance] Rounding.binary64 in
theorem stop_returns_sample :
    (machine.run (start samplePolled)
      (sampleMoves ++ List.replicate 5 (.poller 4 sampleAnswers) ++ [.stopper])).stopper = .returned :=
  stop_returns samplePolled sampleMoves _ rfl (by decide)

/-! ### The last samples -/

/-- The flag is cleared, and the polling thread is not in a round. -/
structure Quiet (s : Threads) : Prop where
  inactive : s.pollingActive = false
  past : s.poller = .test ∨ s.poller = .sleep ∨ s.poller = .finished

theorem quiet_next [Rounding] {s : Threads} (h : Quiet s) (move : Move) :
    Quiet (machine.next s move) ∧ (machine.next s move).backend = s.backend := by
  obtain ⟨backend, active, poller, stopper⟩ := s
  obtain ⟨hinactive, hpast⟩ := h
  obtain rfl : active = false := hinactive
  cases move with
  | poller now nvml =>
    obtain rfl | rfl | rfl : poller = .test ∨ poller = .sleep ∨ poller = .finished := hpast
    · exact ⟨⟨rfl, Or.inr (Or.inr rfl)⟩, rfl⟩
    · exact ⟨⟨rfl, Or.inl rfl⟩, rfl⟩
    · exact ⟨⟨rfl, Or.inr (Or.inr rfl)⟩, rfl⟩
  | stopper =>
    cases stopper with
    | join => cases poller <;> exact ⟨⟨rfl, hpast⟩, rfl⟩
    | _ => exact ⟨⟨rfl, hpast⟩, rfl⟩

theorem quiet_run [Rounding] {s : Threads} (h : Quiet s) (moves : List Move) :
    (machine.run s moves).backend = s.backend :=
  machine.constant_while (fun _ => quiet_next) h moves

/-- The destructor's turn changes neither the backend nor where the polling thread stands. -/
theorem stopperStep_frame (s : Threads) :
    (stopperStep s).2.backend = s.backend ∧ (stopperStep s).2.poller = s.poller := by
  obtain ⟨backend, active, poller, stopper⟩ := s
  cases stopper with
  | join => cases poller <;> exact ⟨rfl, rfl⟩
  | _ => exact ⟨rfl, rfl⟩

/-- What the samples get at most: `n` more of them, all stamped `ts`. -/
def Gets (ts : Double) (n : ℕ) (before after : List PowerSample) : Prop :=
  ∃ late, after = before ++ late ∧ late.length ≤ n ∧ ∀ s ∈ late, s.timestamp = ts

theorem Gets.none (ts : Double) (n : ℕ) {before after : List PowerSample} (h : after = before) :
    Gets ts n before after :=
  ⟨[], by rw [h, List.append_nil], Nat.zero_le n, fun _ hs => absurd hs List.not_mem_nil⟩

theorem gets_pollTurn [Rounding] (b : NvidiaGpuBackend) (ts : Double) (nvml : NvmlReads) (turn : ℕ) :
    Gets ts 1 b.samples (b.pollTurn ts nvml turn).samples := by
  rcases b.pollTurn_cases ts nvml turn with h | ⟨g, power, -, -, -, -, h⟩
  · exact Gets.none ts 1 (by rw [h])
  · exact ⟨[⟨ts, g, power⟩], by rw [h], Nat.le_refl 1, fun s hs => by rw [List.mem_singleton.mp hs]⟩

theorem Gets.trans {ts : Double} {m n : ℕ} {before between after : List PowerSample}
    (hfirst : Gets ts m before between) (hrest : Gets ts n between after) : Gets ts (m + n) before after := by
  obtain ⟨late, rfl, hlen, hlate⟩ := hfirst
  obtain ⟨later, rfl, hlen', hlater⟩ := hrest
  refine ⟨late ++ later, List.append_assoc _ _ _, ?_, ?_⟩
  · rw [List.length_append]
    omega
  · intro s hs
    rcases List.mem_append.mp hs with hs | hs
    · exact hlate s hs
    · exact hlater s hs

theorem next_visit [Rounding] {s : Threads} {ts : Double} {turn : ℕ} (hvisit : s.poller = .visit ts turn)
    (now : Double) (nvml : NvmlReads) :
    machine.next s (.poller now nvml) =
      if turn < s.backend.gpuIndices.length then
        { s with backend := s.backend.pollTurn ts nvml turn, poller := .visit ts (turn + 1) }
      else { s with poller := .sleep } := by
  obtain ⟨backend, active, poller, stopper⟩ := s
  obtain rfl : poller = .visit ts turn := hvisit
  show (pollerStep now nvml _).2 = _
  unfold pollerStep
  dsimp only
  split <;> rfl

/-- In a round, a sample is still to come for each turn that is. -/
theorem gets_visit [Rounding] {s : Threads} (hinactive : s.pollingActive = false) {ts : Double} {turn : ℕ}
    (hvisit : s.poller = .visit ts turn) (moves : List Move) :
    Gets ts (s.backend.gpuIndices.length - turn) s.backend.samples (machine.run s moves).backend.samples := by
  induction moves generalizing s turn with
  | nil => exact Gets.none _ _ rfl
  | cons move moves ih =>
    have hnext := inactive_next hinactive move
    have hindices := gpuIndices_next s move
    rw [Machine.run]
    cases move with
    | stopper =>
      obtain ⟨hbackend, hpoller⟩ := stopperStep_frame s
      have hrest := ih hnext (hpoller.trans hvisit)
      rw [show (machine.next s .stopper).backend = s.backend from hbackend] at hrest
      exact hrest
    | poller now nvml =>
      rw [next_visit hvisit] at hnext hindices ⊢
      by_cases hturn : turn < s.backend.gpuIndices.length
      · rw [if_pos hturn] at hnext hindices ⊢
        have hrest := ih hnext rfl
        rw [hindices] at hrest
        have hboth := (gets_pollTurn s.backend ts nvml turn).trans hrest
        rwa [show 1 + (s.backend.gpuIndices.length - (turn + 1)) = s.backend.gpuIndices.length - turn by
          omega] at hboth
      · rw [if_neg hturn] at hnext ⊢
        have hquiet : Quiet { s with poller := .sleep } := ⟨hnext, Or.inr (Or.inl rfl)⟩
        exact Gets.none _ _ (congrArg NvidiaGpuBackend.samples (quiet_run hquiet moves))

/-- A thread that is about to begin a round may still make it. -/
theorem gets_stamp [Rounding] {s : Threads} (hinactive : s.pollingActive = false) (hstamp : s.poller = .stamp)
    (moves : List Move) :
    ∃ ts, Gets ts s.backend.gpuIndices.length s.backend.samples (machine.run s moves).backend.samples := by
  induction moves generalizing s with
  | nil => exact ⟨0, Gets.none _ _ rfl⟩
  | cons move moves ih =>
    have hnext := inactive_next hinactive move
    rw [Machine.run]
    cases move with
    | stopper =>
      obtain ⟨hbackend, hpoller⟩ := stopperStep_frame s
      have hrest := ih hnext (hpoller.trans hstamp)
      rw [show (machine.next s .stopper).backend = s.backend from hbackend] at hrest
      exact hrest
    | poller now nvml =>
      obtain ⟨backend, active, poller, stopper⟩ := s
      obtain rfl : poller = .stamp := hstamp
      exact ⟨now, gets_visit hnext rfl moves⟩

/-- The samples that the round in progress can still push. -/
def Poller.visitsLeft (n : ℕ) : Poller → ℕ
  | stamp => n
  | visit _ turn => n - turn
  | test | sleep | finished => 0

/-- **The last samples.** From where the flag is cleared, whatever the polling thread still
pushes belongs to the round it is in: all of it has one timestamp, and there is a sample for
each turn left at most, so none where the thread sleeps. From where `stop_polling` has
returned, it pushes nothing. -/
theorem samples_after_stop [Rounding] (b : NvidiaGpuBackend) (moves later : List Move) :
    ((machine.run (start b) moves).pollingActive = false →
      ∃ ts late, (machine.run (start b) (moves ++ later)).backend.samples =
          (machine.run (start b) moves).backend.samples ++ late ∧
        late.length ≤ (machine.run (start b) moves).poller.visitsLeft b.gpuIndices.length ∧
        ∀ s ∈ late, s.timestamp = ts) ∧
      ((machine.run (start b) moves).stopper = .returned →
        (machine.run (start b) (moves ++ later)).backend = (machine.run (start b) moves).backend) := by
  have hcoherent := coherent_run b moves
  have hindices : (machine.run (start b) moves).backend.gpuIndices = b.gpuIndices := gpuIndices_run _ moves
  rw [Machine.run_append]
  generalize machine.run (start b) moves = s at hcoherent hindices ⊢
  constructor
  · intro hinactive
    rw [← hindices]
    have hquiet : s.poller = .test ∨ s.poller = .sleep ∨ s.poller = .finished →
        Gets 0 0 s.backend.samples (machine.run s later).backend.samples := by
      intro hpast
      exact Gets.none _ _ (congrArg NvidiaGpuBackend.samples (quiet_run ⟨hinactive, hpast⟩ later))
    cases hp : s.poller with
    | test => exact ⟨0, hquiet (Or.inl hp)⟩
    | sleep => exact ⟨0, hquiet (Or.inr (Or.inl hp))⟩
    | finished => exact ⟨0, hquiet (Or.inr (Or.inr hp))⟩
    | stamp => exact gets_stamp hinactive hp later
    | visit ts turn => exact ⟨ts, gets_visit hinactive hp later⟩
  · intro hreturned
    have hfinished := hcoherent.returned hreturned
    exact quiet_run ⟨hcoherent.finished hfinished, Or.inr (Or.inr hfinished)⟩ later

/-- The destructor clears the flag when the round is over. -/
def asleepMoves : List Move := List.replicate 4 (.poller 4 sampleAnswers) ++ List.replicate 3 .stopper

attribute [local instance] Rounding.binary64 in
theorem samples_after_stop_sample :
    (∃ ts late, (machine.run (start samplePolled)
            (sampleMoves ++ List.replicate 5 (.poller 4 sampleAnswers))).backend.samples =
          (machine.run (start samplePolled) sampleMoves).backend.samples ++ late ∧
        late.length ≤ 1 ∧ ∀ s ∈ late, s.timestamp = ts) ∧
      (machine.run (start samplePolled)
        (sampleMoves ++ List.replicate 5 (.poller 4 sampleAnswers))).backend.samples.length = 4 ∧
      (machine.run (start samplePolled) asleepMoves).backend.samples.length = 4 ∧
      ∃ ts late, (machine.run (start samplePolled)
            (asleepMoves ++ List.replicate 5 (.poller 4 sampleAnswers))).backend.samples =
          (machine.run (start samplePolled) asleepMoves).backend.samples ++ late ∧
        late.length ≤ 0 ∧ ∀ s ∈ late, s.timestamp = ts := by
  have hasleep : (machine.run (start samplePolled) asleepMoves).poller = .sleep := by decide +kernel
  have hlate := (samples_after_stop samplePolled asleepMoves (List.replicate 5 (.poller 4 sampleAnswers))).1
    (by decide +kernel)
  rw [hasleep] at hlate
  exact ⟨(samples_after_stop samplePolled sampleMoves (List.replicate 5 (.poller 4 sampleAnswers))).1 rfl,
    by decide +kernel, by decide +kernel, hlate⟩

end ZeusPower.Device.NvidiaStop
