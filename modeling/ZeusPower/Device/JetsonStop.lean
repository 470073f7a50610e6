import ZeusPower.Device.JetsonRounds
import ZeusPower.Library.Machine

/-! How the Jetson polling thread is stopped (`start_polling`, `stop_polling`).

Between two rounds the polling thread waits on `stop_cv_`, and the destructor wakes it:
it clears `polling_active_` under `stop_mutex_`, notifies, and joins the thread. A run
lets either thread take the next step, and lets the wait end by itself, at its deadline
or for no reason.

The flag is cleared under the lock that the thread holds when it tests the flag and falls
asleep, so the wake-up is never lost: once the destructor has notified, the polling thread
is not asleep (`Coherent.awake`), and finishes in five turns of its own without any
deadline (`notified_thread_finishes`). After the flag is cleared it makes one more round at
most, and none after `stop_polling` has returned (`rounds_after_stop`). -/
namespace ZeusPower.Device.JetsonStop
open Library JetsonSoCBackend

/-! ### The threads -/

/-- Where the polling thread stands. -/
inductive Poller where
  /-- About to test `polling_active_`. -/
  | test
  | round
  /-- Done with the round, about to lock `stop_mutex_`. -/
  | lock
  /-- In `wait_for`, with the lock, about to evaluate the predicate. -/
  | predicate (timedOut : Bool)
  /-- Asleep in `wait_for`, without the lock. -/
  | asleep
  /-- Woken, about to lock `stop_mutex_` again. -/
  | relock (timedOut : Bool)
  /-- Out of `wait_for`, about to release the lock. -/
  | unlock
  | finished
  deriving DecidableEq, Repr

/-- Where the destructor stands in `stop_polling`. -/
inductive Stopper where
  | idle
  | test
  | lock
  | clear
  | unlock
  | notify
  | join
  | returned
  deriving DecidableEq, Repr

inductive Party where
  | poller
  | stopper
  deriving DecidableEq, Repr

structure Threads where
  backend : JetsonSoCBackend
  pollingActive : Bool
  stopMutex : Option Party
  poller : Poller
  stopper : Stopper

inductive Move where
  /-- The polling thread's turn; if it makes a round, it makes this one. -/
  | poller (round : Round)
  | stopper
  /-- The deadline of the wait passes. -/
  | timeout
  /-- The wait ends for no reason. -/
  | spurious

def Move.ofPoller : Move → Bool
  | poller _ => true
  | _ => false

inductive Outcome where
  | moved
  | blocked
  deriving DecidableEq, Repr

/-- The constructor has returned: the polling thread is about to run. -/
def start (b : JetsonSoCBackend) : Threads := ⟨b, true, none, .test, .idle⟩

def pollerStep [Rounding] (round : Round) (s : Threads) : Outcome × Threads :=
  match s.poller with
  | .test => (.moved, { s with poller := if s.pollingActive then .round else .finished })
  | .round => (.moved, { s with backend := s.backend.pollRound round.now round.sysfs, poller := .lock })
  | .lock =>
    match s.stopMutex with
    | none => (.moved, { s with stopMutex := some .poller, poller := .predicate false })
    | some _ => (.blocked, s)
  | .predicate timedOut =>
    if !s.pollingActive || timedOut then (.moved, { s with poller := .unlock })
    else (.moved, { s with stopMutex := none, poller := .asleep })
  | .asleep => (.blocked, s)
  | .relock timedOut =>
    match s.stopMutex with
    | none => (.moved, { s with stopMutex := some .poller, poller := .predicate timedOut })
    | some _ => (.blocked, s)
  | .unlock => (.moved, { s with stopMutex := none, poller := .test })
  | .finished => (.blocked, s)

/-- Where the polling thread stands when the wait has ended, if it was in it. -/
def Poller.woken (timedOut : Bool) : Poller → Poller
  | asleep => relock timedOut
  | p => p

def wake (timedOut : Bool) (s : Threads) : Threads := { s with poller := s.poller.woken timedOut }

def stopperStep (s : Threads) : Outcome × Threads :=
  match s.stopper with
  | .idle => (.moved, { s with stopper := .test })
  | .test => (.moved, { s with stopper := if s.pollingActive then .lock else .returned })
  | .lock =>
    match s.stopMutex with
    | none => (.moved, { s with stopMutex := some .stopper, stopper := .clear })
    | some _ => (.blocked, s)
  | .clear => (.moved, { s with pollingActive := false, stopper := .unlock })
  | .unlock => (.moved, { s with stopMutex := none, stopper := .notify })
  | .notify => (.moved, { wake false s with stopper := .join })
  | .join =>
    match s.poller with
    | .finished => (.moved, { s with stopper := .returned })
    | _ => (.blocked, s)
  | .returned => (.blocked, s)

def machine [Rounding] : Machine Threads Move Outcome where
  step := fun s move => match move with
    | .poller round => pollerStep round s
    | .stopper => stopperStep s
    | .timeout => (.moved, wake true s)
    | .spurious => (.moved, wake false s)

/-! ### What holds at every step -/

/-- The program points at which the polling thread has `stop_mutex_`. -/
def Poller.holds : Poller → Bool
  | predicate _ => true
  | unlock => true
  | _ => false

def Stopper.holds : Stopper → Bool
  | clear => true
  | unlock => true
  | _ => false

/-- The destructor has not cleared `polling_active_` yet. -/
def Stopper.before : Stopper → Bool
  | idle => true
  | test => true
  | lock => true
  | clear => true
  | _ => false

/-- The destructor has notified. -/
def Stopper.notified : Stopper → Bool
  | join => true
  | returned => true
  | _ => false

/-- A state that a run may reach. -/
structure Coherent (s : Threads) : Prop where
  byPoller : s.stopMutex = some .poller ↔ s.poller.holds = true
  byStopper : s.stopMutex = some .stopper ↔ s.stopper.holds = true
  active : s.pollingActive = s.stopper.before
  /-- No wake-up is lost. -/
  awake : s.stopper.notified = true → s.poller ≠ .asleep
  finished : s.poller = .finished → s.pollingActive = false
  returned : s.stopper = .returned → s.poller = .finished

theorem start_coherent (b : JetsonSoCBackend) : Coherent (start b) where
  byPoller := ⟨nofun, nofun⟩
  byStopper := ⟨nofun, nofun⟩
  active := rfl
  awake := nofun
  finished := nofun
  returned := nofun

/-- Whoever has the lock keeps the other out. -/
theorem Coherent.exclusive {s : Threads} (h : Coherent s) (hpoller : s.poller.holds = true) :
    s.stopper.holds = false := by
  rw [← Bool.not_eq_true, ← h.byStopper, h.byPoller.mpr hpoller]
  decide

theorem Coherent.running {s : Threads} (h : Coherent s) (hrunning : s.poller ≠ .finished) :
    s.stopper ≠ .returned := fun hreturned => hrunning (h.returned hreturned)

section PollerSteps
variable {s : Threads} {p : Poller}

theorem Coherent.pollerMoves (h : Coherent s) (hrunning : s.poller ≠ .finished)
    (hholds : p.holds = s.poller.holds) (hawake : p ≠ .asleep)
    (hfinished : p = .finished → s.pollingActive = false) : Coherent { s with poller := p } where
  byPoller := by
    show s.stopMutex = some .poller ↔ p.holds = true
    rw [hholds]
    exact h.byPoller
  byStopper := h.byStopper
  active := h.active
  awake := fun _ => hawake
  finished := hfinished
  returned := fun hreturned => absurd hreturned (h.running hrunning)

theorem Coherent.pollerLocks (h : Coherent s) (hrunning : s.poller ≠ .finished)
    (hfree : s.stopMutex = none) (timedOut : Bool) :
    Coherent { s with stopMutex := some .poller, poller := .predicate timedOut } where
  byPoller := ⟨fun _ => rfl, fun _ => rfl⟩
  byStopper := by
    have hnot : s.stopper.holds ≠ true := fun hholds => by
      rw [h.byStopper.mpr hholds] at hfree
      cases hfree
    exact ⟨fun hmutex => (by cases hmutex), fun hholds => absurd hholds hnot⟩
  active := h.active
  awake := fun _ hasleep => by cases hasleep
  finished := fun hfinished => by cases hfinished
  returned := fun hreturned => absurd hreturned (h.running hrunning)

theorem Coherent.pollerUnlocks (h : Coherent s) (hholds : s.poller.holds = true) (hp : p.holds = false)
    (hawake : p = .asleep → s.pollingActive = true) (hrunning : p ≠ .finished) :
    Coherent { s with stopMutex := none, poller := p } where
  byPoller := ⟨fun hmutex => (by cases hmutex), fun hholds => by rw [hp] at hholds; cases hholds⟩
  byStopper := by
    have hstopper := h.exclusive hholds
    exact ⟨fun hmutex => (by cases hmutex), fun hholds => by rw [hstopper] at hholds; cases hholds⟩
  active := h.active
  awake := by
    -- The thread fell asleep on a set flag, so the destructor is not past clearing it.
    intro hnotified hasleep
    have hbefore := h.active.symm.trans (hawake hasleep)
    cases hstopper : s.stopper with
    | join => rw [hstopper] at hbefore; cases hbefore
    | returned => rw [hstopper] at hbefore; cases hbefore
    | _ =>
      change s.stopper.notified = true at hnotified
      rw [hstopper] at hnotified
      cases hnotified
  finished := fun hfinished => absurd hfinished hrunning
  returned := by
    intro hreturned
    have hfinished := h.returned hreturned
    rw [hfinished] at hholds
    cases hholds

end PollerSteps

theorem pollerStep_coherent [Rounding] (round : Round) {s : Threads} (h : Coherent s) :
    Coherent (pollerStep round s).2 := by
  obtain ⟨backend, active, mutex, poller, stopper⟩ := s
  cases poller with
  | test =>
    cases active with
    | true => exact h.pollerMoves nofun rfl nofun nofun
    | false => exact h.pollerMoves nofun rfl nofun fun _ => rfl
  | round =>
    have hmoved := h.pollerMoves (p := .lock) nofun rfl nofun nofun
    exact ⟨hmoved.byPoller, hmoved.byStopper, hmoved.active, hmoved.awake, hmoved.finished, hmoved.returned⟩
  | lock =>
    cases mutex with
    | none => exact h.pollerLocks nofun rfl false
    | some holder => exact h
  | predicate timedOut =>
    cases active with
    | false => exact h.pollerMoves nofun rfl nofun nofun
    | true =>
      cases timedOut with
      | true => exact h.pollerMoves nofun rfl nofun nofun
      | false => exact h.pollerUnlocks rfl rfl (fun _ => rfl) nofun
  | asleep => exact h
  | relock timedOut =>
    cases mutex with
    | none => exact h.pollerLocks nofun rfl timedOut
    | some holder => exact h
  | unlock => exact h.pollerUnlocks rfl rfl nofun nofun
  | finished => exact h

theorem wake_coherent (timedOut : Bool) {s : Threads} (h : Coherent s) : Coherent (wake timedOut s) := by
  obtain ⟨backend, active, mutex, poller, stopper⟩ := s
  cases poller with
  | asleep => exact h.pollerMoves nofun rfl nofun nofun
  | _ => exact h

theorem Poller.woken_ne_asleep (timedOut : Bool) (p : Poller) : p.woken timedOut ≠ .asleep := by
  cases p with
  | _ => nofun

theorem stopperStep_coherent {s : Threads} (h : Coherent s) : Coherent (stopperStep s).2 := by
  obtain ⟨backend, active, mutex, poller, stopper⟩ := s
  have hexclusive := h.exclusive
  cases stopper with
  | idle => exact ⟨h.byPoller, h.byStopper, h.active, nofun, h.finished, nofun⟩
  | test =>
    obtain rfl : active = true := h.active
    exact ⟨h.byPoller, h.byStopper, rfl, nofun, h.finished, nofun⟩
  | lock =>
    cases mutex with
    | none =>
      have hpoller : poller.holds ≠ true := fun hholds => nomatch h.byPoller.mpr hholds
      exact ⟨⟨nofun, fun hholds => absurd hholds hpoller⟩, ⟨fun _ => rfl, fun _ => rfl⟩, h.active, nofun,
        h.finished, nofun⟩
    | some holder => exact h
  | clear => exact ⟨h.byPoller, h.byStopper, rfl, nofun, fun _ => rfl, nofun⟩
  | unlock =>
    have hpoller : poller.holds ≠ true := fun hholds => nomatch hexclusive hholds
    exact ⟨⟨nofun, fun hholds => absurd hholds hpoller⟩, ⟨nofun, nofun⟩, h.active, nofun, h.finished, nofun⟩
  | notify =>
    have hwoken := wake_coherent false h
    exact ⟨hwoken.byPoller, hwoken.byStopper, hwoken.active, fun _ => poller.woken_ne_asleep false,
      hwoken.finished, nofun⟩
  | join =>
    cases poller with
    | finished => exact ⟨h.byPoller, h.byStopper, h.active, nofun, h.finished, fun _ => rfl⟩
    | _ => exact h
  | returned => exact h

/-- **No step, of either thread, and no end of a wait breaks what holds at every step.** -/
theorem coherent_preserved [Rounding] : machine.Preserved (fun _ => True) Coherent := by
  intro s move _ h
  cases move with
  | poller round => exact pollerStep_coherent round h
  | stopper => exact stopperStep_coherent h
  | timeout => exact wake_coherent true h
  | spurious => exact wake_coherent false h

theorem coherent_run [Rounding] (b : JetsonSoCBackend) (moves : List Move) :
    Coherent (machine.run (start b) moves) :=
  coherent_preserved.run (start_coherent b) fun _ _ => trivial

/-! ### After the notification -/

/-- The turns the polling thread still needs, once it has been notified. -/
def Poller.turnsLeft : Poller → ℕ
  | finished => 0
  | test => 1
  | unlock => 2
  | predicate _ => 3
  | relock _ => 4
  | lock => 4
  | round => 5
  | asleep => 5

/-- The destructor has notified, and the polling thread has not lost the wake-up. -/
structure Notified (s : Threads) : Prop where
  coherent : Coherent s
  notified : s.stopper.notified = true

theorem Notified.inactive {s : Threads} (h : Notified s) : s.pollingActive = false := by
  obtain ⟨hcoherent, hnotified⟩ := h
  rw [hcoherent.active]
  cases hs : s.stopper with
  | join => rfl
  | returned => rfl
  | _ => rw [hs] at hnotified; cases hnotified

/-- Nobody keeps the lock from the polling thread. -/
theorem Notified.free {s : Threads} (h : Notified s) (hholds : s.poller.holds = false) :
    s.stopMutex = none := by
  obtain ⟨hcoherent, hnotified⟩ := h
  cases hmutex : s.stopMutex with
  | none => rfl
  | some holder =>
    cases holder with
    | poller =>
      rw [hcoherent.byPoller.mp hmutex] at hholds
      cases hholds
    | stopper =>
      have hstopper := hcoherent.byStopper.mp hmutex
      cases hs : s.stopper with
      | clear => rw [hs] at hnotified; cases hnotified
      | unlock => rw [hs] at hnotified; cases hnotified
      | _ => rw [hs] at hstopper; cases hstopper

/-- The polling thread leaves the destructor and the flag alone. -/
theorem pollerStep_frame [Rounding] (round : Round) (s : Threads) :
    (pollerStep round s).2.stopper = s.stopper ∧
      (pollerStep round s).2.pollingActive = s.pollingActive := by
  obtain ⟨backend, active, mutex, poller, stopper⟩ := s
  cases poller with
  | lock => cases mutex <;> exact ⟨rfl, rfl⟩
  | relock timedOut => cases mutex <;> exact ⟨rfl, rfl⟩
  | predicate timedOut => cases active <;> cases timedOut <;> exact ⟨rfl, rfl⟩
  | _ => exact ⟨rfl, rfl⟩

theorem notified_preserved [Rounding] : machine.Preserved (fun _ => True) Notified := by
  intro s move hrule h
  refine ⟨coherent_preserved s move hrule h.coherent, ?_⟩
  obtain ⟨hcoherent, hnotified⟩ := h
  cases move with
  | poller round =>
    show (pollerStep round s).2.stopper.notified = true
    rw [(pollerStep_frame round s).1]
    exact hnotified
  | stopper =>
    obtain ⟨backend, active, mutex, poller, stopper⟩ := s
    cases stopper with
    | join => cases poller <;> rfl
    | returned => rfl
    | _ => cases hnotified
  | timeout => exact hnotified
  | spurious => exact hnotified

theorem turnsLeft_poller [Rounding] (round : Round) {s : Threads} (h : Notified s) :
    (pollerStep round s).2.poller.turnsLeft ≤ s.poller.turnsLeft - 1 := by
  have hinactive := h.inactive
  have hfree := h.free
  have hawake := h.coherent.awake h.notified
  obtain ⟨backend, active, mutex, poller, stopper⟩ := s
  obtain rfl : active = false := hinactive
  cases poller with
  | lock =>
    obtain rfl : mutex = none := hfree rfl
    exact Nat.le_refl 3
  | relock timedOut =>
    obtain rfl : mutex = none := hfree rfl
    exact Nat.le_refl 3
  | asleep => exact absurd rfl hawake
  | test => exact Nat.le_refl 0
  | finished => exact Nat.le_refl 0
  | round => exact Nat.le_refl 4
  | predicate timedOut => exact Nat.le_refl 2
  | unlock => exact Nat.le_refl 1

theorem turnsLeft_other [Rounding] {s : Threads} (h : Notified s) {move : Move} (hmove : move.ofPoller = false) :
    (machine.next s move).poller.turnsLeft ≤ s.poller.turnsLeft := by
  have hwake : ∀ timedOut, (s.poller.woken timedOut).turnsLeft ≤ s.poller.turnsLeft := by
    intro timedOut
    cases s.poller with
    | asleep => exact Nat.le_succ 4
    | _ => exact Nat.le_refl _
  cases move with
  | poller round => cases hmove
  | timeout => exact hwake true
  | spurious => exact hwake false
  | stopper =>
    obtain ⟨hcoherent, hnotified⟩ := h
    obtain ⟨backend, active, mutex, poller, stopper⟩ := s
    cases stopper with
    | join => cases poller <;> exact Nat.le_refl _
    | returned => exact Nat.le_refl _
    | _ => cases hnotified

/-- **No wake-up is lost.** Once the destructor has notified, five turns of the polling
thread finish it and one of the destructor returns, whatever comes between them and
without the deadline of any wait. -/
theorem notified_thread_finishes [Rounding] (b : JetsonSoCBackend) (moves later : List Move)
    (hnotified : (machine.run (start b) moves).stopper.notified = true)
    (hturns : 5 ≤ later.countP Move.ofPoller) :
    (machine.run (start b) (moves ++ later)).poller = .finished ∧
      (machine.run (start b) (moves ++ later ++ [.stopper])).stopper = .returned := by
  have hs : Notified (machine.run (start b) moves) := ⟨coherent_run b moves, hnotified⟩
  have hmost : ∀ p : Poller, p.turnsLeft ≤ 5 := by
    intro p
    cases p <;> exact Nat.le_of_ble_eq_true rfl
  have hmeasure := Machine.measure_run Move.ofPoller (fun s => s.poller.turnsLeft) notified_preserved ?mine
    (fun s move _ h => turnsLeft_other h) hs later fun _ _ => trivial
  case mine =>
    intro s move _ h hmove
    cases move with
    | poller round => exact turnsLeft_poller round h
    | _ => cases hmove
  have hlater : Notified (machine.run (machine.run (start b) moves) later) :=
    notified_preserved.run hs fun _ _ => trivial
  rw [Machine.run_append, Machine.run_append, Machine.run_append]
  generalize machine.run (machine.run (start b) moves) later = s at hmeasure hlater ⊢
  have hfinished : s.poller = .finished := by
    have hzero : s.poller.turnsLeft = 0 := by
      have hle := hmost (machine.run (start b) moves).poller
      omega
    cases hp : s.poller with
    | finished => rfl
    | _ => rw [hp] at hzero; cases hzero
  refine ⟨hfinished, ?_⟩
  obtain ⟨hcoherent, hnotified⟩ := hlater
  obtain ⟨backend, active, mutex, poller, stopper⟩ := s
  obtain rfl : poller = .finished := hfinished
  cases stopper with
  | join => rfl
  | returned => rfl
  | _ => cases hnotified

def sampleRound : Round := ⟨1, fun _ _ => some "5000"⟩

/-- The polling thread falls asleep, and the destructor is called until it has notified. -/
def sampleMoves : List Move := List.replicate 4 (.poller sampleRound) ++ List.replicate 6 .stopper

attribute [local instance] Rounding.binary64 in
theorem notified_thread_finishes_sample :
    (machine.run (start (ofRails [sampleRail] 0)) (sampleMoves ++ List.replicate 5 (.poller sampleRound))).poller =
        .finished ∧
      (machine.run (start (ofRails [sampleRail] 0))
        (sampleMoves ++ List.replicate 5 (.poller sampleRound) ++ [.stopper])).stopper = .returned :=
  notified_thread_finishes (ofRails [sampleRail] 0) sampleMoves _ rfl (by decide)

/-! ### The last round -/

/-- The flag is cleared, and the polling thread is past testing it. -/
structure Quiet (s : Threads) : Prop where
  inactive : s.pollingActive = false
  past : s.poller ≠ .round

theorem quiet_next [Rounding] {s : Threads} (h : Quiet s) (move : Move) :
    Quiet (machine.next s move) ∧ (machine.next s move).backend = s.backend := by
  obtain ⟨backend, active, mutex, poller, stopper⟩ := s
  obtain ⟨hinactive, hpast⟩ := h
  obtain rfl : active = false := hinactive
  have hwake : ∀ timedOut, poller.woken timedOut ≠ .round := by
    intro timedOut
    cases poller with
    | round => exact absurd rfl hpast
    | _ => nofun
  cases move with
  | poller round =>
    cases poller with
    | round => exact absurd rfl hpast
    | lock => cases mutex <;> exact ⟨⟨rfl, nofun⟩, rfl⟩
    | relock timedOut => cases mutex <;> exact ⟨⟨rfl, nofun⟩, rfl⟩
    | _ => exact ⟨⟨rfl, nofun⟩, rfl⟩
  | stopper =>
    cases stopper with
    | lock => cases mutex <;> exact ⟨⟨rfl, hpast⟩, rfl⟩
    | notify => exact ⟨⟨rfl, hwake false⟩, rfl⟩
    | join => cases poller <;> exact ⟨⟨rfl, hpast⟩, rfl⟩
    | _ => exact ⟨⟨rfl, hpast⟩, rfl⟩
  | timeout => exact ⟨⟨rfl, hwake true⟩, rfl⟩
  | spurious => exact ⟨⟨rfl, hwake false⟩, rfl⟩

theorem quiet_run [Rounding] {s : Threads} (h : Quiet s) (moves : List Move) :
    (machine.run s moves).backend = s.backend :=
  machine.constant_while (fun _ => quiet_next) h moves

/-- Only the polling thread leaves its round. -/
theorem round_next [Rounding] {s : Threads} (hinactive : s.pollingActive = false) (hround : s.poller = .round)
    (move : Move) :
    (∃ round, move = .poller round ∧ Quiet (machine.next s move) ∧
      (machine.next s move).backend = s.backend.pollRound round.now round.sysfs) ∨
    (machine.next s move).pollingActive = false ∧ (machine.next s move).poller = .round ∧
      (machine.next s move).backend = s.backend := by
  obtain ⟨backend, active, mutex, poller, stopper⟩ := s
  obtain rfl : active = false := hinactive
  obtain rfl : poller = .round := hround
  cases move with
  | poller round => exact Or.inl ⟨round, rfl, ⟨rfl, nofun⟩, rfl⟩
  | stopper =>
    cases stopper with
    | lock => cases mutex <;> exact Or.inr ⟨rfl, rfl, rfl⟩
    | _ => exact Or.inr ⟨rfl, rfl, rfl⟩
  | timeout => exact Or.inr ⟨rfl, rfl, rfl⟩
  | spurious => exact Or.inr ⟨rfl, rfl, rfl⟩

theorem last_round [Rounding] {s : Threads} (hinactive : s.pollingActive = false) (moves : List Move) :
    (machine.run s moves).backend = s.backend ∨
      ∃ round, .poller round ∈ moves ∧
        (machine.run s moves).backend = s.backend.pollRound round.now round.sysfs := by
  induction moves generalizing s with
  | nil => exact Or.inl rfl
  | cons move moves ih =>
    by_cases hround : s.poller = .round
    · rcases round_next hinactive hround move with ⟨round, rfl, hquiet, hbackend⟩ | ⟨hactive, -, hbackend⟩
      · exact Or.inr ⟨round, List.mem_cons_self, (quiet_run hquiet moves).trans hbackend⟩
      · rcases ih hactive with hrest | ⟨round, hmem, hrest⟩
        · exact Or.inl (hrest.trans hbackend)
        · rw [hbackend] at hrest
          exact Or.inr ⟨round, List.mem_cons_of_mem _ hmem, hrest⟩
    · exact Or.inl (quiet_run ⟨hinactive, hround⟩ (move :: moves))

/-- **One more round at most.** From where `polling_active_` is cleared, the accumulators
get at most one more round, the one the polling thread is in; from where `stop_polling`
has returned, none. -/
theorem rounds_after_stop [Rounding] (b : JetsonSoCBackend) (moves later : List Move) :
    ((machine.run (start b) moves).pollingActive = false →
      (machine.run (start b) (moves ++ later)).backend = (machine.run (start b) moves).backend ∨
        ∃ round, .poller round ∈ later ∧ (machine.run (start b) (moves ++ later)).backend =
          (machine.run (start b) moves).backend.pollRound round.now round.sysfs) ∧
      ((machine.run (start b) moves).stopper = .returned →
        (machine.run (start b) (moves ++ later)).backend = (machine.run (start b) moves).backend) := by
  rw [Machine.run_append]
  refine ⟨fun hinactive => last_round hinactive later, fun hreturned => ?_⟩
  have hcoherent := coherent_run b moves
  have hfinished := hcoherent.returned hreturned
  exact quiet_run ⟨hcoherent.finished hfinished, by rw [hfinished]; nofun⟩ later

/-- The destructor clears the flag while the polling thread is in a round. -/
def clearingMoves : List Move := .poller sampleRound :: List.replicate 4 .stopper

def laterMoves : List Move := List.replicate 6 (.poller sampleRound)

attribute [local instance] Rounding.binary64 in
theorem rounds_after_stop_sample :
    (machine.run (start (ofRails [sampleRail] 0)) (clearingMoves ++ laterMoves)).backend =
        (machine.run (start (ofRails [sampleRail] 0)) clearingMoves).backend ∨
      ∃ round, .poller round ∈ laterMoves ∧
        (machine.run (start (ofRails [sampleRail] 0)) (clearingMoves ++ laterMoves)).backend =
          (machine.run (start (ofRails [sampleRail] 0)) clearingMoves).backend.pollRound round.now round.sysfs :=
  (rounds_after_stop (ofRails [sampleRail] 0) clearingMoves laterMoves).1 rfl

end ZeusPower.Device.JetsonStop
