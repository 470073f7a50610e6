import Mathlib.Data.List.Forall2
import ZeusPower.Device.NvidiaListing
import ZeusPower.Monitor.Run

/-! Monitors over the same GPUs, listed in two ways.

A feed says what happens outside the program: a round of a polling thread, or a window call,
and what the driver answers to it. A round is as many turns as GPUs are listed, so the two
monitors take different numbers of steps for one entry of the feed. What their states have
in common is `Alike`, and every entry keeps it; so over a whole feed the windows measure the
same (`same_indices_same_energy`). -/
namespace ZeusPower.Monitor.SameIndices
open Device Library Rounding
open EnergyMonitor (machine)
open NvidiaGpuBackend (SameListing)

inductive Feed where
  | nvidiaRound (ts : Double) (reads : SteadyReads)
  | jetsonRound (now : Double) (sysfs : ℕ → Sysfs)
  | beginWindow (key : String) (now : Double) (reads : SteadyReads) (ioreport : IOReport)
  | endWindow (key : String) (now : Double) (reads : SteadyReads) (ioreport : IOReport)

/-- An entry of the feed, as it reaches a monitor that lists `n` GPUs. -/
def Feed.events (n : ℕ) : Feed → List Event
  | nvidiaRound ts reads => (List.range n).map (.nvidiaTurn ts reads.toReads)
  | jetsonRound now sysfs => [.jetsonRound now sysfs]
  | beginWindow key now reads ioreport => [.beginWindow key ⟨now, reads.toReads, ioreport⟩]
  | endWindow key now reads ioreport => [.endWindow key ⟨now, reads.toReads, ioreport⟩]

/-- What the ends of a history returned, or threw. -/
def ended (t : List Entry) : List (Except Error Measurement) :=
  t.filterMap fun x => match x.outcome with
    | .ended result => some result
    | _ => none

theorem ended_append (t t' : List Entry) : ended (t ++ t') = ended t ++ ended t' := List.filterMap_append

/-- The same measurement, or none from either. -/
def SameResult [Rounding] : Except Error Measurement → Except Error Measurement → Prop
  | .ok result, .ok result' => result.gpuEnergy = result'.gpuEnergy ∧
      result.totalGpuEnergy = result'.totalGpuEnergy ∧ result.socEnergy = result'.socEnergy ∧
      result.elapsedTime = result'.elapsedTime
  | .error _, .error _ => True
  | _, _ => False

/-- Two monitors that differ in their lists of GPUs alone. -/
structure Alike (n n' : ℕ) (m m' : EnergyMonitor) : Prop where
  backends : ∃ history b b' jetson apple, m.backends = ⟨some b, jetson, apple⟩ ∧
    m'.backends = ⟨some b', jetson, apple⟩ ∧ SameListing history b b' ∧
    b.gpuIndices.length = n ∧ b'.gpuIndices.length = n'
  windows : m.windows = m'.windows

/-! ### A round -/

/-- The turns of a round answer nothing, and make a round of the backend. -/
theorem run_turns [Rounding] (m : EnergyMonitor) (ts : Double) (nvml : NvmlReads) (turns : List ℕ) :
    machine.run m (turns.map (.nvidiaTurn ts nvml)) = { m with backends := { m.backends with
      nvidia := m.backends.nvidia.map fun b => turns.foldl (fun b n => b.pollTurn ts nvml n) b } } ∧
    ended (machine.trace m (turns.map (.nvidiaTurn ts nvml))) = [] := by
  induction turns generalizing m with
  | nil =>
    refine ⟨?_, rfl⟩
    show m = _
    simp only [List.foldl_nil, Option.map_id']
  | cons n turns ih =>
    obtain ⟨hrun, hended⟩ := ih (machine.next m (.nvidiaTurn ts nvml n))
    refine ⟨?_, hended⟩
    rw [List.map_cons, Machine.run, hrun]
    show ({ m with backends := { m.backends with nvidia := (m.backends.nvidia.map _).map _ } } :
      EnergyMonitor) = _
    rw [Option.map_map]
    rfl

section Steps
variable [Rounding] {n n' : ℕ} {m m' : EnergyMonitor}

theorem alike_nvidiaRound (h : Alike n n' m m') (ts : Double) (reads : SteadyReads) :
    Alike n n' (machine.run m ((List.range n).map (.nvidiaTurn ts reads.toReads)))
      (machine.run m' ((List.range n').map (.nvidiaTurn ts reads.toReads))) := by
  obtain ⟨⟨history, b, b', jetson, apple, hb, hb', hsame, rfl, rfl⟩, hwindows⟩ := h
  rw [(run_turns _ _ _ _).1, (run_turns _ _ _ _).1]
  have hlength : ∀ b : NvidiaGpuBackend, (b.pollRound ts reads.toReads).gpuIndices = b.gpuIndices :=
    fun b => congrArg NvidiaGpuBackend.Devices.gpuIndices (b.pollRound_devices ts reads.toReads)
  refine ⟨⟨_, b.pollRound ts reads.toReads, b'.pollRound ts reads.toReads, jetson, apple, ?_, ?_,
    hsame.pollRound ts reads, by rw [hlength], by rw [hlength]⟩, hwindows⟩
  · rw [hb]
    rfl
  · rw [hb']
    rfl

theorem alike_jetsonRound (h : Alike n n' m m') (now : Double) (sysfs : ℕ → Sysfs) :
    Alike n n' (machine.next m (.jetsonRound now sysfs)) (machine.next m' (.jetsonRound now sysfs)) := by
  obtain ⟨⟨history, b, b', jetson, apple, hb, hb', hsame, hn, hn'⟩, hwindows⟩ := h
  refine ⟨⟨history, b, b', jetson.map (·.pollRound now sysfs), apple, ?_, ?_, hsame, hn, hn'⟩, hwindows⟩
  · show m.backends.jetsonRound now sysfs = _
    rw [hb]
    rfl
  · show m'.backends.jetsonRound now sysfs = _
    rw [hb']
    rfl

/-! ### A window call -/

variable (key : String) (now : Double) (reads : SteadyReads) (ioreport : IOReport)

theorem takeSnapshots_eq (h : Alike n n' m m') :
    (m.backends.takeSnapshots ⟨now, reads.toReads, ioreport⟩).toOption =
      (m'.backends.takeSnapshots ⟨now, reads.toReads, ioreport⟩).toOption := by
  obtain ⟨history, b, b', jetson, apple, hb, hb', hsame, -, -⟩ := h.backends
  have hsnapshot := hsame.snapshot_eq reads
  rw [hb, hb']
  unfold BackendPtrs.takeSnapshots BackendPtrs.readNvidia
  simp only [Fallible.toOption_bind, hsnapshot]
  rfl

theorem measure_eq (h : Alike n n' m m') (state : WindowState) :
    (m.backends.measure state ⟨now, reads.toReads, ioreport⟩).toOption =
      (m'.backends.measure state ⟨now, reads.toReads, ioreport⟩).toOption := by
  obtain ⟨history, b, b', jetson, apple, hb, hb', hsame, -, -⟩ := h.backends
  have hdelta := hsame.delta_eq reads state.nvidiaSnap state.startTime now (fl (now - state.startTime))
  rw [hb, hb']
  unfold BackendPtrs.measure BackendPtrs.readNvidia
  simp only [Fallible.toOption_bind, hdelta]
  rfl

theorem alike_begin (h : Alike n n' m m') :
    Alike n n' (machine.next m (.beginWindow key ⟨now, reads.toReads, ioreport⟩))
      (machine.next m' (.beginWindow key ⟨now, reads.toReads, ioreport⟩)) := by
  rw [next_begin, next_begin, EnergyMonitor.beginWindow_call, EnergyMonitor.beginWindow_call, ← h.windows]
  by_cases hkey : key ∈ m.windows
  · rw [if_pos hkey, if_pos hkey]
    exact h
  · rw [if_neg hkey, if_neg hkey]
    obtain ⟨state, hx, hy⟩ | ⟨e, e', hx, hy⟩ :=
      Fallible.toOption_eq_cases (takeSnapshots_eq now reads ioreport h)
    · rw [hx, hy]
      exact ⟨h.backends, rfl⟩
    · rw [hx, hy]
      exact h

/-- An end finds the same window in both, and measures the same against it. -/
theorem alike_end (h : Alike n n' m m') :
    SameResult ((EnergyMonitor.endWindow key ⟨now, reads.toReads, ioreport⟩).call m).1
        ((EnergyMonitor.endWindow key ⟨now, reads.toReads, ioreport⟩).call m').1 ∧
      Alike n n' (machine.next m (.endWindow key ⟨now, reads.toReads, ioreport⟩))
        (machine.next m' (.endWindow key ⟨now, reads.toReads, ioreport⟩)) := by
  rw [next_end, next_end, EnergyMonitor.endWindow_call, EnergyMonitor.endWindow_call, ← h.windows]
  cases m.windows[key]? with
  | none => exact ⟨trivial, h⟩
  | some state =>
    obtain ⟨result, hx, hy⟩ | ⟨e, e', hx, hy⟩ :=
      Fallible.toOption_eq_cases (measure_eq now reads ioreport h state)
    · simp only [hx, hy]
      exact ⟨⟨rfl, rfl, rfl, rfl⟩, h.backends, rfl⟩
    · simp only [hx, hy]
      exact ⟨trivial, h⟩

end Steps

/-! ### A feed -/

theorem alike_events [Rounding] {n n' : ℕ} {m m' : EnergyMonitor} (h : Alike n n' m m') (f : Feed) :
    List.Forall₂ SameResult (ended (machine.trace m (f.events n))) (ended (machine.trace m' (f.events n'))) ∧
      Alike n n' (machine.run m (f.events n)) (machine.run m' (f.events n')) := by
  cases f with
  | nvidiaRound ts reads =>
    refine ⟨?_, alike_nvidiaRound h ts reads⟩
    show List.Forall₂ SameResult (ended (machine.trace m (List.map _ _)))
      (ended (machine.trace m' (List.map _ _)))
    rw [(run_turns _ _ _ _).2, (run_turns _ _ _ _).2]
    exact List.Forall₂.nil
  | jetsonRound now sysfs => exact ⟨List.Forall₂.nil, alike_jetsonRound h now sysfs⟩
  | beginWindow key now reads ioreport => exact ⟨List.Forall₂.nil, alike_begin key now reads ioreport h⟩
  | endWindow key now reads ioreport =>
    obtain ⟨hresult, hnext⟩ := alike_end key now reads ioreport h
    exact ⟨List.Forall₂.cons hresult List.Forall₂.nil, hnext⟩

theorem alike_feed [Rounding] {n n' : ℕ} {m m' : EnergyMonitor} (h : Alike n n' m m') (feed : List Feed) :
    List.Forall₂ SameResult (ended (machine.trace m (feed.flatMap (Feed.events n))))
      (ended (machine.trace m' (feed.flatMap (Feed.events n')))) := by
  induction feed generalizing m m' with
  | nil => exact List.Forall₂.nil
  | cons f feed ih =>
    obtain ⟨hfirst, hnext⟩ := alike_events h f
    rw [List.flatMap_cons, List.flatMap_cons, Machine.trace_append, Machine.trace_append, ended_append,
      ended_append]
    exact List.rel_append hfirst (ih hnext)

/-- **Only the set of GPUs matters.** Two lists of GPUs with the same members build monitors whose
windows measure the same, end by end, over any feed of rounds and window calls. -/
theorem same_indices_same_energy [Rounding] {compiled : Bool} {setup : SteadySetup} {indices indices' : List Int}
    {b b' : NvidiaGpuBackend} (hsame : ∀ g, g ∈ indices ↔ g ∈ indices')
    (h : NvidiaGpuBackend.construct compiled setup.toSetup indices = .ok b)
    (h' : NvidiaGpuBackend.construct compiled setup.toSetup indices' = .ok b')
    (jetson : Option JetsonSoCBackend) (apple : Option AppleSoCBackend) (feed : List Feed) :
    List.Forall₂ SameResult
      (ended (machine.trace (.construct ⟨some b, jetson, apple⟩)
        (feed.flatMap (Feed.events b.gpuIndices.length))))
      (ended (machine.trace (.construct ⟨some b', jetson, apple⟩)
        (feed.flatMap (Feed.events b'.gpuIndices.length)))) := by
  have halike : Alike b.gpuIndices.length b'.gpuIndices.length (.construct ⟨some b, jetson, apple⟩)
      (.construct ⟨some b', jetson, apple⟩) :=
    ⟨⟨_, b, b', jetson, apple, rfl, rfl, NvidiaGpuBackend.construct_sameListing hsame h h', rfl, rfl⟩, rfl⟩
  exact alike_feed halike feed

/-- An old GPU and a new one, listed once and listed in another order with a repetition. -/
def sampleSetup : SteadySetup where
  init := .ok ()
  deviceCount := .ok 2
  handleByIndex := fun index => .ok (index + 7)
  architecture := fun handle => .ok (if handle = 7 then 3 else 5)

def sampleReads (powerMw counterMj : ℕ) : SteadyReads where
  totalEnergyConsumption := fun _ => .ok counterMj
  powerUsage := fun _ => .ok powerMw
  powerManagementLimit := fun _ => .error "Not Supported"

def sampleFeed : List Feed :=
  let ioreport : IOReport := { createSamples := none, createSamplesDelta := fun _ _ => none }
  [.beginWindow "epoch" 0 (sampleReads 150000 1000) ioreport, .nvidiaRound 1 (sampleReads 150000 0),
    .nvidiaRound 2 (sampleReads 180000 0), .endWindow "epoch" 3 (sampleReads 160000 9000) ioreport]

/-- The energies of the old GPU and of the new one, in every result. -/
def energies [Rounding] (ends : List (Except Error Measurement)) : List (Option (Option Double × Option Double)) :=
  ends.map fun result => result.toOption.map fun x => (x.gpuEnergy[(0 : Int)]?, x.gpuEnergy[(1 : Int)]?)

attribute [local instance] Rounding.binary64 in
theorem same_indices_same_energy_sample :
    ∃ b, NvidiaGpuBackend.construct true sampleSetup.toSetup [0, 1] = .ok b ∧
      ∃ b', NvidiaGpuBackend.construct true sampleSetup.toSetup [1, 0, 1, 0] = .ok b' ∧
        energies (ended (machine.trace (.construct ⟨some b, none, none⟩)
          (sampleFeed.flatMap (Feed.events b.gpuIndices.length)))) = [some (some 165, some 8)] ∧
        energies (ended (machine.trace (.construct ⟨some b', none, none⟩)
          (sampleFeed.flatMap (Feed.events b'.gpuIndices.length)))) = [some (some 165, some 8)] ∧
        List.Forall₂ SameResult
          (ended (machine.trace (.construct ⟨some b, none, none⟩)
            (sampleFeed.flatMap (Feed.events b.gpuIndices.length))))
          (ended (machine.trace (.construct ⟨some b', none, none⟩)
            (sampleFeed.flatMap (Feed.events b'.gpuIndices.length)))) := by
  have hbuilt : ∃ b, NvidiaGpuBackend.construct true sampleSetup.toSetup [0, 1] = .ok b ∧
      energies (ended (machine.trace (.construct ⟨some b, none, none⟩)
        (sampleFeed.flatMap (Feed.events b.gpuIndices.length)))) = [some (some 165, some 8)] := by
    decide +kernel
  have hbuilt' : ∃ b, NvidiaGpuBackend.construct true sampleSetup.toSetup [1, 0, 1, 0] = .ok b ∧
      energies (ended (machine.trace (.construct ⟨some b, none, none⟩)
        (sampleFeed.flatMap (Feed.events b.gpuIndices.length)))) = [some (some 165, some 8)] := by
    decide +kernel
  obtain ⟨b, h, henergies⟩ := hbuilt
  obtain ⟨b', h', henergies'⟩ := hbuilt'
  refine ⟨b, h, b', h', henergies, henergies', ?_⟩
  exact same_indices_same_energy (by intro g; simp; tauto) h h' none none sampleFeed

end ZeusPower.Monitor.SameIndices
