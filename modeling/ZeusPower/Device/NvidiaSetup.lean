import ZeusPower.Device.NvidiaTimeline

/-! A backend whose driver answers every read.

The constructor asks each GPU for its architecture and settles with it which GPUs have a
counter and whether there is a polling thread (`construct_settled`). Over a driver that
never fails (`answers`), a snapshot, a delta and a polling turn always complete, and what
they read is what the driver has to say of each GPU. -/
namespace ZeusPower.Device
open Library

namespace NvidiaGpuBackend

/-! ### Construction -/

/-- The driver reports architecture `arch i` for the handle it gives out for GPU `i`. -/
def Reports (setup : NvmlSetup) (arch : Int → ℕ) : Prop :=
  ∀ (n i : ℕ) (handle : Handle), setup.handleByIndex n i = .ok handle →
    setup.architecture n handle = .ok (arch i)

/-- What the constructor's loop has settled about the GPUs it has visited. -/
structure Settled (arch : Int → ℕ) (visited : List Int) (supportsEnergy : Map Int Bool)
    (needPolling : Bool) : Prop where
  supports : ∀ g ∈ visited, supportsEnergy[g]? = some (decide (5 ≤ arch g))
  polling : ∀ g ∈ visited, arch g < 5 → needPolling = true

theorem register_settled {setup : NvmlSetup} {arch : Int → ℕ} (hreports : Reports setup arch) {count : ℕ}
    {visited : List Int} {reg reg' : Registration} {turn : Int × ℕ}
    (h : Settled arch visited reg.supportsEnergy reg.needPolling)
    (hturn : register setup count reg turn = .ok reg') :
    Settled arch (visited ++ [turn.1]) reg'.supportsEnergy reg'.needPolling := by
  obtain ⟨g, n⟩ := turn
  unfold register at hturn
  dsimp only at hturn
  by_cases hrange : g < 0 ∨ (count : Int) ≤ g
  · rw [if_pos hrange] at hturn
    cases hturn
  · rw [if_neg hrange] at hturn
    obtain ⟨handle, hhandle, hturn⟩ := Fallible.bind_eq_ok.mp hturn
    have harch := hreports n g.toNat handle (nvmlCheck_eq_ok.mp hhandle)
    rw [show ((g.toNat : ℕ) : Int) = g by omega] at harch
    simp only [harch] at hturn
    cases hturn
    constructor
    · intro g' hg'
      show (reg.supportsEnergy.insert g (decide (5 ≤ arch g)))[g']? = _
      rw [Map.lookup_insert]
      by_cases hsame : g = g'
      · rw [if_pos hsame, hsame]
      · rw [if_neg hsame]
        rw [List.mem_append, List.mem_singleton] at hg'
        exact h.supports g' (hg'.resolve_right fun hg => hsame hg.symm)
    · intro g' hg' hold
      show (reg.needPolling || !decide (5 ≤ arch g)) = true
      rw [List.mem_append, List.mem_singleton] at hg'
      rcases hg' with hg' | rfl
      · rw [h.polling g' hg' hold, Bool.true_or]
      · rw [decide_eq_false (by omega), Bool.not_false, Bool.or_true]

theorem registerAll_settled {setup : NvmlSetup} {arch : Int → ℕ} (hreports : Reports setup arch)
    {count : ℕ} {indices : List Int} {reg : Registration} (h : registerAll setup count indices = .ok reg) :
    Settled arch indices reg.supportsEnergy reg.needPolling := by
  refine registerAll_rec (I := fun visited (reg : Registration) =>
    Settled arch visited reg.supportsEnergy reg.needPolling) ?init ?turn h
  case init =>
    exact ⟨fun g hg => absurd hg List.not_mem_nil, fun g hg => absurd hg List.not_mem_nil⟩
  case turn =>
    intro visited turn reg reg' hvisited hturn
    exact register_settled hreports hvisited hturn

/-- **What the constructor settles**: counters for the GPUs from Volta on, and a polling
thread as soon as one GPU is older. -/
theorem construct_settled {setup : NvmlSetup} {arch : Int → ℕ} (hreports : Reports setup arch)
    {indices : List Int} {b : NvidiaGpuBackend} (h : construct true setup indices = .ok b) :
    (indices ≠ [] → b.gpuIndices = indices) ∧ b.samples = [] ∧
      (∀ g ∈ b.gpuIndices, b.supportsEnergyCounter g = decide (5 ≤ arch g)) ∧
      ∀ g ∈ b.gpuIndices, arch g < 5 → b.pollingActive = true := by
  obtain ⟨count, reg, -, hreg, hindices, -, hsupports, hactive, hsamples⟩ := construct_cases h
  have hsettled := registerAll_settled hreports hreg
  rw [hindices, hactive]
  refine ⟨?_, hsamples, ?_, hsettled.polling⟩
  · intro hsome
    rw [resolveIndices, if_neg (by rwa [List.isEmpty_iff])]
  · intro g hg
    simp only [supportsEnergyCounter, hsupports, hsettled.supports g hg]

/-! ### A driver that answers -/

/-- Every read succeeds. A turn is answered for the GPU it visits. -/
def answers (indices : List Int) (counterMj powerMw : Int → ℕ) : NvmlReads where
  totalEnergyConsumption := fun n _ => .ok (counterMj (indices.getD n 0))
  powerUsage := fun n _ => .ok (powerMw (indices.getD n 0))
  powerManagementLimit := fun _ => .error "Not Supported"

section Answers
variable (b : NvidiaGpuBackend) (counterMj powerMw : Int → ℕ) {g : Int} {n : ℕ}

theorem getTotalEnergyMj_answers [Rounding] (hn : b.gpuIndices[n]? = some g) :
    b.getTotalEnergyMj (answers b.gpuIndices counterMj powerMw) n g = .ok (fl (counterMj g)) := by
  obtain ⟨handle, hhandle⟩ := (Map.mem_iff_lookup b.handles g).mp
    ((b.mem_handles g).mpr (List.mem_of_getElem? hn))
  unfold getTotalEnergyMj
  rw [hhandle]
  show Except.ok (fl ((counterMj (b.gpuIndices.getD n 0) : ℕ) : Double)) = _
  rw [List.getD_eq_getElem?_getD, hn, Option.getD_some]

theorem getInstantPowerW_answers [Rounding] (hn : b.gpuIndices[n]? = some g) :
    b.getInstantPowerW (answers b.gpuIndices counterMj powerMw) n g = .ok (fl (powerMw g / 1000)) := by
  obtain ⟨handle, hhandle⟩ := (Map.mem_iff_lookup b.handles g).mp
    ((b.mem_handles g).mpr (List.mem_of_getElem? hn))
  unfold getInstantPowerW
  rw [hhandle]
  show Except.ok (fl ((powerMw (b.gpuIndices.getD n 0) : ℕ) / 1000 : Double)) = _
  rw [List.getD_eq_getElem?_getD, hn, Option.getD_some]

theorem snapshot_answers [Rounding] : ∃ snap : Map Int Double,
    b.snapshotEnergyJ (answers b.gpuIndices counterMj powerMw) = .ok snap ∧
      ∀ g ∈ b.gpuIndices, b.supportsEnergyCounter g = true →
        snap[g]? = some (fl (fl (counterMj g) / 1000)) := by
  obtain ⟨snap, hsnap⟩ : ∃ snap, b.snapshotEnergyJ (answers b.gpuIndices counterMj powerMw) = .ok snap := by
    apply (Map.writeEach_ok_iff Prod.fst _ ∅ _).mpr
    intro ⟨g, n⟩ hturn
    cases hs : b.supportsEnergyCounter g with
    | true =>
      rw [snapshotTurn_counter n hs,
        b.getTotalEnergyMj_answers counterMj powerMw (List.mem_zipIdx_iff_getElem?.mp hturn)]
      exact ⟨_, rfl⟩
    | false => exact ⟨none, snapshotTurn_polled n hs⟩
  refine ⟨snap, hsnap, ?_⟩
  intro g hg hs
  obtain ⟨n, hn⟩ := LastTurn.exists_of_mem hg
  obtain ⟨mj, hmj, hlookup⟩ := lookup_snapshot hsnap hn hs
  rw [b.getTotalEnergyMj_answers counterMj powerMw hn.visits] at hmj
  rw [hlookup, ← Except.ok.inj hmj]

theorem delta_answers [Rounding] (startSnap : Map Int Double) (startTime endTime elapsedTime : Double) :
    ∃ delta : Map Int Double, b.computeEnergyDeltaJ (answers b.gpuIndices counterMj powerMw) startSnap
        startTime endTime elapsedTime = .ok delta ∧
      (∀ g ∈ b.gpuIndices, b.supportsEnergyCounter g = true →
        delta[g]? = some (fl (fl (fl (counterMj g) / 1000) - startSnap[g]?.getD 0))) ∧
      ∀ g ∈ b.gpuIndices, b.supportsEnergyCounter g = false →
        0 < b.computeEnergyFromSamples g startTime endTime →
        delta[g]? = some (b.computeEnergyFromSamples g startTime endTime) := by
  obtain ⟨delta, hdelta⟩ : ∃ delta, b.computeEnergyDeltaJ (answers b.gpuIndices counterMj powerMw)
      startSnap startTime endTime elapsedTime = .ok delta := by
    apply (Map.writeEach_ok_iff Prod.fst _ ∅ _).mpr
    intro ⟨g, n⟩ hturn
    have hn := List.mem_zipIdx_iff_getElem?.mp hturn
    cases hs : b.supportsEnergyCounter g with
    | true =>
      rw [deltaTurn_counter n hs, b.getTotalEnergyMj_answers counterMj powerMw hn]
      exact ⟨_, rfl⟩
    | false =>
      rw [deltaTurn_polled n hs]
      simp only [polledEnergy, b.getInstantPowerW_answers counterMj powerMw hn]
      split
      · exact ⟨_, rfl⟩
      · exact ⟨_, rfl⟩
  refine ⟨delta, hdelta, ?_, ?_⟩
  · intro g hg hs
    obtain ⟨n, hn⟩ := LastTurn.exists_of_mem hg
    obtain ⟨mj, hmj, hlookup⟩ := lookup_delta_counter hdelta hn hs
    rw [b.getTotalEnergyMj_answers counterMj powerMw hn.visits] at hmj
    rw [hlookup, ← Except.ok.inj hmj]
  · intro g hg hs hpos
    obtain ⟨n, hn⟩ := LastTurn.exists_of_mem hg
    obtain ⟨energy, henergy, hlookup⟩ := lookup_delta_polled hdelta hn hs
    rcases polledEnergy_cases henergy with ⟨-, rfl⟩ | ⟨hnone, -⟩
    · exact hlookup
    · exact absurd hpos hnone.not_gt

theorem gpuIndices_pollTurn [Rounding] (ts : Double) (nvml : NvmlReads) (n : ℕ) :
    (b.pollTurn ts nvml n).gpuIndices = b.gpuIndices :=
  congrArg Devices.gpuIndices (b.pollTurn_devices ts nvml n)

theorem supportsEnergyCounter_pollTurn [Rounding] (ts : Double) (nvml : NvmlReads) (n : ℕ) :
    (b.pollTurn ts nvml n).supportsEnergyCounter = b.supportsEnergyCounter :=
  congrArg Devices.counters (b.pollTurn_devices ts nvml n)

theorem pollingActive_pollTurn [Rounding] (ts : Double) (nvml : NvmlReads) (n : ℕ) :
    (b.pollTurn ts nvml n).pollingActive = b.pollingActive := by
  rcases b.pollTurn_cases ts nvml n with h | ⟨g, power, -, -, -, -, h⟩
  · rw [h]
  · rw [h]

/-- A turn on one GPU pushes no sample of another. -/
theorem samplesOf_pollTurn_ne [Rounding] (ts : Double) (nvml : NvmlReads) {g : Int}
    (hg : b.gpuIndices[n]? ≠ some g) :
    samplesOf (b.pollTurn ts nvml n).samples g = samplesOf b.samples g := by
  rcases b.pollTurn_cases ts nvml n with h | ⟨i, power, hi, -, -, -, h⟩
  · rw [h]
  · have hother : i ≠ g := fun hsame => hg (hsame ▸ hi)
    rw [h, samplesOf_append]
    simp [samplesOf, hother]

/-- A turn on a polled GPU that draws power pushes one sample of it. -/
theorem pollTurn_answers [Rounding] (ts : Double) (hn : b.gpuIndices[n]? = some g)
    (hactive : b.pollingActive = true)
    (hs : b.supportsEnergyCounter g = false) (hpos : 0 < powerMw g) :
    (b.pollTurn ts (answers b.gpuIndices counterMj powerMw) n).samples =
      b.samples ++ [⟨ts, g, fl (powerMw g / 1000)⟩] := by
  have hpower : (0 : Double) < fl (powerMw g / 1000) := by
    have hcast : (0 : Double) < powerMw g := Nat.cast_pos.mpr hpos
    exact Rounding.fl_pos _ (by linarith)
  rw [b.pollTurn_eq ts _ hn]
  simp only [hactive, hs, b.getInstantPowerW_answers counterMj powerMw hn, Bool.not_true,
    Bool.false_eq_true, if_false, if_pos hpower]

end Answers

end NvidiaGpuBackend

end ZeusPower.Device
