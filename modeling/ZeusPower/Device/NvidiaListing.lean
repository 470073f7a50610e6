import ZeusPower.Device.NvidiaIntegral

/-! The order and the repetitions of `gpu_indices`.

A GPU that is listed `k` times is registered `k` times, read `k` times by every loop, and
sampled `k` times in every round. Over a driver whose answers depend on the GPU and not on
the turn, none of that is to be seen: the constructor leaves the same maps
(`construct_sameListing`), a round adds one sample, repeated (`samplesOf_pollRound`), which no
integral notices, and a snapshot or a delta is a loop over the set of GPUs
(`SameListing.snapshot_eq`, `SameListing.delta_eq`). -/
namespace ZeusPower.Device
open Library

/-- What NVML answers to the constructor, whichever turn asks. -/
structure SteadySetup where
  init : Except String Unit
  deviceCount : Except String ℕ
  handleByIndex : ℕ → Except String Handle
  architecture : Handle → Except String ℕ

/-- What NVML answers to one call, whichever turn asks. -/
structure SteadyReads where
  totalEnergyConsumption : Handle → Except String ℕ
  powerUsage : Handle → Except String ℕ
  powerManagementLimit : Handle → Except String ℕ

namespace SteadySetup
variable (setup : SteadySetup)

def toSetup : NvmlSetup where
  init := setup.init
  deviceCount := setup.deviceCount
  handleByIndex := fun _ => setup.handleByIndex
  architecture := fun _ => setup.architecture

/-- The handle of a GPU. -/
def handle (g : Int) : Option Handle := (setup.handleByIndex g.toNat).toOption

/-- Whether a GPU has a hardware counter. -/
def counter (handle : Handle) : Bool :=
  match setup.architecture handle with
  | .ok arch => decide (5 ≤ arch)
  | .error _ => false

end SteadySetup

def SteadyReads.toReads (reads : SteadyReads) : NvmlReads where
  totalEnergyConsumption := fun _ => reads.totalEnergyConsumption
  powerUsage := fun _ => reads.powerUsage
  powerManagementLimit := reads.powerManagementLimit

namespace NvidiaGpuBackend

/-! ### Construction -/

/-- What the constructor's loop has made of the indices it has visited. -/
structure Listed (setup : SteadySetup) (indices : List Int) (handles : Map Int Handle)
    (supportsEnergy : Map Int Bool) (polling : Bool) : Prop where
  handles : ∀ g, handles[g]? = if g ∈ indices then setup.handle g else none
  supportsEnergy : ∀ g, supportsEnergy[g]? =
    if g ∈ indices then (setup.handle g).map setup.counter else none
  polling : polling = true ↔ ∃ g ∈ indices, (setup.handle g).map setup.counter = some false

theorem register_listed {setup : SteadySetup} {count : ℕ} {visited : List Int} {reg reg' : Registration}
    {turn : Int × ℕ} (h : Listed setup visited reg.handles reg.supportsEnergy reg.needPolling)
    (hturn : register setup.toSetup count reg turn = .ok reg') :
    Listed setup (visited ++ [turn.1]) reg'.handles reg'.supportsEnergy reg'.needPolling := by
  obtain ⟨g, n⟩ := turn
  unfold register at hturn
  dsimp only at hturn
  by_cases hrange : g < 0 ∨ (count : Int) ≤ g
  · rw [if_pos hrange] at hturn
    cases hturn
  · rw [if_neg hrange] at hturn
    obtain ⟨handle, hhandle, hturn⟩ := Fallible.bind_eq_ok.mp hturn
    have hanswer : setup.handle g = some handle := congrArg Except.toOption (nvmlCheck_eq_ok.mp hhandle)
    have hreg : reg' = ⟨reg.handles.insert g handle, reg.supportsEnergy.insert g (setup.counter handle),
        reg.needPolling || !setup.counter handle⟩ := (Except.ok.inj hturn).symm
    have hvisited : ∀ g', g' ∈ visited ++ [g] ↔ g = g' ∨ g' ∈ visited := by
      intro g'
      rw [List.mem_append, List.mem_singleton, or_comm, eq_comm]
    subst hreg
    refine ⟨fun g' => ?_, fun g' => ?_, ?_⟩
    · show (reg.handles.insert g handle)[g']? = _
      rw [Map.lookup_insert, h.handles g', if_congr (hvisited g') rfl rfl]
      by_cases hsame : g = g'
      · rw [if_pos hsame, if_pos (Or.inl hsame), ← hsame, hanswer]
      · simp only [hsame, if_false, false_or]
    · show (reg.supportsEnergy.insert g (setup.counter handle))[g']? = _
      rw [Map.lookup_insert, h.supportsEnergy g', if_congr (hvisited g') rfl rfl]
      by_cases hsame : g = g'
      · rw [if_pos hsame, if_pos (Or.inl hsame), ← hsame, hanswer, Option.map_some]
      · simp only [hsame, if_false, false_or]
    · show (reg.needPolling || !setup.counter handle) = true ↔ _
      simp only [hvisited, or_and_right, exists_or, exists_eq_left', hanswer, Option.map_some,
        Option.some.injEq, Bool.or_eq_true, Bool.not_eq_true', h.polling]
      exact or_comm

theorem registerAll_listed {setup : SteadySetup} {count : ℕ} {indices : List Int} {reg : Registration}
    (h : registerAll setup.toSetup count indices = .ok reg) :
    Listed setup indices reg.handles reg.supportsEnergy reg.needPolling := by
  refine registerAll_rec (I := fun visited (reg : Registration) =>
    Listed setup visited reg.handles reg.supportsEnergy reg.needPolling) ?init ?turn h
  case init => exact ⟨fun g => by simp, fun g => by simp, by simp⟩
  case turn =>
    intro visited turn reg reg' hvisited hturn
    exact register_listed hvisited hturn

/-- Lists with the same members resolve to lists with the same members. -/
theorem mem_resolveIndices {indices indices' : List Int} (h : ∀ g, g ∈ indices ↔ g ∈ indices') (count : ℕ)
    (g : Int) : g ∈ resolveIndices indices count ↔ g ∈ resolveIndices indices' count := by
  have hempty : indices = [] ↔ indices' = [] := by
    simp only [List.eq_nil_iff_forall_not_mem, h]
  unfold resolveIndices
  simp only [List.isEmpty_iff]
  by_cases hnone : indices = []
  · rw [if_pos hnone, if_pos (hempty.mp hnone)]
  · rw [if_neg hnone, if_neg fun hnone' => hnone (hempty.mpr hnone')]
    exact h g

/-! ### Two backends that list the same GPUs -/

/-- The same GPUs, and the same samples of each; a GPU that is listed `k` times has every
sample `k` times. -/
structure SameListing (history : Int → List (Double × Double)) (b b' : NvidiaGpuBackend) : Prop where
  indices : ∀ g, g ∈ b.gpuIndices ↔ g ∈ b'.gpuIndices
  handles : b.handles = b'.handles
  counters : b.supportsEnergyCounter = b'.supportsEnergyCounter
  active : b.pollingActive = b'.pollingActive
  samples : ∀ g, samplesOf b.samples g = Trapezoid.repeated (b.gpuIndices.count g) (history g)
  samples' : ∀ g, samplesOf b'.samples g = Trapezoid.repeated (b'.gpuIndices.count g) (history g)

/-- Two lists with the same members build the same backend, but for the list. -/
theorem construct_sameListing {compiled : Bool} {setup : SteadySetup} {indices indices' : List Int}
    {b b' : NvidiaGpuBackend} (hsame : ∀ g, g ∈ indices ↔ g ∈ indices')
    (h : construct compiled setup.toSetup indices = .ok b)
    (h' : construct compiled setup.toSetup indices' = .ok b') : SameListing (fun _ => []) b b' := by
  obtain ⟨count, reg, hcount, hreg, hindices, hhandles, hsupports, hactive, hsamples⟩ := construct_cases h
  obtain ⟨count', reg', hcount', hreg', hindices', hhandles', hsupports', hactive', hsamples'⟩ :=
    construct_cases h'
  obtain rfl : count = count' := Except.ok.inj (hcount.symm.trans hcount')
  have hmem := mem_resolveIndices hsame count
  have hlisted := registerAll_listed hreg
  have hlisted' := registerAll_listed hreg'
  refine ⟨?_, ?_, ?_, ?_, ?_, ?_⟩
  · intro g
    rw [hindices, hindices', hmem]
  · rw [hhandles, hhandles']
    apply Std.ExtTreeMap.ext_getElem?
    intro g
    rw [hlisted.handles, hlisted'.handles, if_congr (hmem g) rfl rfl]
  · funext g
    unfold supportsEnergyCounter
    rw [hsupports, hsupports', hlisted.supportsEnergy, hlisted'.supportsEnergy, if_congr (hmem g) rfl rfl]
  · rw [hactive, hactive', Bool.eq_iff_iff, hlisted.polling, hlisted'.polling]
    simp only [hmem]
  · intro g
    rw [hsamples]
    rfl
  · intro g
    rw [hsamples']
    rfl

/-! ### A round -/

/-- What one turn on a GPU adds to its samples. -/
def arrivals [Rounding] (b : NvidiaGpuBackend) (ts : Double) (nvml : NvmlReads) (g : Int) :
    List (Double × Double) :=
  if !b.pollingActive || b.supportsEnergyCounter g then []
  else match b.getInstantPowerW nvml 0 g with
    | .error _ => []
    | .ok power => if 0 < power then [(ts, power)] else []

section Round
variable (b : NvidiaGpuBackend) (ts : Double) (reads : SteadyReads)

/-- A turn adds what it finds to the samples of the GPU it visits, and to no other. -/
theorem samplesOf_pollTurn [Rounding] (n : ℕ) (g : Int) :
    samplesOf (b.pollTurn ts reads.toReads n).samples g = samplesOf b.samples g ++
      if b.gpuIndices[n]? = some g then b.arrivals ts reads.toReads g else [] := by
  by_cases hg : b.gpuIndices[n]? = some g
  · have hread : b.getInstantPowerW reads.toReads n g = b.getInstantPowerW reads.toReads 0 g := rfl
    have hself : ∀ power, samplesOf [⟨ts, g, power⟩] g = [(ts, power)] := by
      intro power
      simp [samplesOf]
    rw [if_pos hg, b.pollTurn_eq ts reads.toReads hg, arrivals, hread]
    cases b.pollingActive with
    | false => exact (List.append_nil _).symm
    | true =>
      cases b.supportsEnergyCounter g with
      | true => exact (List.append_nil _).symm
      | false =>
        cases b.getInstantPowerW reads.toReads 0 g with
        | error e => exact (List.append_nil _).symm
        | ok power =>
          by_cases hpos : 0 < power
          · simp only [Bool.not_true, Bool.or_false, Bool.false_eq_true, if_false, if_pos hpos,
              samplesOf_append, hself]
          · simp only [Bool.not_true, Bool.or_false, Bool.false_eq_true, if_false, if_neg hpos,
              List.append_nil]
  · rw [if_neg hg, List.append_nil, b.samplesOf_pollTurn_ne ts _ hg]

/-- What a turn finds does not depend on the turns before it. -/
theorem arrivals_pollTurn [Rounding] (nvml nvml' : NvmlReads) (n : ℕ) (g : Int) :
    (b.pollTurn ts nvml n).arrivals ts nvml' g = b.arrivals ts nvml' g := by
  obtain h | ⟨_, _, _, _, _, _, h⟩ := b.pollTurn_cases ts nvml n
  · rw [h]
  · rw [h]
    rfl

/-- One more turn finds one more of the same. -/
theorem repeated_arrivals [Rounding] (nvml : NvmlReads) (g : Int) (k : ℕ) :
    Trapezoid.repeated (k + 1) (b.arrivals ts nvml g) =
      Trapezoid.repeated k (b.arrivals ts nvml g) ++ b.arrivals ts nvml g := by
  have hone : b.arrivals ts nvml g = [] ∨ ∃ power, b.arrivals ts nvml g = [(ts, power)] := by
    unfold arrivals
    split
    next => exact Or.inl rfl
    next =>
      split
      next => exact Or.inl rfl
      next power _ =>
        split
        next => exact Or.inr ⟨power, rfl⟩
        next => exact Or.inl rfl
  obtain h | ⟨power, h⟩ := hone
  · rw [h]
    rfl
  · rw [h]
    show List.replicate (k + 1) _ ++ [] = List.replicate k _ ++ [] ++ _
    rw [List.append_nil, List.append_nil, List.replicate_succ']

/-- **A round samples a GPU as often as it is listed**, each time with the same sample. -/
theorem samplesOf_pollRound [Rounding] (g : Int) :
    samplesOf (b.pollRound ts reads.toReads).samples g = samplesOf b.samples g ++
      Trapezoid.repeated (b.gpuIndices.count g) (b.arrivals ts reads.toReads g) := by
  have hturns : ∀ n : ℕ, ∃ b', (List.range n).foldl (fun b n => b.pollTurn ts reads.toReads n) b = b' ∧
      b'.gpuIndices = b.gpuIndices ∧ b'.arrivals ts reads.toReads g = b.arrivals ts reads.toReads g ∧
        samplesOf b'.samples g = samplesOf b.samples g ++
          Trapezoid.repeated ((b.gpuIndices.take n).count g) (b.arrivals ts reads.toReads g) := by
    intro n
    induction n with
    | zero =>
      refine ⟨b, rfl, rfl, rfl, ?_⟩
      simp [Trapezoid.repeated]
    | succ n ih =>
      obtain ⟨b', hb', hindices, harrivals, hsamples⟩ := ih
      refine ⟨b'.pollTurn ts reads.toReads n, ?_, ?_, ?_, ?_⟩
      · rw [List.range_succ, List.foldl_append, hb']
        rfl
      · rw [b'.gpuIndices_pollTurn, hindices]
      · rw [b'.arrivals_pollTurn, harrivals]
      · rw [b'.samplesOf_pollTurn, hindices, harrivals, hsamples, List.take_add_one, List.count_append,
          List.append_assoc]
        congr 1
        by_cases hg : b.gpuIndices[n]? = some g
        · rw [if_pos hg, hg, ← b.repeated_arrivals]
          simp
        · rw [if_neg hg]
          have hnone : b.gpuIndices[n]?.toList.count g = 0 := by
            rw [List.count_eq_zero, Option.mem_toList]
            exact hg
          rw [hnone, Nat.add_zero, List.append_nil]
  obtain ⟨b', hb', -, -, hsamples⟩ := hturns b.gpuIndices.length
  rw [List.take_length] at hsamples
  rw [pollRound, hb', hsamples]

theorem pollRound_devices [Rounding] (nvml : NvmlReads) : (b.pollRound ts nvml).devices = b.devices := by
  rw [pollRound_eq, pollTurns_devices]

theorem pollRound_pollingActive [Rounding] (nvml : NvmlReads) :
    (b.pollRound ts nvml).pollingActive = b.pollingActive := by
  rw [pollRound_eq, pollingActive_pollTurns]

end Round

/-! ### Windows -/

/-- Sorting keeps what is repeated together. -/
theorem sortTimeline_repeated (k : ℕ) (timeline : List (Double × Double)) :
    sortTimeline (Trapezoid.repeated k timeline) = Trapezoid.repeated k (sortTimeline timeline) := by
  have hsorted : ∀ l : List (Double × Double), l.Pairwise pairLe →
      (Trapezoid.repeated k l).Pairwise pairLe := by
    intro l hl
    induction l with
    | nil => exact List.Pairwise.nil
    | cons p l ih =>
      obtain ⟨hp, hl⟩ := List.pairwise_cons.mp hl
      have happend : Trapezoid.repeated k (p :: l) = List.replicate k p ++ Trapezoid.repeated k l :=
        List.flatMap_cons
      rw [happend, List.pairwise_append]
      refine ⟨List.pairwise_replicate.mpr (Or.inr (Or.inr ⟨rfl, le_refl _⟩)), ih hl, ?_⟩
      intro x hx y hy
      obtain rfl := List.eq_of_mem_replicate hx
      obtain ⟨q, hq, hy⟩ := List.mem_flatMap.mp hy
      obtain rfl := List.eq_of_mem_replicate hy
      exact hp y hq
  apply sorted_unique (List.pairwise_insertionSort pairLe _)
  · exact hsorted _ (List.pairwise_insertionSort pairLe timeline)
  · exact (sortTimeline_perm_self _).trans ((sortTimeline_perm_self timeline).symm.flatMap_right _)

/-- What a GPU is listed for changes no integral. -/
theorem computeEnergyFromSamples_repeated [Rounding] {b : NvidiaGpuBackend} {g : Int} {k : ℕ}
    {history : List (Double × Double)} (hk : k ≠ 0)
    (h : samplesOf b.samples g = Trapezoid.repeated k history) (startTime endTime : Double) :
    b.computeEnergyFromSamples g startTime endTime =
      Trapezoid.summed 0 (Trapezoid.within startTime endTime (sortTimeline history)) := by
  rw [computeEnergyFromSamples_within, sortedSamples, h, sortTimeline_repeated, Trapezoid.within_repeated,
    Trapezoid.summed_repeated hk Rounding.fl_zero]

namespace SameListing
variable {history : Int → List (Double × Double)} {b b' : NvidiaGpuBackend}

theorem getInstantPowerW_eq [Rounding] (h : SameListing history b b') (nvml : NvmlReads) (n : ℕ) (g : Int) :
    b.getInstantPowerW nvml n g = b'.getInstantPowerW nvml n g := by
  rw [getInstantPowerW, getInstantPowerW, h.handles]

theorem getTotalEnergyMj_eq [Rounding] (h : SameListing history b b') (nvml : NvmlReads) (n : ℕ) (g : Int) :
    b.getTotalEnergyMj nvml n g = b'.getTotalEnergyMj nvml n g := by
  rw [getTotalEnergyMj, getTotalEnergyMj, h.handles]

/-- A round finds the same in both. -/
theorem pollRound [Rounding] (h : SameListing history b b') (ts : Double) (reads : SteadyReads) :
    SameListing (fun g => history g ++ b.arrivals ts reads.toReads g)
      (b.pollRound ts reads.toReads) (b'.pollRound ts reads.toReads) := by
  have hindices : ∀ b : NvidiaGpuBackend, (b.pollRound ts reads.toReads).gpuIndices = b.gpuIndices :=
    fun b => congrArg Devices.gpuIndices (b.pollRound_devices ts reads.toReads)
  have hhandles : ∀ b : NvidiaGpuBackend, (b.pollRound ts reads.toReads).handles = b.handles :=
    fun b => congrArg Devices.handles (b.pollRound_devices ts reads.toReads)
  have hcounters : ∀ b : NvidiaGpuBackend,
      (b.pollRound ts reads.toReads).supportsEnergyCounter = b.supportsEnergyCounter :=
    fun b => congrArg Devices.counters (b.pollRound_devices ts reads.toReads)
  have harrivals : ∀ g, b'.arrivals ts reads.toReads g = b.arrivals ts reads.toReads g := by
    intro g
    rw [arrivals, arrivals, h.active, h.counters, h.getInstantPowerW_eq]
  refine ⟨?_, ?_, ?_, ?_, ?_, ?_⟩
  · intro g
    rw [hindices, hindices, h.indices]
  · rw [hhandles, hhandles, h.handles]
  · rw [hcounters, hcounters, h.counters]
  · rw [pollRound_pollingActive, pollRound_pollingActive, h.active]
  · intro g
    rw [samplesOf_pollRound, h.samples, hindices, Trapezoid.repeated_append]
  · intro g
    rw [samplesOf_pollRound, h.samples', hindices, harrivals, Trapezoid.repeated_append]

theorem computeEnergyFromSamples_eq [Rounding] (h : SameListing history b b') {g : Int} (hg : g ∈ b.gpuIndices)
    (startTime endTime : Double) :
    b.computeEnergyFromSamples g startTime endTime = b'.computeEnergyFromSamples g startTime endTime := by
  have hlisted : b.gpuIndices.count g ≠ 0 := (List.count_pos_iff.mpr hg).ne'
  have hlisted' : b'.gpuIndices.count g ≠ 0 := (List.count_pos_iff.mpr ((h.indices g).mp hg)).ne'
  rw [computeEnergyFromSamples_repeated hlisted (h.samples g),
    computeEnergyFromSamples_repeated hlisted' (h.samples' g)]

/-- **The same snapshot**, or none from either. -/
theorem snapshot_eq [Rounding] (h : SameListing history b b') (reads : SteadyReads) :
    (b.snapshotEnergyJ reads.toReads).toOption = (b'.snapshotEnergyJ reads.toReads).toOption := by
  have hloop : ∀ b : NvidiaGpuBackend, b.snapshotEnergyJ reads.toReads =
      Map.writeEach id (fun g => b.snapshotTurn reads.toReads (g, 0)) ∅ b.gpuIndices := by
    intro b
    have hkey : Map.writeEach Prod.fst (b.snapshotTurn reads.toReads) ∅ b.gpuIndices.zipIdx =
        Map.writeEach id (fun g => b.snapshotTurn reads.toReads (g, 0)) ∅
          (b.gpuIndices.zipIdx.map Prod.fst) := Map.writeEach_key Prod.fst fun _ _ => rfl
    rw [snapshotEnergyJ, hkey, List.zipIdx_map_fst]
  rw [hloop, hloop]
  apply Map.toOption_writeEach h.indices
  intro g _
  simp only [snapshotTurn, h.counters, h.getTotalEnergyMj_eq]

/-- **The same delta**, or none from either. -/
theorem delta_eq [Rounding] (h : SameListing history b b') (reads : SteadyReads) (startSnap : Map Int Double)
    (startTime endTime elapsedTime : Double) :
    (b.computeEnergyDeltaJ reads.toReads startSnap startTime endTime elapsedTime).toOption =
      (b'.computeEnergyDeltaJ reads.toReads startSnap startTime endTime elapsedTime).toOption := by
  have hloop : ∀ b : NvidiaGpuBackend,
      b.computeEnergyDeltaJ reads.toReads startSnap startTime endTime elapsedTime =
        Map.writeEach id (fun g => b.deltaTurn reads.toReads startSnap startTime endTime elapsedTime (g, 0)) ∅
          b.gpuIndices := by
    intro b
    have hkey : Map.writeEach Prod.fst
        (b.deltaTurn reads.toReads startSnap startTime endTime elapsedTime) ∅ b.gpuIndices.zipIdx =
          Map.writeEach id (fun g => b.deltaTurn reads.toReads startSnap startTime endTime elapsedTime (g, 0))
            ∅ (b.gpuIndices.zipIdx.map Prod.fst) := Map.writeEach_key Prod.fst fun _ _ => rfl
    rw [computeEnergyDeltaJ, hkey, List.zipIdx_map_fst]
  rw [hloop, hloop]
  apply Map.toOption_writeEach h.indices
  intro g hg
  simp only [deltaTurn, polledEnergy, h.counters, h.getTotalEnergyMj_eq, h.getInstantPowerW_eq,
    h.computeEnergyFromSamples_eq hg]

end SameListing

end NvidiaGpuBackend

end ZeusPower.Device
