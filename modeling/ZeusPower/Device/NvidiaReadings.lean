import Mathlib.Data.List.Induction
import ZeusPower.Device.Nvidia
import ZeusPower.Library.Trapezoid

/-! What the NVIDIA backend's snapshots and deltas hold.

The loops visit `gpuIndices` in order, and an index listed twice is read twice; what
stays in the map is what its last turn wrote (`LastTurn`). A GPU with a counter has
its reading in the snapshot and the difference of two readings in the delta
(`lookup_delta_counter`); a polled GPU has in the delta the trapezoidal integral of
its samples in the window, or the fallback (`lookup_delta_polled`). -/
namespace ZeusPower.Device
open Library

/-- The turn at which a loop over `indices` last visits `g`. -/
structure LastTurn (indices : List Int) (g : Int) (n : ℕ) : Prop where
  visits : indices[n]? = some g
  last : ∀ m, n < m → indices[m]? ≠ some g

namespace LastTurn
variable {indices : List Int} {g : Int}

theorem mem_zipIdx {n : ℕ} (h : LastTurn indices g n) : (g, n) ∈ indices.zipIdx :=
  List.mem_zipIdx_iff_getElem?.mpr h.visits

/-- The turns after a GPU's last turn visit other GPUs. -/
theorem split {n : ℕ} (h : LastTurn indices g n) :
    ∃ pre post, indices.zipIdx = pre ++ (g, n) :: post ∧ ∀ y ∈ post, y.1 ≠ g := by
  obtain ⟨hn, rfl⟩ := List.getElem?_eq_some_iff.mp h.visits
  have hlen : n < indices.zipIdx.length := by simpa using hn
  have hget : indices.zipIdx[n] = (indices[n], n) := by simp
  refine ⟨indices.zipIdx.take n, indices.zipIdx.drop (n + 1), ?_, ?_⟩
  · rw [← hget, ← List.drop_eq_getElem_cons hlen, List.take_append_drop]
  · intro y hy heq
    obtain ⟨k, hk⟩ := List.mem_iff_getElem?.mp hy
    rw [List.getElem?_drop, List.getElem?_zipIdx] at hk
    obtain ⟨a, ha, rfl⟩ := Option.map_eq_some_iff.mp hk
    exact h.last (n + 1 + k) (by omega) (by rw [ha]; exact congrArg some heq)

theorem exists_of_mem (h : g ∈ indices) : ∃ n, LastTurn indices g n := by
  induction indices using List.reverseRecOn with
  | nil => cases h
  | append_singleton init i ih =>
    by_cases hi : i = g
    · refine ⟨init.length, by simp [hi], fun m hm => ?_⟩
      rw [List.getElem?_eq_none (by simp only [List.length_append, List.length_singleton]; omega)]
      exact (Option.some_ne_none g).symm
    · have hinit : g ∈ init := (List.mem_append.mp h).resolve_right fun hm =>
        hi (List.mem_singleton.mp hm).symm
      obtain ⟨n, hn⟩ := ih hinit
      have hlt : n < init.length := (List.getElem?_eq_some_iff.mp hn.visits).1
      refine ⟨n, by rw [List.getElem?_append_left hlt]; exact hn.visits, fun m hm => ?_⟩
      rcases Nat.lt_or_ge m init.length with hmlt | hmge
      · rw [List.getElem?_append_left hmlt]
        exact hn.last m hm
      · rw [List.getElem?_append_right hmge]
        intro hget
        exact hi (List.mem_singleton.mp (List.mem_of_getElem? hget)).symm

end LastTurn

namespace NvidiaGpuBackend

/-! ### Failed reads

A read of the driver fails with the driver's message, or because the GPU is not
monitored. -/

section Errors
variable {b : NvidiaGpuBackend} {g : Int} {e : Error}

private theorem nvmlCheck_error {α β : Type} {result : Except String α} {context : String} {f : α → β}
    (h : (nvmlCheck result context >>= fun a => pure (f a)) = .error e) :
    ∃ message, e = .nvml message context := by
  obtain h | ⟨a, -, h⟩ := Fallible.bind_eq_error.mp h
  · unfold nvmlCheck at h
    cases result with
    | error message => exact ⟨message, (Except.error.inj h).symm⟩
    | ok a => cases h
  · cases h

private theorem not_listed (h : b.handles[g]? = none) : g ∉ b.gpuIndices := fun hg =>
  (Map.not_mem_iff_lookup _ _).mpr h ((b.mem_handles g).mpr hg)

theorem getInstantPowerW_error [Rounding] {nvml : NvmlReads} {n : ℕ} (h : b.getInstantPowerW nvml n g = .error e) :
    (g ∉ b.gpuIndices ∧ e = .notMonitored g) ∨
      ∃ message, e = .nvml message "nvmlDeviceGetPowerUsage" := by
  unfold getInstantPowerW at h
  split at h
  next hnone => exact Or.inl ⟨not_listed hnone, (Except.error.inj h).symm⟩
  next => exact Or.inr (nvmlCheck_error h)

theorem getPowerLimitW_error [Rounding] {nvml : NvmlReads} (h : b.getPowerLimitW nvml g = .error e) :
    (g ∉ b.gpuIndices ∧ e = .notMonitored g) ∨ ∃ message, e = .nvml message "" := by
  unfold getPowerLimitW at h
  split at h
  next hnone => exact Or.inl ⟨not_listed hnone, (Except.error.inj h).symm⟩
  next => exact Or.inr (nvmlCheck_error h)

theorem getTotalEnergyMj_error [Rounding] {nvml : NvmlReads} {n : ℕ} (h : b.getTotalEnergyMj nvml n g = .error e) :
    (g ∉ b.gpuIndices ∧ e = .notMonitored g) ∨
      ∃ message, e = .nvml message "nvmlDeviceGetTotalEnergyConsumption" := by
  unfold getTotalEnergyMj at h
  split at h
  next hnone => exact Or.inl ⟨not_listed hnone, (Except.error.inj h).symm⟩
  next => exact Or.inr (nvmlCheck_error h)

end Errors

/-- Only a listed GPU has a counter. -/
theorem listed_of_counter {b : NvidiaGpuBackend} {g : Int} (h : b.supportsEnergyCounter g = true) :
    g ∈ b.gpuIndices := by
  apply (b.mem_supportsEnergy g).mp
  rw [Map.mem_iff_lookup]
  cases hs : b.supportsEnergy[g]? with
  | none =>
    simp only [supportsEnergyCounter, hs] at h
    cases h
  | some supports => exact ⟨supports, rfl⟩

/-- A delta fails at a read of one of the listed GPUs: only the driver fails it. -/
theorem computeEnergyDeltaJ_error [Rounding] {b : NvidiaGpuBackend} {nvml : NvmlReads}
    {startSnap : Map Int Double} {startTime endTime elapsedTime : Double} {e : Error}
    (h : b.computeEnergyDeltaJ nvml startSnap startTime endTime elapsedTime = .error e) :
    ∃ message context, e = .nvml message context := by
  obtain ⟨⟨g, n⟩, hturn, h⟩ := Map.writeEach_error Prod.fst _ h
  have hg : g ∈ b.gpuIndices := List.mem_of_getElem? (List.mem_zipIdx_iff_getElem?.mp hturn)
  unfold deltaTurn at h
  dsimp only at h
  split at h
  next =>
    obtain hr | ⟨mj, -, h⟩ := Fallible.bind_eq_error.mp h
    · obtain ⟨hmissing, -⟩ | ⟨message, he⟩ := getTotalEnergyMj_error hr
      · exact absurd hg hmissing
      · exact ⟨message, _, he⟩
    · cases h
  next =>
    obtain hr | ⟨energy, -, h⟩ := Fallible.bind_eq_error.mp h
    · simp only [polledEnergy] at hr
      split at hr
      next =>
        obtain hp | ⟨powerW, -, hr⟩ := Fallible.bind_eq_error.mp hr
        · obtain ⟨hmissing, -⟩ | ⟨message, he⟩ := getInstantPowerW_error hp
          · exact absurd hg hmissing
          · exact ⟨message, _, he⟩
        · cases hr
      next => cases hr
    · cases h

/-! ### The integrator -/

/-- The summation loop adds up the trapezoids of neighbours. -/
theorem sumTrapezoids_eq [Rounding] (timeline : List (Double × Double)) :
    sumTrapezoids timeline = Trapezoid.summed 0 timeline := by
  have hloop : ∀ {turn : Double → (Double × Double) × Double × Double → Double},
      (∀ energy p q, turn energy (p, q) = fl (energy + Trapezoid.roundedArea p q)) →
      ∀ (timeline : List (Double × Double)) (energy : Double),
        (timeline.zip timeline.tail).foldl turn energy = Trapezoid.summed energy timeline := by
    intro turn hturn timeline
    induction timeline with
    | nil => exact fun _ => rfl
    | cons p rest ih =>
      intro energy
      cases rest with
      | nil => rfl
      | cons q rest =>
        have htail := ih (fl (energy + Trapezoid.roundedArea p q))
        simp only [List.tail_cons, List.zip_cons_cons, List.foldl_cons, Trapezoid.summed, hturn] at htail ⊢
        exact htail
  exact hloop (fun _ _ _ => rfl) timeline 0

/-- The early return for fewer than two samples agrees with the loop. -/
theorem computeEnergyFromSamples_eq [Rounding] (b : NvidiaGpuBackend) (g : Int) (startTime endTime : Double) :
    b.computeEnergyFromSamples g startTime endTime =
      Trapezoid.summed 0 (sortTimeline (b.timeline g startTime endTime)) := by
  unfold computeEnergyFromSamples
  dsimp only
  split
  next hshort =>
    have hlen : (sortTimeline (b.timeline g startTime endTime)).length < 2 := by
      rwa [sortTimeline, List.length_insertionSort]
    rcases hsort : sortTimeline (b.timeline g startTime endTime) with _ | ⟨p, _ | ⟨q, rest⟩⟩
    · rfl
    · rfl
    · rw [hsort] at hlen
      simp only [List.length_cons] at hlen
      omega
  next => exact sumTrapezoids_eq _

/-- In exact arithmetic it is the trapezoidal integral. -/
theorem computeEnergyFromSamples_integral [Rounding] [Exact] (b : NvidiaGpuBackend) (g : Int)
    (startTime endTime : Double) :
    b.computeEnergyFromSamples g startTime endTime =
      Trapezoid.integral (sortTimeline (b.timeline g startTime endTime)) := by
  rw [computeEnergyFromSamples_eq, Trapezoid.summed_eq, zero_add]

/-! ### Snapshots -/

variable {b : NvidiaGpuBackend} {nvml : NvmlReads}

theorem snapshotTurn_counter [Rounding] {g : Int} (n : ℕ) (hs : b.supportsEnergyCounter g = true) :
    b.snapshotTurn nvml (g, n) = (b.getTotalEnergyMj nvml n g).map fun mj => some (fl (mj / 1000)) := by
  simp only [snapshotTurn, hs, if_true]
  rcases b.getTotalEnergyMj nvml n g with e | mj <;> rfl

theorem snapshotTurn_polled [Rounding] {g : Int} (n : ℕ) (hs : b.supportsEnergyCounter g = false) :
    b.snapshotTurn nvml (g, n) = .ok none := by
  simp only [snapshotTurn, hs, Bool.false_eq_true, if_false]
  rfl

/-- A successful snapshot holds the reading of each counter GPU's last turn. -/
theorem lookup_snapshot [Rounding] {snap : Map Int Double} (h : b.snapshotEnergyJ nvml = .ok snap) {g : Int}
    {n : ℕ} (hn : LastTurn b.gpuIndices g n) (hs : b.supportsEnergyCounter g = true) :
    ∃ mj, b.getTotalEnergyMj nvml n g = .ok mj ∧ snap[g]? = some (fl (mj / 1000)) := by
  obtain ⟨r, hr⟩ := (Map.writeEach_ok_iff Prod.fst (b.snapshotTurn nvml) ∅ _).mp ⟨snap, h⟩ _ hn.mem_zipIdx
  rw [snapshotTurn_counter n hs] at hr
  cases hmj : b.getTotalEnergyMj nvml n g with
  | error e => rw [hmj] at hr; cases hr
  | ok mj =>
    obtain ⟨pre, post, hsplit, hpost⟩ := hn.split
    rw [snapshotEnergyJ, hsplit] at h
    refine ⟨mj, rfl, Map.lookup_writeEach Prod.fst _ h ?_ ?_⟩
    · rw [snapshotTurn_counter n hs, hmj]
      rfl
    · intro y hy hkey
      exact absurd hkey (hpost y hy)

/-- A snapshot has the counter GPUs as its keys, and no other. -/
theorem mem_snapshot [Rounding] {snap : Map Int Double} (h : b.snapshotEnergyJ nvml = .ok snap) (g : Int) :
    g ∈ snap ↔ g ∈ b.gpuIndices ∧ b.supportsEnergyCounter g = true := by
  rw [Map.mem_writeEach Prod.fst _ h g]
  constructor
  · intro hg
    obtain ⟨⟨i, n⟩, hturn, rfl, v, hv⟩ := hg.resolve_left Std.ExtTreeMap.not_mem_empty
    refine ⟨List.mem_of_getElem? (List.mem_zipIdx_iff_getElem?.mp hturn), ?_⟩
    cases hs : b.supportsEnergyCounter i with
    | true => rfl
    | false => rw [snapshotTurn_polled n hs] at hv; cases hv
  · intro ⟨hg, hs⟩
    obtain ⟨n, hn⟩ := LastTurn.exists_of_mem hg
    obtain ⟨mj, hmj, -⟩ := lookup_snapshot h hn hs
    refine Or.inr ⟨(g, n), hn.mem_zipIdx, rfl, fl (mj / 1000), ?_⟩
    rw [snapshotTurn_counter n hs, hmj]
    rfl

/-! ### Deltas -/

variable {startSnap : Map Int Double} {startTime endTime elapsedTime : Double}

theorem deltaTurn_counter [Rounding] {g : Int} (n : ℕ) (hs : b.supportsEnergyCounter g = true) :
    b.deltaTurn nvml startSnap startTime endTime elapsedTime (g, n) =
      (b.getTotalEnergyMj nvml n g).map fun mj => some (fl (fl (mj / 1000) - startSnap[g]?.getD 0)) := by
  simp only [deltaTurn, hs, if_true]
  rcases b.getTotalEnergyMj nvml n g with e | mj <;> rfl

theorem deltaTurn_polled [Rounding] {g : Int} (n : ℕ) (hs : b.supportsEnergyCounter g = false) :
    b.deltaTurn nvml startSnap startTime endTime elapsedTime (g, n) =
      (b.polledEnergy nvml startTime endTime elapsedTime (g, n)).map some := by
  simp only [deltaTurn, hs, Bool.false_eq_true, if_false]
  rcases b.polledEnergy nvml startTime endTime elapsedTime (g, n) with e | energy <;> rfl

/-- A delta that completes has read every counter, as a snapshot would. -/
theorem snapshot_of_delta [Rounding] {delta : Map Int Double}
    (h : b.computeEnergyDeltaJ nvml startSnap startTime endTime elapsedTime = .ok delta) :
    ∃ snap, b.snapshotEnergyJ nvml = .ok snap := by
  have hturns := (Map.writeEach_ok_iff Prod.fst _ ∅ _).mp ⟨delta, h⟩
  apply (Map.writeEach_ok_iff Prod.fst (b.snapshotTurn nvml) ∅ _).mpr
  intro ⟨g, n⟩ hturn
  obtain ⟨r, hr⟩ := hturns (g, n) hturn
  cases hs : b.supportsEnergyCounter g with
  | true =>
    rw [deltaTurn_counter n hs] at hr
    rw [snapshotTurn_counter n hs]
    cases hmj : b.getTotalEnergyMj nvml n g with
    | error e => rw [hmj] at hr; cases hr
    | ok mj => exact ⟨_, rfl⟩
  | false => exact ⟨none, snapshotTurn_polled n hs⟩

/-- Every turn of a delta that completes writes its GPU's entry. -/
theorem deltaTurn_ok [Rounding] {delta : Map Int Double}
    (h : b.computeEnergyDeltaJ nvml startSnap startTime endTime elapsedTime = .ok delta) {g : Int}
    {n : ℕ} (hturn : (g, n) ∈ b.gpuIndices.zipIdx) :
    ∃ v, b.deltaTurn nvml startSnap startTime endTime elapsedTime (g, n) = .ok (some v) := by
  obtain ⟨r, hr⟩ := (Map.writeEach_ok_iff Prod.fst _ ∅ _).mp ⟨delta, h⟩ _ hturn
  rw [hr]
  cases hs : b.supportsEnergyCounter g with
  | true =>
    rw [deltaTurn_counter n hs] at hr
    cases hmj : b.getTotalEnergyMj nvml n g with
    | error e => rw [hmj] at hr; cases hr
    | ok mj => rw [hmj] at hr; cases hr; exact ⟨_, rfl⟩
  | false =>
    rw [deltaTurn_polled n hs] at hr
    cases he : b.polledEnergy nvml startTime endTime elapsedTime (g, n) with
    | error e => rw [he] at hr; cases hr
    | ok energy => rw [he] at hr; cases hr; exact ⟨_, rfl⟩

/-- The delta holds what each GPU's last turn computed. -/
theorem lookup_delta [Rounding] {delta : Map Int Double}
    (h : b.computeEnergyDeltaJ nvml startSnap startTime endTime elapsedTime = .ok delta) {g : Int}
    {n : ℕ} (hn : LastTurn b.gpuIndices g n) :
    ∃ v, b.deltaTurn nvml startSnap startTime endTime elapsedTime (g, n) = .ok (some v) ∧
      delta[g]? = some v := by
  obtain ⟨v, hv⟩ := deltaTurn_ok h hn.mem_zipIdx
  obtain ⟨pre, post, hsplit, hpost⟩ := hn.split
  rw [computeEnergyDeltaJ, hsplit] at h
  refine ⟨v, hv, Map.lookup_writeEach Prod.fst _ h hv ?_⟩
  intro y hy hkey
  exact absurd hkey (hpost y hy)

theorem mem_delta [Rounding] {delta : Map Int Double}
    (h : b.computeEnergyDeltaJ nvml startSnap startTime endTime elapsedTime = .ok delta) (g : Int) :
    g ∈ delta ↔ g ∈ b.gpuIndices := by
  rw [Map.mem_writeEach Prod.fst _ h g]
  constructor
  · intro hg
    obtain ⟨⟨i, n⟩, hturn, rfl, -⟩ := hg.resolve_left Std.ExtTreeMap.not_mem_empty
    exact List.mem_of_getElem? (List.mem_zipIdx_iff_getElem?.mp hturn)
  · intro hg
    obtain ⟨n, hn⟩ := LastTurn.exists_of_mem hg
    exact Or.inr ⟨(g, n), hn.mem_zipIdx, rfl, deltaTurn_ok h hn.mem_zipIdx⟩

/-- A counter GPU: this call's reading, less the snapshot's. -/
theorem lookup_delta_counter [Rounding] {delta : Map Int Double}
    (h : b.computeEnergyDeltaJ nvml startSnap startTime endTime elapsedTime = .ok delta) {g : Int}
    {n : ℕ} (hn : LastTurn b.gpuIndices g n) (hs : b.supportsEnergyCounter g = true) :
    ∃ mj, b.getTotalEnergyMj nvml n g = .ok mj ∧
      delta[g]? = some (fl (fl (mj / 1000) - startSnap[g]?.getD 0)) := by
  obtain ⟨v, hv, hlookup⟩ := lookup_delta h hn
  rw [deltaTurn_counter n hs] at hv
  cases hmj : b.getTotalEnergyMj nvml n g with
  | error e => rw [hmj] at hv; cases hv
  | ok mj => rw [hmj] at hv; cases hv; exact ⟨_, rfl, hlookup⟩

/-- A polled GPU: the integral over the window, or the instant power over the
elapsed time where there is nothing to integrate. -/
theorem lookup_delta_polled [Rounding] {delta : Map Int Double}
    (h : b.computeEnergyDeltaJ nvml startSnap startTime endTime elapsedTime = .ok delta) {g : Int}
    {n : ℕ} (hn : LastTurn b.gpuIndices g n) (hs : b.supportsEnergyCounter g = false) :
    ∃ energy, b.polledEnergy nvml startTime endTime elapsedTime (g, n) = .ok energy ∧
      delta[g]? = some energy := by
  obtain ⟨v, hv, hlookup⟩ := lookup_delta h hn
  rw [deltaTurn_polled n hs] at hv
  cases he : b.polledEnergy nvml startTime endTime elapsedTime (g, n) with
  | error e => rw [he] at hv; cases hv
  | ok energy => rw [he] at hv; cases hv; exact ⟨_, rfl, hlookup⟩

/-- The two paths of a polled GPU. -/
theorem polledEnergy_cases [Rounding] {g : Int} {n : ℕ} {energy : Double}
    (h : b.polledEnergy nvml startTime endTime elapsedTime (g, n) = .ok energy) :
    (0 < b.computeEnergyFromSamples g startTime endTime ∧
        energy = b.computeEnergyFromSamples g startTime endTime) ∨
      (b.computeEnergyFromSamples g startTime endTime ≤ 0 ∧
        ∃ powerW, b.getInstantPowerW nvml n g = .ok powerW ∧ energy = fl (powerW * elapsedTime)) := by
  simp only [polledEnergy] at h
  split at h
  next hle =>
    refine Or.inr ⟨hle, ?_⟩
    cases hp : b.getInstantPowerW nvml n g with
    | error e => rw [hp] at h; cases h
    | ok powerW => rw [hp] at h; cases h; exact ⟨powerW, rfl, rfl⟩
  next hgt =>
    cases h
    exact Or.inl ⟨not_le.mp hgt, rfl⟩

/-! ### What the polling thread changes -/

/-- The part of the backend that is settled at construction. -/
structure Devices where
  gpuIndices : List Int
  handles : Map Int Handle
  counters : Int → Bool

def devices (b : NvidiaGpuBackend) : Devices := ⟨b.gpuIndices, b.handles, b.supportsEnergyCounter⟩

/-- Every listed GPU has an entry, so `supports_energy_[idx]` inserts nothing. -/
theorem pollTurn_eq [Rounding] (b : NvidiaGpuBackend) (ts : Double) (nvml : NvmlReads) {n : ℕ} {g : Int}
    (hg : b.gpuIndices[n]? = some g) :
    b.pollTurn ts nvml n =
      if !b.pollingActive then b
      else if b.supportsEnergyCounter g then b
      else match b.getInstantPowerW nvml n g with
        | .error _ => b
        | .ok power =>
          if 0 < power then { b with samples := b.samples ++ [⟨ts, g, power⟩] } else b := by
  have hmem : g ∈ b.supportsEnergy := (b.mem_supportsEnergy g).mpr (List.mem_of_getElem? hg)
  unfold pollTurn
  split
  next hnone => rw [hg] at hnone; cases hnone
  next idx hidx =>
    obtain rfl : g = idx := Option.some.inj (hg.symm.trans hidx)
    cases hpower : b.getInstantPowerW nvml n g with
    | error e => simp only [Map.insertIfNew_of_mem false hmem, hpower]
    | ok power => simp only [Map.insertIfNew_of_mem false hmem, hpower]

/-- What a polling turn does, case by case: nothing to the devices, and at most one
sample, stamped with the round's time and positive. -/
theorem pollTurn_cases [Rounding] (b : NvidiaGpuBackend) (ts : Double) (nvml : NvmlReads) (n : ℕ) :
    b.pollTurn ts nvml n = b ∨
      ∃ g power, b.gpuIndices[n]? = some g ∧ b.supportsEnergyCounter g = false ∧
        b.getInstantPowerW nvml n g = .ok power ∧ 0 < power ∧
        b.pollTurn ts nvml n = { b with samples := b.samples ++ [⟨ts, g, power⟩] } := by
  cases hg : b.gpuIndices[n]? with
  | none =>
    left
    unfold pollTurn
    split
    next => rfl
    next idx hidx => rw [hg] at hidx; cases hidx
  | some g =>
    rw [pollTurn_eq b ts nvml hg]
    by_cases hactive : (!b.pollingActive) = true
    · rw [if_pos hactive]
      exact Or.inl rfl
    · rw [if_neg hactive]
      cases hs : b.supportsEnergyCounter g with
      | true => exact Or.inl rfl
      | false =>
        cases hp : b.getInstantPowerW nvml n g with
        | error e => exact Or.inl rfl
        | ok power =>
          by_cases hpos : 0 < power
          · exact Or.inr ⟨g, power, rfl, hs, hp, hpos, if_pos hpos⟩
          · exact Or.inl (if_neg hpos)

theorem pollTurn_devices [Rounding] (b : NvidiaGpuBackend) (ts : Double) (nvml : NvmlReads) (n : ℕ) :
    (b.pollTurn ts nvml n).devices = b.devices := by
  rcases b.pollTurn_cases ts nvml n with h | ⟨g, power, -, -, -, -, h⟩
  · rw [h]
  · rw [h]
    rfl

end NvidiaGpuBackend

end ZeusPower.Device
