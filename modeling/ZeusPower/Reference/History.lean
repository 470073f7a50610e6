import ZeusPower.Device.NvidiaTimeline
import ZeusPower.Reference.ZeusMonitor

/-! What the Python power monitor integrates.

Whether a sample still waits in the queue or has been moved into its deque makes no
difference: the two together are the GPU's history, in order of arrival, and a timeline is
cut from the whole of it (`lookup_getEnergy`). Where `auc` is the trapezoidal rule, and no
two samples of a GPU share a time, a timeline integrates, in exact arithmetic, to what the
C++ integrator makes of the same samples (`timelineEnergy_eq`). -/
namespace ZeusPower.Reference
open Library Device

/-! ### The history of a GPU -/

/-- The samples of a GPU that wait in the queue. -/
def queued (queue : List Message) (g : Int) : List PowerSample :=
  queue.filterMap fun message => match message with
    | .sample s => if s.gpuIndex = g then some s else none
    | .stop => none

theorem queued_append (xs ys : List Message) (g : Int) :
    queued (xs ++ ys) g = queued xs g ++ queued ys g := List.filterMap_append

theorem lookup_append (samples : Map Int (List PowerSample)) (s : PowerSample) (g : Int) :
    (append samples s)[g]?.getD [] = samples[g]?.getD [] ++ queued [.sample s] g := by
  rw [append, Map.lookup_insert]
  by_cases hg : s.gpuIndex = g
  · subst hg
    simp [queued]
  · simp [queued, hg]

/-- Unless it meets a stop, a drain empties the queue into the deques. -/
theorem drain_running {samples : Map Int (List PowerSample)} {queue : List Message}
    (h : Message.stop ∉ queue) : (drain samples queue).2 = [] ∧
      ∀ g : Int, (drain samples queue).1[g]?.getD [] = samples[g]?.getD [] ++ queued queue g := by
  induction queue generalizing samples with
  | nil =>
    refine ⟨rfl, ?_⟩
    intro g
    exact (List.append_nil _).symm
  | cons message rest ih =>
    rw [List.mem_cons, not_or] at h
    cases message with
    | stop => exact absurd rfl h.1
    | sample s =>
      have hrest : (drain (append samples s) rest).2 = [] ∧ ∀ g : Int,
          (drain (append samples s) rest).1[g]?.getD [] =
            (append samples s)[g]?.getD [] ++ queued rest g := ih h.2
      refine ⟨hrest.1, ?_⟩
      intro g
      have hcons : queued (.sample s :: rest) g = queued [.sample s] g ++ queued rest g :=
        queued_append [.sample s] rest g
      rw [drain, hrest.2 g, lookup_append, hcons, List.append_assoc]

namespace PowerMonitor
variable (pm : PowerMonitor)

/-- The samples of a GPU that have arrived. -/
def history (g : Int) : List PowerSample := pm.samples[g]?.getD [] ++ queued pm.dataQueue g

/-- The other process has not stopped. -/
def Running : Prop := Message.stop ∉ pm.dataQueue

theorem history_empty (gpuIndices : List Int) (measurementDomains : List PowerDomain) (g : Int) :
    (empty gpuIndices measurementDomains).history g = [] := by
  show (Map.fill (fun _ => some []) ∅ gpuIndices)[g]?.getD [] ++ [] = []
  rw [Map.lookup_fill, Std.ExtTreeMap.getElem?_empty]
  split
  · rfl
  · rfl

theorem running_put {pm : PowerMonitor} (s : PowerSample) (h : pm.Running) : (pm.put s).Running := by
  unfold put
  split
  · intro hstop
    rcases List.mem_append.mp hstop with hstop | hstop
    · exact h hstop
    · cases List.mem_singleton.mp hstop
  · exact h

theorem gpuIndices_put (s : PowerSample) : (pm.put s).gpuIndices = pm.gpuIndices := by
  unfold put
  split
  · rfl
  · rfl

theorem measurementDomains_put (s : PowerSample) : (pm.put s).measurementDomains = pm.measurementDomains := by
  unfold put
  split
  · rfl
  · rfl

/-- A sample joins the history of its GPU, if it is one of the monitor's. -/
theorem history_put (s : PowerSample) {g : Int} (hg : g ∈ pm.gpuIndices) :
    (pm.put s).history g = pm.history g ++ queued [.sample s] g := by
  unfold put
  by_cases hs : s.gpuIndex ∈ pm.gpuIndices
  · rw [dif_pos hs]
    show pm.samples[g]?.getD [] ++ queued (pm.dataQueue ++ [.sample s]) g = _
    rw [queued_append, ← List.append_assoc]
    rfl
  · have hother : s.gpuIndex ≠ g := fun hsame => hs (hsame ▸ hg)
    rw [dif_neg hs]
    simp [queued, hother]

theorem running_process {pm : PowerMonitor} (h : pm.Running) : pm.processQueueData.Running :=
  fun hstop => h (drain_subset pm.samples pm.dataQueue hstop)

theorem history_process {pm : PowerMonitor} (h : pm.Running) (g : Int) :
    pm.processQueueData.history g = pm.history g := by
  obtain ⟨hqueue, hsamples⟩ : (drain pm.samples pm.dataQueue).2 = [] ∧ ∀ g : Int,
      (drain pm.samples pm.dataQueue).1[g]?.getD [] = pm.history g := drain_running h
  show (drain pm.samples pm.dataQueue).1[g]?.getD [] ++ queued (drain pm.samples pm.dataQueue).2 g = _
  rw [hqueue, hsamples g]
  exact List.append_nil _

/-! ### Timelines -/

/-- The filters keep the window. -/
theorem timeline_eq_within [Rounding] (startTime endTime : Double) (samples : List PowerSample) :
    timeline (some startTime) (some endTime) samples =
      Trapezoid.within startTime endTime (samples.map fun s => (s.timestamp, fl (s.powerMw / 1000))) := by
  unfold timeline Trapezoid.within
  rw [List.filter_map, ← List.filterMap_eq_map, List.filterMap_filter]
  congr 1
  funext s
  by_cases hstart : s.timestamp < startTime
  · simp [hstart]
  · by_cases hend : endTime < s.timestamp
    · simp [hstart, hend]
    · simp [hstart, hend, not_lt.mp hstart, not_lt.mp hend]

/-- The domain that energies are computed from is monitored. -/
def MonitorsPower : Prop := .deviceInstant ∈ pm.measurementDomains ∨ .deviceAverage ∈ pm.measurementDomains

theorem getEnergy_snd [Rounding] (auc : List Double → List Double → Option Double) (startTime endTime : Double)
    (hdomains : pm.MonitorsPower) : (pm.getEnergy auc startTime endTime).2 = pm.processQueueData := by
  unfold MonitorsPower at hdomains
  unfold getEnergy getPowerTimeline
  rw [if_pos hdomains]
  dsimp only
  split
  · rfl
  · rfl

/-- There are readings for every GPU of the monitor, and for no other. -/
theorem lookup_getEnergy [Rounding] (auc : List Double → List Double → Option Double) (startTime endTime : Double)
    (hdomains : pm.MonitorsPower) (hrunning : pm.Running) (hany : pm.gpuIndices ≠ []) :
    ∃ energies : Map Int Double, (pm.getEnergy auc startTime endTime).1 = .ok (some energies) ∧
      ∀ g : Int, energies[g]? = if g ∈ pm.gpuIndices then
        some (timelineEnergy auc ((timeline (some startTime) (some endTime) (pm.history g)).insertionSort
        timeLe)) else none := by
  have hdeque : ∀ g ∈ pm.gpuIndices, pm.processQueueData.samples[g]? = some (pm.history g) := by
    intro g hg
    obtain ⟨deque, hlookup⟩ := (Map.mem_iff_lookup _ g).mp ((pm.processQueueData.mem_samples g).mpr hg)
    have hdrained : pm.processQueueData.samples[g]?.getD [] = pm.history g := (drain_running hrunning).2 g
    rw [hlookup, Option.getD_some] at hdrained
    rw [hlookup, hdrained]
  have htimelines : ∀ g : Int, (pm.getPowerTimeline none (some startTime) (some endTime)).1[g]? =
      if g ∈ pm.gpuIndices then
        some ((timeline (some startTime) (some endTime) (pm.history g)).insertionSort timeLe)
      else none := by
    intro g
    refine (Map.lookup_fill _ ∅ pm.gpuIndices g).trans ?_
    rw [Std.ExtTreeMap.getElem?_empty]
    by_cases hg : g ∈ pm.gpuIndices
    · rw [if_pos hg, if_pos hg, hdeque g hg]
      rfl
    · rw [if_neg hg, if_neg hg]
  have hsome : (pm.getPowerTimeline none (some startTime) (some endTime)).1.isEmpty = false := by
    rw [Std.ExtTreeMap.isEmpty_eq_false_iff]
    intro hempty
    obtain ⟨g, hg⟩ := List.exists_mem_of_ne_nil _ hany
    have hlookup := htimelines g
    rw [hempty, if_pos hg, Std.ExtTreeMap.getElem?_empty] at hlookup
    cases hlookup
  refine ⟨Map.overwrite (fun _ timeline => timelineEnergy auc timeline) ∅
    (pm.getPowerTimeline none (some startTime) (some endTime)).1, ?_, ?_⟩
  · unfold MonitorsPower at hdomains
    unfold getEnergy
    rw [if_pos hdomains]
    dsimp only
    rw [hsome]
    rfl
  · intro g
    rw [Map.lookup_overwrite_empty, htimelines g]
    split
    · rfl
    · rfl

end PowerMonitor

/-! ### The trapezoidal rule -/

/-- `auc` of points in order is the trapezoidal rule. -/
def IsTrapezoidal (auc : List Double → List Double → Option Double) : Prop :=
  ∀ points : List (Double × Double), 2 ≤ points.length → Trapezoid.InOrder points →
    auc (points.map fun p => p.1) (points.map fun p => p.2) = some (Trapezoid.integral points)

instance : IsTrans (Double × Double) PowerMonitor.timeLe := ⟨fun _ _ _ hpq hqr => le_trans hpq hqr⟩

instance : Std.Total PowerMonitor.timeLe := ⟨fun p q => le_total p.1 q.1⟩

/-- **Both sorts, and both integrators, agree** on samples that share no time, in exact
arithmetic. -/
theorem timelineEnergy_eq [Rounding] [Exact] {auc : List Double → List Double → Option Double}
    (hauc : IsTrapezoidal auc)
    {timeline : List (Double × Double)} (hdistinct : (timeline.map Prod.fst).Nodup) :
    PowerMonitor.timelineEnergy auc (timeline.insertionSort PowerMonitor.timeLe) =
      Trapezoid.summed 0 (NvidiaGpuBackend.sortTimeline timeline) := by
  have hperm := List.perm_insertionSort PowerMonitor.timeLe timeline
  have hsame : timeline.insertionSort PowerMonitor.timeLe = NvidiaGpuBackend.sortTimeline timeline := by
    apply Trapezoid.InOrder.unique (List.pairwise_insertionSort PowerMonitor.timeLe timeline)
      (NvidiaGpuBackend.sortTimeline_inOrder timeline)
    · exact hperm.trans (List.perm_insertionSort NvidiaGpuBackend.pairLe timeline).symm
    · exact (hperm.map Prod.fst).nodup_iff.mpr hdistinct
  rw [hsame, Trapezoid.summed_eq, zero_add]
  have hsorted := NvidiaGpuBackend.sortTimeline_inOrder timeline
  unfold PowerMonitor.timelineEnergy
  by_cases hshort : (NvidiaGpuBackend.sortTimeline timeline).length < 2
  · rw [if_pos hshort]
    cases hl : NvidiaGpuBackend.sortTimeline timeline with
    | nil => rfl
    | cons p rest =>
      rw [hl, List.length_cons] at hshort
      obtain rfl : rest = [] := List.eq_nil_of_length_eq_zero (by omega)
      rfl
  · rw [if_neg hshort]
    dsimp only
    rw [hauc _ (by omega) hsorted]

end ZeusPower.Reference
