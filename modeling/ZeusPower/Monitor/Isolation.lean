import ZeusPower.Monitor.Run

/-! Windows do not disturb one another.

The window calls share one map and one set of backends, but a call writes its own key
only, and no call writes a backend. So what the calls on a key return, values and
exceptions, is what they return in the run without any call on another key: whether those
others are nested, overlap, repeat or throw (`windows_isolated`). -/
namespace ZeusPower.Monitor
open Device Library
open EnergyMonitor (machine)

/-- The events that a user of some keys sees: the calls on them, and the polling threads'. -/
def Event.concerns (mine : String → Bool) : Event → Bool
  | .beginWindow key _ | .endWindow key _ => mine key
  | .nvidiaTurn _ _ _ | .jetsonRound _ _ => true

/-- Two monitors that a user of some keys cannot tell apart. -/
structure Alike (mine : String → Bool) (m m' : EnergyMonitor) : Prop where
  backends : m.backends = m'.backends
  windows : ∀ key, mine key = true → m.windows[key]? = m'.windows[key]?

variable {mine : String → Bool}

theorem Alike.refl (m : EnergyMonitor) : Alike mine m m := ⟨rfl, fun _ _ => rfl⟩

/-- A begin finds the same in both, and writes the same to both. -/
theorem begin_alike [Rounding] {m m' : EnergyMonitor} (h : Alike mine m m') {key : String} (hkey : mine key = true)
    (r : Reads) :
    machine.answer m (.beginWindow key r) = machine.answer m' (.beginWindow key r) ∧
      Alike mine (machine.next m (.beginWindow key r)) (machine.next m' (.beginWindow key r)) := by
  have hmem : key ∈ m.windows ↔ key ∈ m'.windows := by
    rw [Map.mem_iff_lookup, Map.mem_iff_lookup, h.windows key hkey]
  rw [answer_begin, answer_begin, next_begin, next_begin, EnergyMonitor.beginWindow_call,
    EnergyMonitor.beginWindow_call, ← h.backends]
  by_cases hopen : key ∈ m.windows
  · rw [if_pos hopen, if_pos (hmem.mp hopen)]
    exact ⟨rfl, h⟩
  · rw [if_neg hopen, if_neg (hopen ∘ hmem.mpr)]
    cases m.backends.takeSnapshots r with
    | error e => exact ⟨rfl, h⟩
    | ok state =>
      refine ⟨rfl, rfl, fun k hk => ?_⟩
      rw [Map.lookup_insert, Map.lookup_insert, h.windows k hk]

theorem end_alike [Rounding] {m m' : EnergyMonitor} (h : Alike mine m m') {key : String} (hkey : mine key = true)
    (r : Reads) :
    machine.answer m (.endWindow key r) = machine.answer m' (.endWindow key r) ∧
      Alike mine (machine.next m (.endWindow key r)) (machine.next m' (.endWindow key r)) := by
  rw [answer_end, answer_end, next_end, next_end, EnergyMonitor.endWindow_call,
    EnergyMonitor.endWindow_call, ← h.backends, ← h.windows key hkey]
  cases m.windows[key]? with
  | none => exact ⟨rfl, h⟩
  | some state =>
    simp only
    cases m.backends.measure state r with
    | error e => exact ⟨rfl, h⟩
    | ok result =>
      refine ⟨rfl, rfl, fun k hk => ?_⟩
      rw [Map.lookup_erase, Map.lookup_erase, h.windows k hk]

theorem visible_alike [Rounding] {m m' : EnergyMonitor} {e : Event} (hsees : e.concerns mine = true)
    (h : Alike mine m m') :
    machine.answer m e = machine.answer m' e ∧ Alike mine (machine.next m e) (machine.next m' e) := by
  cases e with
  | nvidiaTurn ts nvml n =>
    refine ⟨rfl, ?_, h.windows⟩
    show m.backends.nvidiaTurn ts nvml n = m'.backends.nvidiaTurn ts nvml n
    rw [h.backends]
  | jetsonRound now sysfs =>
    refine ⟨rfl, ?_, h.windows⟩
    show m.backends.jetsonRound now sysfs = m'.backends.jetsonRound now sysfs
    rw [h.backends]
  | beginWindow key r => exact begin_alike h hsees r
  | endWindow key r => exact end_alike h hsees r

/-- A call on another key changes nothing that a user of these keys can see. -/
theorem other_alike [Rounding] {m m' : EnergyMonitor} {e : Event} (hother : e.concerns mine = false)
    (h : Alike mine m m') : Alike mine (machine.next m e) m' := by
  cases e with
  | nvidiaTurn ts nvml n => cases hother
  | jetsonRound now sysfs => cases hother
  | beginWindow key r =>
    refine ⟨backends_begin.trans h.backends, fun k hk => ?_⟩
    have hne : key ≠ k := by
      rintro rfl
      rw [Event.concerns, hk] at hother
      cases hother
    rw [← h.windows k hk, next_begin, EnergyMonitor.beginWindow_call]
    by_cases hopen : key ∈ m.windows
    · rw [if_pos hopen]
    · rw [if_neg hopen]
      cases m.backends.takeSnapshots r with
      | error e => rfl
      | ok state => rw [Map.lookup_insert, if_neg hne]
  | endWindow key r =>
    refine ⟨backends_end.trans h.backends, fun k hk => ?_⟩
    have hne : key ≠ k := by
      rintro rfl
      rw [Event.concerns, hk] at hother
      cases hother
    rw [← h.windows k hk, next_end, EnergyMonitor.endWindow_call]
    cases m.windows[key]? with
    | none => rfl
    | some state =>
      simp only
      cases m.backends.measure state r with
      | error e => rfl
      | ok result => rw [Map.lookup_erase, if_neg hne]

/-- **Windows are isolated.** Deleting from a run all window calls on other keys leaves
every outcome of the calls on one's own keys as it was, and the windows they have open. -/
theorem windows_isolated [Rounding] (mine : String → Bool) (backends : BackendPtrs) (events : List Event) :
    Machine.observed (Event.concerns mine) (machine.trace (.construct backends) events) =
        Machine.observed (Event.concerns mine)
          (machine.trace (.construct backends) (events.filter (Event.concerns mine))) ∧
      Alike mine (machine.run (.construct backends) events)
        (machine.run (.construct backends) (events.filter (Event.concerns mine))) :=
  Machine.erase_invisible (fun _ _ _ => visible_alike) (fun _ _ _ => other_alike) (Alike.refl _) events

end ZeusPower.Monitor
