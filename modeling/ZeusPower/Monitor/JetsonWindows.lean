import Mathlib.Algebra.BigOperators.Ring.List
import ZeusPower.Device.JetsonRounds
import ZeusPower.Monitor.Parts

/-! Windows on Jetson.

Between the two snapshots of a window the polling thread completes some rounds, maybe
none, and the energy of a rail is the sum of those rounds (`rail_lookup`). That sum covers
the time from the last round before the window to the last round in it, not the window: in
exact arithmetic the two differ by at most the age of a round at each end
(`window_phase_bound`), in doubles by a last digit more (`tenths_past_phase`).

`total_soc_energy` adds up all rails, the one that feeds the others among them, so it is
no more than that rail's energy only when the others have nothing to add
(`total_le_input_iff`). -/
namespace ZeusPower.Monitor
open Device Library Rounding
open EnergyMonitor (machine)

/-! ### Rounds of a run -/

def Event.round : Event → Option Round
  | .jetsonRound now sysfs => some ⟨now, sysfs⟩
  | _ => none

/-- The rounds of the Jetson polling thread, in order. -/
def roundsOf (events : List Event) : List Round := events.filterMap Event.round

theorem roundsOf_append (xs ys : List Event) :
    roundsOf (xs ++ ys) = roundsOf xs ++ roundsOf ys := List.filterMap_append

theorem jetson_next [Rounding] (m : EnergyMonitor) (e : Event) :
    (machine.next m e).backends.jetson =
      m.backends.jetson.map (·.pollRounds (roundsOf [e])) := by
  cases e with
  | nvidiaTurn ts nvml n => exact Option.map_id'.symm
  | jetsonRound now sysfs => rfl
  | beginWindow key r =>
    rw [backends_begin]
    exact Option.map_id'.symm
  | endWindow key r =>
    rw [backends_end]
    exact Option.map_id'.symm

theorem jetson_run [Rounding] (m : EnergyMonitor) (events : List Event) :
    (machine.run m events).backends.jetson = m.backends.jetson.map (·.pollRounds (roundsOf events)) := by
  induction events generalizing m with
  | nil => exact Option.map_id'.symm
  | cons e rest ih =>
    rw [Machine.run, ih, jetson_next, Option.map_map, show e :: rest = [e] ++ rest from rfl,
      roundsOf_append]
    congr 1
    funext b
    exact (b.pollRounds_append _ _).symm

theorem Window.opening_before [Rounding] {s : EnergyMonitor} {events : List Event}
    (w : Window (machine.trace s events)) : w.opening.before = machine.run s (events.take w.openAt) := by
  have hopened := w.opened
  rw [Machine.getElem?_trace] at hopened
  obtain ⟨e, -, he⟩ := Option.map_eq_some_iff.mp hopened
  rw [← he]

/-- The rounds completed before the first snapshot of the window. -/
def Window.roundsBefore [Rounding] {events : List Event} {s : EnergyMonitor}
    (w : Window (machine.trace s events)) :
    List Round := roundsOf (events.take w.openAt)

/-- The rounds completed between its two snapshots. -/
def Window.roundsInside [Rounding] {events : List Event} {s : EnergyMonitor}
    (w : Window (machine.trace s events)) :
    List Round := roundsOf ((events.take w.closeAt).drop w.openAt)

theorem Window.rounds_split [Rounding] {events : List Event} {s : EnergyMonitor}
    (w : Window (machine.trace s events)) :
    roundsOf (events.take w.closeAt) = w.roundsBefore ++ w.roundsInside := by
  have hopen : events.take w.openAt = (events.take w.closeAt).take w.openAt := by
    rw [List.take_take, Nat.min_eq_left w.before.le]
  rw [roundsBefore, roundsInside, hopen, ← roundsOf_append, List.take_append_drop]

/-! ### The energy of a rail -/

/-- What a window gives the rail at a turn of the poller: the accumulator at its end, less
the one at its begin, in Joules. -/
def Window.railJ [Rounding] {s : EnergyMonitor} {events : List Event} (w : Window (machine.trace s events))
    (start : Double) (turn : PowerRail × ℕ) : Double :=
  let before := RightSum.accumulated 0 start (turn.1.readings turn.2 w.roundsBefore)
  let after := RightSum.accumulated before (lastTs start w.roundsBefore)
    (turn.1.readings turn.2 w.roundsInside)
  fl (fl (after / 1000) - fl (before / 1000))

theorem Window.railJ_eq [Rounding] [Exact] {s : EnergyMonitor} {events : List Event}
    (w : Window (machine.trace s events)) (start : Double) (turn : PowerRail × ℕ) :
    w.railJ start turn =
      RightSum.total (lastTs start w.roundsBefore) (turn.1.readings turn.2 w.roundsInside) / 1000 := by
  simp only [railJ, Exact.fl_eq, RightSum.accumulated_eq]
  rw [← sub_div, add_sub_cancel_left]

/-- A rail whose rounds inside the window took no time or read nothing is given nothing. -/
theorem Window.railJ_idle [Rounding] {s : EnergyMonitor} {events : List Event}
    {w : Window (machine.trace s events)} {start : Double} {turn : PowerRail × ℕ}
    (h : ∀ step ∈ RightSum.steps (lastTs start w.roundsBefore) (turn.1.readings turn.2 w.roundsInside),
      step.1 = 0 ∨ step.2.getD 0 = 0) : w.railJ start turn = 0 := by
  have hsame := RightSum.accumulated_idle (RightSum.fl_accumulated fl_zero start
    (turn.1.readings turn.2 w.roundsBefore)) h
  rw [railJ, hsame, sub_self, fl_zero]

/-- What the rails other than the one at place `k` add up to over some rounds, in mJ. -/
def othersMj [Rounding] (rails : List PowerRail) (k : ℕ) (start : Double) (rounds : List Round) : Double :=
  ((rails.zipIdx.eraseIdx k).map fun turn => RightSum.total start (turn.1.readings turn.2 rounds)).sum

/-- The rail at place `k`, and the others. -/
theorem zipIdx_perm {rails : List PowerRail} {rail : PowerRail} {k : ℕ} (hrail : rails[k]? = some rail) :
    rails.zipIdx.Perm ((rail, k) :: rails.zipIdx.eraseIdx k) := by
  obtain ⟨hk, hget⟩ := List.getElem?_eq_some_iff.mp hrail
  have hlt : k < rails.zipIdx.length := by
    rw [List.length_zipIdx]
    exact hk
  have hperm := List.getElem_cons_eraseIdx_perm hlt
  rw [List.getElem_zipIdx, hget, Nat.zero_add] at hperm
  exact hperm.symm

section Jetson
variable [Rounding] {backends : BackendPtrs} {events : List Event} {rails : List PowerRail} {start : Double}
  (hjetson : backends.jetson = some (.ofRails rails start)) (happle : backends.apple = none)
  (hkeys : (rails.map (·.key)).Nodup)
include hjetson

theorem jetson_snapshot (events : List Event) :
    ((machine.run (.construct backends) events).backends.readJetson (·.snapshotEnergyJ)) =
      ((JetsonSoCBackend.ofRails rails start).pollRounds (roundsOf events)).snapshotEnergyJ := by
  have hrun : (machine.run (.construct backends) events).backends.jetson =
      some ((JetsonSoCBackend.ofRails rails start).pollRounds (roundsOf events)) := by
    rw [jetson_run]
    show backends.jetson.map _ = _
    rw [hjetson]
    rfl
  rw [BackendPtrs.readJetson, hrun]

include happle

/-- Without an Apple backend the SoC energies are the differences of two Jetson snapshots. -/
theorem soc_lookup (w : Window (machine.trace (.construct backends) events)) (metric : String) :
    w.result.socEnergy[metric]? =
      ((JetsonSoCBackend.ofRails rails start).pollRounds
          (roundsOf (events.take w.closeAt))).snapshotEnergyJ[metric]?.map fun endE =>
        fl (endE - ((JetsonSoCBackend.ofRails rails start).pollRounds
          w.roundsBefore).snapshotEnergyJ[metric]?.getD 0) := by
  obtain ⟨state, hstate, hmeasure, hdevices, hrun⟩ := w.reads
  obtain ⟨endSnap, -, hend, hsoc⟩ := soc_energy hdevices hstate hmeasure
  have hnone : w.closing.before.backends.apple = none := (apple_of_devices hrun).trans happle
  rw [BackendPtrs.readApple, hnone] at hend
  obtain rfl : ∅ = endSnap := Except.ok.inj hend
  rw [hsoc metric, Std.ExtTreeMap.getElem?_empty, Option.map_none, Option.none_or, w.closing_before,
    w.opening_before, jetson_snapshot hjetson, jetson_snapshot hjetson]
  rfl

include hkeys

/-- **A window has the sum of its own rounds**, for every rail. -/
theorem rail_lookup {rail : PowerRail} {n : ℕ} (hrail : rails[n]? = some rail)
    (w : Window (machine.trace (.construct backends) events)) :
    w.result.socEnergy[rail.key]? = some (w.railJ start (rail, n)) := by
  rw [soc_lookup hjetson happle w, JetsonSoCBackend.snapshot_ofRails start _ hkeys hrail,
    JetsonSoCBackend.snapshot_ofRails start _ hkeys hrail, w.rounds_split, rail.readings_append,
    RightSum.accumulated_append, rail.lastTime_readings, Option.map_some, Option.getD_some]
  rfl

/-- The SoC energies of a window are those of all rails. -/
theorem socEnergy_perm (w : Window (machine.trace (.construct backends) events)) :
    (w.result.socEnergy.toList.map Prod.snd).Perm (rails.zipIdx.map (w.railJ start)) := by
  have hin : ∀ key ∈ rails.map (·.key), w.result.socEnergy[key]? =
      some (w.result.socEnergy[key]?.getD 0) := by
    intro key hkey
    obtain ⟨rail, hrail, rfl⟩ := List.mem_map.mp hkey
    obtain ⟨n, hn⟩ := List.mem_iff_getElem?.mp hrail
    rw [rail_lookup hjetson happle hkeys hn w, Option.getD_some]
  have hout : ∀ key : String, key ∉ rails.map (·.key) → w.result.socEnergy[key]? = none := by
    intro key hkey
    have hnone : key ∉ ((JetsonSoCBackend.ofRails rails start).pollRounds
        (roundsOf (events.take w.closeAt))).snapshotEnergyJ := by
      rw [JetsonSoCBackend.mem_snapshotEnergyJ, JetsonSoCBackend.powerRails_pollRounds]
      intro hrail
      exact hkey (List.mem_map.mpr hrail)
    rw [soc_lookup hjetson happle w, (Map.not_mem_iff_lookup _ _).mp hnone, Option.map_none]
  have hvalues := Map.values_perm w.result.socEnergy hkeys _ hin hout
  have hrails : ((rails.map (·.key)).map fun key => w.result.socEnergy[key]?.getD 0) =
      rails.zipIdx.map (w.railJ start) := by
    rw [List.map_map]
    conv_lhs => rw [← List.zipIdx_map_fst 0 rails, List.map_map]
    apply List.map_congr_left
    intro turn hturn
    show w.result.socEnergy[turn.1.key]?.getD 0 = _
    rw [rail_lookup hjetson happle hkeys (List.mem_zipIdx_iff_getElem?.mp hturn) w, Option.getD_some]
  rwa [hrails] at hvalues

/-- What the total has more than the energy of one rail is the energy of the others. -/
theorem totalSocEnergy_le [Exact] {input : PowerRail} {k : ℕ} (hinput : rails[k]? = some input)
    (w : Window (machine.trace (.construct backends) events)) :
    w.result.totalSocEnergy ≤ (Source.rail input.key).energy w.result ↔
      othersMj rails k (lastTs start w.roundsBefore) w.roundsInside ≤ 0 := by
  have hperm := (socEnergy_perm hjetson happle hkeys w).trans ((zipIdx_perm hinput).map _)
  rw [Measurement.totalSocEnergy, Measurement.total_eq, sum_eq, hperm.sum_eq, List.map_cons, List.sum_cons,
    Source.energy, rail_lookup hjetson happle hkeys hinput w, Option.getD_some, add_le_iff_nonpos_right,
    othersMj]
  have hrails : (rails.zipIdx.eraseIdx k).map (w.railJ start) = (rails.zipIdx.eraseIdx k).map fun turn =>
      RightSum.total (lastTs start w.roundsBefore) (turn.1.readings turn.2 w.roundsInside) * 1000⁻¹ :=
    List.map_congr_left fun turn _ => w.railJ_eq start turn
  rw [hrails, List.sum_map_mul_right, ← div_eq_mul_inv, div_le_iff₀ (by norm_num), zero_mul]

/-- Where the others have nothing to add, the total is the energy of the one rail. -/
theorem totalSocEnergy_idle {input : PowerRail} {k : ℕ} (hinput : rails[k]? = some input)
    (w : Window (machine.trace (.construct backends) events))
    (hidle : ∀ turn ∈ rails.zipIdx.eraseIdx k,
      ∀ step ∈ RightSum.steps (lastTs start w.roundsBefore) (turn.1.readings turn.2 w.roundsInside),
        step.1 = 0 ∨ step.2.getD 0 = 0) :
    w.result.totalSocEnergy = (Source.rail input.key).energy w.result := by
  have hperm := (socEnergy_perm hjetson happle hkeys w).trans ((zipIdx_perm hinput).map _)
  rw [Measurement.totalSocEnergy, Measurement.total_eq, Source.energy,
    rail_lookup hjetson happle hkeys hinput w, Option.getD_some]
  refine sum_single (fl_fl _) hperm ?_
  rw [List.forall_mem_map]
  exact fun turn hturn => Window.railJ_idle (hidle turn hturn)

end Jetson

/-! ### Times -/

section Times
variable [Rounding] {s : EnergyMonitor} {events : List Event} {start : Double} (rail : PowerRail) (n : ℕ)
  (w : Window (machine.trace s events))

theorem Window.inside_steady (h : (start :: (roundsOf events).map Round.now).Pairwise (· ≤ ·)) :
    RightSum.Steady (lastTs start w.roundsBefore) (rail.readings n w.roundsInside) := by
  have hall := rail.readings_steady n h
  rw [← List.take_append_drop w.closeAt events, roundsOf_append, rail.readings_append] at hall
  have hclose := hall.append.1
  rw [w.rounds_split, rail.readings_append] at hclose
  rw [← rail.lastTime_readings n]
  exact hclose.append.2

theorem Window.lastTime_inside :
    RightSum.lastTime (lastTs start w.roundsBefore) (rail.readings n w.roundsInside) =
      lastTs start (roundsOf (events.take w.closeAt)) := by
  rw [w.rounds_split, ← rail.lastTime_readings n, ← rail.lastTime_readings n,
    ← RightSum.lastTime_append, ← rail.readings_append]

end Times

/-- **The error of a window is bounded by the age of the rounds it meets.** In exact
arithmetic, let a rail read between `lo` and `hi` in every round, and let the last round be at
most `g` seconds old at each of a window's two snapshots, which are `l` seconds apart. The
energy of the rail is at least `lo` over `l - g` and at most `hi` over `l + g`; at constant
power it is off by at most the energy of `g` seconds. No round needs to fall inside the
window. -/
theorem window_phase_bound [Rounding] [Exact] (backends : BackendPtrs) (events : List Event)
    (rails : List PowerRail)
    (start : Double) (rail : PowerRail) (n : ℕ) (lo hi g l openTime closeTime : Double) (first last : Round)
    (hjetson : backends.jetson = some (.ofRails rails start)) (happle : backends.apple = none)
    (hkeys : (rails.map (·.key)).Nodup) (hrail : rails[n]? = some rail)
    (htimes : (start :: (roundsOf events).map Round.now).Pairwise (· ≤ ·)) (hlo : 0 ≤ lo)
    (hreads : ∀ round ∈ roundsOf events,
      ∃ p, rail.readPowerMw (round.sysfs n) = .ok p ∧ lo ≤ p ∧ p ≤ hi)
    (w : Window (machine.trace (.construct backends) events))
    (hfirst : w.roundsBefore.getLast? = some first)
    (hlast : (roundsOf (events.take w.closeAt)).getLast? = some last)
    (hopen : openTime - g ≤ first.now ∧ first.now ≤ openTime)
    (hclose : closeTime - g ≤ last.now ∧ last.now ≤ closeTime) (hl : closeTime - openTime = l) :
    ∃ energy, w.result.socEnergy[rail.key]? = some energy ∧
      lo * (l - g) / 1000 ≤ energy ∧ energy ≤ hi * (l + g) / 1000 ∧
      (lo = hi → |energy - lo * l / 1000| ≤ lo * g / 1000) := by
  have hinside : ∀ round ∈ w.roundsInside, round ∈ roundsOf events := by
    intro round hround
    obtain ⟨e, he, hevent⟩ := List.mem_filterMap.mp hround
    exact List.mem_filterMap.mpr ⟨e, List.mem_of_mem_take (List.mem_of_mem_drop he), hevent⟩
  have hreadings : ∀ reading ∈ rail.readings n w.roundsInside,
      ∃ v, reading.2 = some v ∧ lo ≤ v ∧ v ≤ hi := by
    intro reading hreading
    obtain ⟨round, hround, rfl⟩ := List.mem_map.mp hreading
    obtain ⟨p, hp, hbounds⟩ := hreads round (hinside round hround)
    exact ⟨p, by rw [hp]; rfl, hbounds⟩
  have hhi : 0 ≤ hi := by
    obtain ⟨e, he, hevent⟩ := List.mem_filterMap.mp (List.mem_of_getLast? hfirst)
    obtain ⟨p, -, hlower, hupper⟩ :=
      hreads first (List.mem_filterMap.mpr ⟨e, List.mem_of_mem_take he, hevent⟩)
    exact hlo.trans (hlower.trans hupper)
  have hbounds := RightSum.total_bounds (w.inside_steady rail n htimes) hreadings
  have hspan : RightSum.lastTime (lastTs start w.roundsBefore) (rail.readings n w.roundsInside) -
      lastTs start w.roundsBefore = last.now - first.now := by
    rw [w.lastTime_inside, lastTs, lastTs, hlast, hfirst]
  rw [hspan] at hbounds
  -- The rounds of the window span `l`, give or take `g`.
  have hlower : lo * (l - g) ≤ lo * (last.now - first.now) :=
    mul_le_mul_of_nonneg_left (by linarith [hopen.2, hclose.1]) hlo
  have hupper : hi * (last.now - first.now) ≤ hi * (l + g) :=
    mul_le_mul_of_nonneg_left (by linarith [hopen.1, hclose.2]) hhi
  refine ⟨_, rail_lookup hjetson happle hkeys hrail w, ?_⟩
  rw [w.railJ_eq]
  refine ⟨?_, ?_, ?_⟩
  · linarith [hbounds.1]
  · linarith [hbounds.2]
  · intro hsame
    subst hsame
    rw [abs_le]
    constructor
    · linarith [hbounds.1]
    · linarith [hbounds.2]

/-- A window on the board of two rails, at 7 W and 2 W, with one round inside. -/
def jetsonBoard : BackendPtrs := { jetson := some (.ofRails JetsonSoCBackend.sampleRails 0) }

def jetsonFiles (_ : ℕ) : Sysfs := fun path => if path = "in1_power" then some "7000" else some "2000"

def jetsonEvents : List Event :=
  [.jetsonRound 1 jetsonFiles, .beginWindow "epoch" (sampleReads 1 0), .jetsonRound 2 jetsonFiles,
    .endWindow "epoch" (sampleReads 2 0)]

theorem jetsonEvents_window [Rounding] {result : Measurement}
    (hend : ((EnergyMonitor.endWindow "epoch" (sampleReads 2 0)).call
      (machine.run (.construct jetsonBoard) (jetsonEvents.take 3))).1 = .ok result) :
    ∃ w : Window (machine.trace (.construct jetsonBoard) jetsonEvents), w.ends = (1, 3) ∧ w.result = result := by
  obtain ⟨w, hw, -, -, hresult⟩ := exists_window
    (show jetsonEvents[1]? = some (.beginWindow "epoch" (sampleReads 1 0)) from rfl) rfl (by omega)
    (by intro k e h1 h3 he r; interval_cases k; cases he; simp) rfl hend
  exact ⟨w, hw, hresult⟩

theorem jetsonEvents_reads [Rounding] {w : Window (machine.trace (.construct jetsonBoard) jetsonEvents)}
    (hw : w.ends = (1, 3)) : lastTs 0 w.roundsBefore = 1 ∧ w.roundsInside = [⟨2, jetsonFiles⟩] := by
  obtain ⟨hopen, hclose⟩ := Prod.mk.inj hw
  rw [Window.roundsBefore, Window.roundsInside, hopen, hclose]
  exact ⟨rfl, rfl⟩

theorem jetsonEvents_rounds {round : Round} (h : round ∈ roundsOf jetsonEvents) :
    round = ⟨1, jetsonFiles⟩ ∨ round = ⟨2, jetsonFiles⟩ := by
  simpa [roundsOf, jetsonEvents, Event.round, eq_comm] using h

attribute [local instance] Rounding.exact Rounding.exact_exact in
theorem window_phase_bound_sample :
    ∃ w : Window (machine.trace (.construct jetsonBoard) jetsonEvents),
      w.result.socEnergy["VDD_IN"]? = some 7 ∧ |(7 : ℚ) - 7000 * 1 / 1000| ≤ 7000 * (1 / 2) / 1000 := by
  have hend : ∃ result, ((EnergyMonitor.endWindow "epoch" (sampleReads 2 0)).call
        (machine.run (.construct jetsonBoard) (jetsonEvents.take 3))).1 = .ok result ∧
      result.socEnergy["VDD_IN"]? = some 7 := by
    decide +kernel
  obtain ⟨result, hresult, hvalue⟩ := hend
  obtain ⟨w, hw, rfl⟩ := jetsonEvents_window hresult
  obtain ⟨hopen, hclose⟩ := Prod.mk.inj hw
  have hreads : ∀ round ∈ roundsOf jetsonEvents, ∃ p,
      JetsonSoCBackend.sampleRail.readPowerMw (round.sysfs 0) = .ok p ∧ 7000 ≤ p ∧ p ≤ 7000 := by
    intro round hround
    have hfiles : round.sysfs = jetsonFiles := by
      rcases jetsonEvents_rounds hround with rfl | rfl <;> rfl
    rw [hfiles]
    exact ⟨7000, by decide +kernel, le_refl _, le_refl _⟩
  have hfirst : w.roundsBefore.getLast? = some ⟨1, jetsonFiles⟩ := by
    rw [Window.roundsBefore, hopen]
    rfl
  have hlast : (roundsOf (jetsonEvents.take w.closeAt)).getLast? = some ⟨2, jetsonFiles⟩ := by
    rw [hclose]
    rfl
  obtain ⟨energy, henergy, -, -, hconstant⟩ := window_phase_bound jetsonBoard jetsonEvents
    JetsonSoCBackend.sampleRails 0 JetsonSoCBackend.sampleRail 0 7000 7000 (1 / 2) 1 (3 / 2) (5 / 2)
    ⟨1, jetsonFiles⟩ ⟨2, jetsonFiles⟩ rfl rfl (by decide) rfl (by decide +kernel) (by norm_num) hreads w
    hfirst hlast (by norm_num) (by norm_num) (by norm_num)
  obtain rfl : energy = 7 := Option.some.inj (henergy.symm.trans hvalue)
  exact ⟨w, hvalue, hconstant rfl⟩

/-- A constant 1000 mW, read every tenth of a second. -/
def wattFiles (_ : ℕ) : Sysfs := fun _ => some "1000"

def wattBoard : BackendPtrs := { jetson := some (.ofRails [JetsonSoCBackend.sampleRail] 0) }

def wattRound (n : ℕ) : Round := ⟨n / 10, wattFiles⟩

/-- What a window call finds at some tenths of a second. -/
def wattReads (n : ℕ) : Reads := sampleReads (Rounding.binary64.fl (n / 10)) 0

/-- A window from just before the second round to the fourth. -/
def wattEvents : List Event :=
  [.jetsonRound (1 / 10) wattFiles, .beginWindow "step" (wattReads 2), .jetsonRound (2 / 10) wattFiles,
    .jetsonRound (3 / 10) wattFiles, .jetsonRound (4 / 10) wattFiles, .endWindow "step" (wattReads 4)]

attribute [local instance] Rounding.binary64 in
/-- **The bound is not kept to the last digit.** At a constant 1000 mW, with the last round
0.1 s old at the begin, a window of 0.2 s is given 0.30000000000000004 J, more than the
energy of 0.3 s. -/
theorem tenths_past_phase :
    ¬ ∀ (backends : BackendPtrs) (events : List Event) (rails : List PowerRail)
        (start : Double) (rail : PowerRail) (n : ℕ) (lo hi g l openTime closeTime : Double) (first last : Round)
        (w : Window (machine.trace (.construct backends) events)),
      backends.jetson = some (.ofRails rails start) → backends.apple = none →
      (rails.map (·.key)).Nodup → rails[n]? = some rail →
      (start :: (roundsOf events).map Round.now).Pairwise (· ≤ ·) → 0 ≤ lo →
      (∀ round ∈ roundsOf events, ∃ p, rail.readPowerMw (round.sysfs n) = .ok p ∧ lo ≤ p ∧ p ≤ hi) →
      w.roundsBefore.getLast? = some first →
      (roundsOf (events.take w.closeAt)).getLast? = some last →
      openTime - g ≤ first.now ∧ first.now ≤ openTime →
      closeTime - g ≤ last.now ∧ last.now ≤ closeTime → closeTime - openTime = l →
      ∃ energy, w.result.socEnergy[rail.key]? = some energy ∧
        lo * (l - g) / 1000 ≤ energy ∧ energy ≤ hi * (l + g) / 1000 := by
  intro hclaim
  have hend : ∃ result, ((EnergyMonitor.endWindow "step" (wattReads 4)).call
        (machine.run (.construct wattBoard) (wattEvents.take 5))).1 = .ok result ∧
      result.socEnergy["VDD_IN"]? = some (5404319552844596 / 2 ^ 54) := by
    decide +kernel
  obtain ⟨result, hresult, hvalue⟩ := hend
  obtain ⟨w, hw, -, -, rfl⟩ := exists_window
    (show wattEvents[1]? = some (.beginWindow "step" (wattReads 2)) from rfl) rfl (by omega)
    (by intro k e h1 h5 he r; interval_cases k <;> cases he <;> simp) rfl hresult
  obtain ⟨hopen, hclose⟩ := Prod.mk.inj hw
  have hrounds : roundsOf wattEvents = [1, 2, 3, 4].map wattRound := rfl
  have hreads : ∀ round ∈ roundsOf wattEvents,
      ∃ p, JetsonSoCBackend.sampleRail.readPowerMw (round.sysfs 0) = .ok p ∧ 1000 ≤ p ∧ p ≤ 1000 := by
    intro round hround
    rw [hrounds] at hround
    obtain ⟨n, -, rfl⟩ := List.mem_map.mp hround
    exact ⟨1000, by show JetsonSoCBackend.sampleRail.readPowerMw (wattFiles 0) = _; decide +kernel, le_rfl, le_rfl⟩
  have hfirst : w.roundsBefore.getLast? = some (wattRound 1) := by
    rw [Window.roundsBefore, hopen]
    rfl
  have hlast : (roundsOf (wattEvents.take w.closeAt)).getLast? = some (wattRound 4) := by
    rw [hclose]
    rfl
  have htimes : (0 :: (roundsOf wattEvents).map Round.now).Pairwise (· ≤ ·) := by decide +kernel
  obtain ⟨energy, henergy, -, hupper⟩ := hclaim wattBoard wattEvents [JetsonSoCBackend.sampleRail] 0
    JetsonSoCBackend.sampleRail 0 1000 1000 (1 / 10) (2 / 10) (2 / 10) (4 / 10) (wattRound 1) (wattRound 4) w
    rfl rfl (by decide) rfl htimes (by norm_num) hreads hfirst hlast
    (by norm_num [wattRound]) (by norm_num [wattRound]) (by norm_num)
  obtain rfl := Option.some.inj (henergy.symm.trans hvalue)
  norm_num at hupper

/-! ### The SoC total -/

/-- **The SoC total counts the input rail and the rails it feeds.** It is the energy of the
rail `input`, and no more, when each round of the window took no time or read nothing from
any of the other rails. In exact arithmetic it is no more than that energy exactly when the
other rails add up to nothing over these rounds; and, where none of them reads below 0,
exactly when it is for the reason above. -/
theorem total_le_input_iff [Rounding] (backends : BackendPtrs) (events : List Event) (rails : List PowerRail)
    (start : Double) (input : PowerRail) (k : ℕ)
    (hjetson : backends.jetson = some (.ofRails rails start)) (happle : backends.apple = none)
    (hkeys : (rails.map (·.key)).Nodup) (hinput : rails[k]? = some input)
    (w : Window (machine.trace (.construct backends) events)) :
    ((∀ turn ∈ rails.zipIdx.eraseIdx k,
        ∀ step ∈ RightSum.steps (lastTs start w.roundsBefore) (turn.1.readings turn.2 w.roundsInside),
          step.1 = 0 ∨ step.2.getD 0 = 0) →
      w.result.totalSocEnergy ≤ (Source.rail input.key).energy w.result) ∧
    (Exact →
      (w.result.totalSocEnergy ≤ (Source.rail input.key).energy w.result ↔
        othersMj rails k (lastTs start w.roundsBefore) w.roundsInside ≤ 0) ∧
      ((start :: (roundsOf events).map Round.now).Pairwise (· ≤ ·) →
        (∀ turn ∈ rails.zipIdx.eraseIdx k, ∀ round ∈ w.roundsInside, 0 ≤ turn.1.powerMw turn.2 round) →
        (w.result.totalSocEnergy ≤ (Source.rail input.key).energy w.result ↔
          ∀ turn ∈ rails.zipIdx.eraseIdx k,
            ∀ step ∈ RightSum.steps (lastTs start w.roundsBefore) (turn.1.readings turn.2 w.roundsInside),
              step.1 = 0 ∨ step.2.getD 0 = 0))) := by
  constructor
  · intro hidle
    exact (totalSocEnergy_idle hjetson happle hkeys hinput w hidle).le
  · intro _
    have htotal := totalSocEnergy_le hjetson happle hkeys hinput w
    refine ⟨htotal, ?_⟩
    intro htimes hnonneg
    rw [htotal, othersMj, RightSum.sum_nonpos_iff, List.forall_mem_map]
    · apply forall₂_congr
      intro turn hothers
      apply RightSum.total_nonpos_iff (w.inside_steady turn.1 turn.2 htimes)
      exact List.forall_mem_map.mpr (hnonneg turn hothers)
    · rw [List.forall_mem_map]
      intro turn hothers
      apply RightSum.total_nonneg (w.inside_steady turn.1 turn.2 htimes)
      exact List.forall_mem_map.mpr (hnonneg turn hothers)

attribute [local instance] Rounding.exact Rounding.exact_exact in
/-- The rail that the input feeds is counted again: 9 J, of which 7 J came in. -/
theorem total_le_input_iff_sample :
    ∃ w : Window (machine.trace (.construct jetsonBoard) jetsonEvents),
      w.result.totalSocEnergy = 9 ∧ (Source.rail "VDD_IN").energy w.result = 7 ∧
      ¬ w.result.totalSocEnergy ≤ (Source.rail "VDD_IN").energy w.result := by
  have hend : ∃ result, ((EnergyMonitor.endWindow "epoch" (sampleReads 2 0)).call
        (machine.run (.construct jetsonBoard) (jetsonEvents.take 3))).1 = .ok result ∧
      result.totalSocEnergy = 9 ∧ (Source.rail "VDD_IN").energy result = 7 := by
    decide +kernel
  obtain ⟨result, hresult, htotal, hinput⟩ := hend
  obtain ⟨w, hw, rfl⟩ := jetsonEvents_window hresult
  obtain ⟨hbefore, hinside⟩ := jetsonEvents_reads hw
  refine ⟨w, htotal, hinput, ((total_le_input_iff jetsonBoard jetsonEvents JetsonSoCBackend.sampleRails 0
    JetsonSoCBackend.sampleRail 0 rfl rfl (by decide) rfl w).2 Rounding.exact_exact).1.not.mpr ?_⟩
  rw [hbefore, hinside]
  decide +kernel

/-- The other rails draw no more than the input rail supplies, in every round. -/
def Feeds [Rounding] (rails : List PowerRail) (input : PowerRail) (k : ℕ) (rounds : List Round) : Prop :=
  ∀ round ∈ rounds,
    ((rails.zipIdx.eraseIdx k).map fun turn => turn.1.powerMw turn.2 round).sum ≤
      input.powerMw k round

attribute [local instance] Rounding.binary64 in
theorem rails_counted_twice :
    ¬ ∀ (backends : BackendPtrs) (events : List Event) (rails : List PowerRail) (start : Double)
        (input : PowerRail) (k : ℕ) (w : Window (machine.trace (.construct backends) events)),
      backends.jetson = some (.ofRails rails start) → backends.apple = none →
      (rails.map (·.key)).Nodup → rails[k]? = some input →
      (start :: (roundsOf events).map Round.now).Pairwise (· ≤ ·) →
      Feeds rails input k (roundsOf events) →
      w.result.totalSocEnergy ≤ (Source.rail input.key).energy w.result := by
  intro hclaim
  have hend : ∃ result, ((EnergyMonitor.endWindow "epoch" (sampleReads 2 0)).call
        (machine.run (.construct jetsonBoard) (jetsonEvents.take 3))).1 = .ok result ∧
      result.totalSocEnergy = 9 ∧ (Source.rail "VDD_IN").energy result = 7 := by
    decide +kernel
  obtain ⟨result, hresult, htotal, hinput⟩ := hend
  obtain ⟨w, -, rfl⟩ := jetsonEvents_window hresult
  have hle := hclaim jetsonBoard jetsonEvents JetsonSoCBackend.sampleRails 0
    JetsonSoCBackend.sampleRail 0 w rfl rfl (by decide) rfl (by decide +kernel) ?_
  · have hkey : JetsonSoCBackend.sampleRail.key = "VDD_IN" := rfl
    rw [hkey, htotal, hinput] at hle
    exact absurd hle (by norm_num)
  · intro round hround
    obtain rfl | rfl := jetsonEvents_rounds hround
    · decide +kernel
    · decide +kernel

end ZeusPower.Monitor
