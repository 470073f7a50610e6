import ZeusPower.Device.Jetson
import ZeusPower.Library.RightSum

/-! What the Jetson polling thread adds up.

With one accumulator for each rail, a round adds power times elapsed time to the
accumulators of the rails it can read and touches no other (`lookup_pollRound`), so
an accumulator is a right-endpoint sum of its own rail's readings (`lookup_pollRounds`).
The time of a round that fails goes to no later round: a rail at constant power has the
energy of the time since the thread started exactly when no read failed, or there was
no power (`constant_power_iff`). -/
namespace ZeusPower.Device
open Library

/-- A round of the polling thread: its time, and the files as each turn of it finds them. -/
structure Round where
  now : Double
  sysfs : ℕ → Sysfs

/-- What the rounds read from a rail that is visited at turn `n`; a read that throws is
no reading. -/
def PowerRail.readings [Rounding] (rail : PowerRail) (n : ℕ) (rounds : List Round) :
    List (Double × Option Double) :=
  rounds.map fun round => (round.now, (rail.readPowerMw (round.sysfs n)).toOption)

/-- The power (mW) of a round; a read that throws counts for nothing. -/
def PowerRail.powerMw [Rounding] (rail : PowerRail) (n : ℕ) (round : Round) : Double :=
  (rail.readPowerMw (round.sysfs n)).toOption.getD 0

theorem PowerRail.readings_append [Rounding] (rail : PowerRail) (n : ℕ) (xs ys : List Round) :
    rail.readings n (xs ++ ys) = rail.readings n xs ++ rail.readings n ys := List.map_append

/-! ### Times -/

/-- A clock that does not go back. -/
theorem PowerRail.readings_steady [Rounding] (rail : PowerRail) (n : ℕ) {start : Double} {rounds : List Round}
    (h : (start :: rounds.map Round.now).Pairwise (· ≤ ·)) :
    RightSum.Steady start (rail.readings n rounds) := by
  induction rounds generalizing start with
  | nil => trivial
  | cons round rounds ih =>
    obtain ⟨hfirst, hrest⟩ := List.pairwise_cons.mp h
    exact ⟨hfirst round.now List.mem_cons_self, ih hrest⟩

theorem PowerRail.readings_advancing [Rounding] (rail : PowerRail) (n : ℕ) {start : Double} {rounds : List Round}
    (h : (start :: rounds.map Round.now).Pairwise (· < ·)) :
    RightSum.Advancing start (rail.readings n rounds) := by
  induction rounds generalizing start with
  | nil => trivial
  | cons round rounds ih =>
    obtain ⟨hfirst, hrest⟩ := List.pairwise_cons.mp h
    exact ⟨hfirst round.now List.mem_cons_self, ih hrest⟩

/-- The time of the last round. -/
def lastTs (start : Double) (rounds : List Round) : Double :=
  match rounds.getLast? with
  | some last => last.now
  | none => start

theorem PowerRail.lastTime_readings [Rounding] (rail : PowerRail) (n : ℕ) (start : Double) (rounds : List Round) :
    RightSum.lastTime start (rail.readings n rounds) = lastTs start rounds := by
  unfold lastTs
  cases h : rounds.getLast? with
  | none =>
    rw [List.getLast?_eq_none_iff.mp h]
    rfl
  | some last =>
    obtain ⟨earlier, rfl⟩ := List.getLast?_eq_some_iff.mp h
    rw [rail.readings_append, RightSum.lastTime_append]
    rfl

namespace JetsonSoCBackend

/-! ### One round -/

/-- A turn adds what its rail reads, over the time of the round. -/
theorem lookup_accumulate [Rounding] (dt : Double) (sysfs : ℕ → Sysfs) {cumulative : Map String Double}
    {turn : PowerRail × ℕ} {mj : Double} (h : cumulative[turn.1.key]? = some mj) :
    (accumulate dt sysfs cumulative turn)[turn.1.key]? =
      some (RightSum.charge mj dt (turn.1.readPowerMw (sysfs turn.2)).toOption) := by
  unfold accumulate
  dsimp only
  cases turn.1.readPowerMw (sysfs turn.2) with
  | error e => exact h
  | ok powerMw =>
    show (cumulative.insert turn.1.key _)[turn.1.key]? = some (fl (mj + fl (powerMw * dt)))
    rw [Std.ExtTreeMap.getElem?_insert_self, h, Option.getD_some]

/-- A turn leaves the accumulators of the other rails alone. -/
theorem lookup_accumulate_ne [Rounding] (dt : Double) (sysfs : ℕ → Sysfs) (cumulative : Map String Double)
    {turn : PowerRail × ℕ} {key : String} (h : turn.1.key ≠ key) :
    (accumulate dt sysfs cumulative turn)[key]? = cumulative[key]? := by
  unfold accumulate
  dsimp only
  split
  · rfl
  · exact Map.lookup_insert_ne _ _ h

theorem lookup_foldl_accumulate_ne [Rounding] (dt : Double) (sysfs : ℕ → Sysfs) {turns : List (PowerRail × ℕ)}
    (cumulative : Map String Double) {key : String} (h : key ∉ turns.map (·.1.key)) :
    (turns.foldl (accumulate dt sysfs) cumulative)[key]? = cumulative[key]? := by
  induction turns generalizing cumulative with
  | nil => rfl
  | cons turn turns ih =>
    rw [List.map_cons, List.mem_cons, not_or] at h
    rw [List.foldl_cons, ih _ h.2, lookup_accumulate_ne dt sysfs cumulative (Ne.symm h.1)]

theorem lookup_foldl_accumulate [Rounding] (dt : Double) (sysfs : ℕ → Sysfs) {turns : List (PowerRail × ℕ)}
    (hkeys : (turns.map (·.1.key)).Nodup) {turn : PowerRail × ℕ} (hturn : turn ∈ turns)
    {cumulative : Map String Double} {mj : Double} (h : cumulative[turn.1.key]? = some mj) :
    (turns.foldl (accumulate dt sysfs) cumulative)[turn.1.key]? =
      some (RightSum.charge mj dt (turn.1.readPowerMw (sysfs turn.2)).toOption) := by
  induction turns generalizing cumulative with
  | nil => cases hturn
  | cons first turns ih =>
    rw [List.map_cons, List.nodup_cons] at hkeys
    rw [List.foldl_cons]
    by_cases hfirst : turn = first
    · subst hfirst
      rw [lookup_foldl_accumulate_ne dt sysfs _ hkeys.1, lookup_accumulate dt sysfs h]
    · have hlater : turn ∈ turns := (List.mem_cons.mp hturn).resolve_left hfirst
      have hne : first.1.key ≠ turn.1.key := by
        intro hsame
        exact hkeys.1 (hsame ▸ List.mem_map_of_mem hlater)
      exact ih hkeys.2 hlater ((lookup_accumulate_ne dt sysfs cumulative hne).trans h)

variable (b : JetsonSoCBackend) {rail : PowerRail} {n : ℕ}

/-- **A round adds to every rail what that rail reads**, over the time since the round
before, whatever the other rails do. -/
theorem lookup_pollRound [Rounding] (now : Double) (sysfs : ℕ → Sysfs) (hkeys : (b.powerRails.map (·.key)).Nodup)
    (hrail : b.powerRails[n]? = some rail) {mj : Double} (h : b.cumulativeEnergyMj[rail.key]? = some mj) :
    (b.pollRound now sysfs).cumulativeEnergyMj[rail.key]? =
      some (RightSum.charge mj (fl (now - b.prevTs)) (rail.readPowerMw (sysfs n)).toOption) := by
  have hnodup : (b.powerRails.zipIdx.map (·.1.key)).Nodup := by
    show (b.powerRails.zipIdx.map (PowerRail.key ∘ Prod.fst)).Nodup
    rw [← List.map_map, List.zipIdx_map_fst]
    exact hkeys
  have hturn : (rail, n) ∈ b.powerRails.zipIdx := List.mem_zipIdx_iff_getElem?.mpr hrail
  exact lookup_foldl_accumulate _ sysfs hnodup hturn h

/-! ### All rounds -/

def pollRounds [Rounding] (b : JetsonSoCBackend) : List Round → JetsonSoCBackend
  | [] => b
  | round :: rest => (b.pollRound round.now round.sysfs).pollRounds rest

theorem pollRounds_append [Rounding] (xs ys : List Round) :
    b.pollRounds (xs ++ ys) = (b.pollRounds xs).pollRounds ys := by
  induction xs generalizing b with
  | nil => rfl
  | cons round xs ih => exact ih _

theorem powerRails_pollRounds [Rounding] (rounds : List Round) :
    (b.pollRounds rounds).powerRails = b.powerRails := by
  induction rounds generalizing b with
  | nil => rfl
  | cons round rounds ih => exact ih _

theorem lookup_pollRounds [Rounding] (rounds : List Round) (hkeys : (b.powerRails.map (·.key)).Nodup)
    (hrail : b.powerRails[n]? = some rail) {mj : Double} (h : b.cumulativeEnergyMj[rail.key]? = some mj) :
    (b.pollRounds rounds).cumulativeEnergyMj[rail.key]? =
      some (RightSum.accumulated mj b.prevTs (rail.readings n rounds)) := by
  induction rounds generalizing b mj with
  | nil => exact h
  | cons round rounds ih =>
    have hround := b.lookup_pollRound round.now round.sysfs hkeys hrail h
    exact ih (b.pollRound round.now round.sysfs) hkeys hrail hround

/-! ### From the start of the thread -/

theorem lookup_zeroed {rails : List PowerRail} (hrail : rail ∈ rails) :
    (zeroed rails)[rail.key]? = some 0 := by
  have hloop : ∀ (rails : List PowerRail) (m : Map String Double),
      rail ∈ rails ∨ m[rail.key]? = some 0 →
        (rails.foldl (fun m rail => m.insert rail.key 0) m)[rail.key]? = some 0 := by
    intro rails
    induction rails with
    | nil => exact fun m h => h.resolve_left List.not_mem_nil
    | cons first rails ih =>
      intro m h
      apply ih
      rw [List.mem_cons] at h
      by_cases hfirst : first.key = rail.key
      · right
        show (m.insert first.key 0)[rail.key]? = some 0
        rw [hfirst, Std.ExtTreeMap.getElem?_insert_self]
      · obtain (rfl | hlater) | hm := h
        · exact absurd rfl hfirst
        · exact Or.inl hlater
        · exact Or.inr ((Map.lookup_insert_ne m 0 hfirst).trans hm)
  exact hloop rails ∅ (Or.inl hrail)

variable {rails : List PowerRail}

theorem lookup_ofRails [Rounding] (start : Double) (rounds : List Round) (hkeys : (rails.map (·.key)).Nodup)
    (hrail : rails[n]? = some rail) :
    ((ofRails rails start).pollRounds rounds).cumulativeEnergyMj[rail.key]? =
      some (RightSum.accumulated 0 start (rail.readings n rounds)) :=
  (ofRails rails start).lookup_pollRounds rounds hkeys hrail (lookup_zeroed (List.mem_of_getElem? hrail))

/-- In exact arithmetic every accumulator is a right-endpoint sum. -/
theorem total_ofRails [Rounding] [Exact] (start : Double) (rounds : List Round)
    (hkeys : (rails.map (·.key)).Nodup) (hrail : rails[n]? = some rail) :
    ((ofRails rails start).pollRounds rounds).cumulativeEnergyMj[rail.key]? =
      some (RightSum.total start (rail.readings n rounds)) := by
  rw [lookup_ofRails start rounds hkeys hrail, RightSum.accumulated_eq, zero_add]

/-- A snapshot gives every rail its sum in Joules. -/
theorem snapshot_ofRails [Rounding] (start : Double) (rounds : List Round) (hkeys : (rails.map (·.key)).Nodup)
    (hrail : rails[n]? = some rail) :
    ((ofRails rails start).pollRounds rounds).snapshotEnergyJ[rail.key]? =
      some (fl (RightSum.accumulated 0 start (rail.readings n rounds) / 1000)) := by
  rw [snapshotEnergyJ, Map.lookup_overwrite_empty, lookup_ofRails start rounds hkeys hrail]
  rfl

/-! ### Constant power -/

/-- **A failed read loses its interval.** In exact arithmetic, where time goes forward from round to round and
every successful read of a rail is `P`, the rail has accumulated `P` over the whole time
since the thread started exactly when there is no power or no read of it has failed. -/
theorem constant_power_iff [Rounding] [Exact] (rails : List PowerRail) (rail : PowerRail) (n : ℕ)
    (start P : Double)
    (rounds : List Round) (last : Round)
    (hkeys : (rails.map (·.key)).Nodup) (hrail : rails[n]? = some rail)
    (htimes : (start :: rounds.map Round.now).Pairwise (· < ·))
    (hconstant : ∀ round ∈ rounds, ∀ p, rail.readPowerMw (round.sysfs n) = .ok p → p = P)
    (hlast : rounds.getLast? = some last) :
    ((ofRails rails start).pollRounds rounds).cumulativeEnergyMj[rail.key]? =
        some (P * (last.now - start)) ↔
      P = 0 ∨ ∀ round ∈ rounds, ∃ p, rail.readPowerMw (round.sysfs n) = .ok p := by
  have hreadings : ∀ reading ∈ rail.readings n rounds, ∀ v, reading.2 = some v → v = P := by
    intro reading hreading v hv
    obtain ⟨round, hround, rfl⟩ := List.mem_map.mp hreading
    apply hconstant round hround
    cases hp : rail.readPowerMw (round.sysfs n) with
    | error e => simp [hp, Except.toOption] at hv
    | ok p => simpa [hp, Except.toOption] using hv
  have hmissed : RightSum.missed start (rail.readings n rounds) = 0 ↔
      ∀ round ∈ rounds, ∃ p, rail.readPowerMw (round.sysfs n) = .ok p := by
    rw [RightSum.missed_eq_zero_iff (rail.readings_advancing n htimes), PowerRail.readings,
      List.forall_mem_map]
    apply forall₂_congr
    intro round _
    cases rail.readPowerMw (round.sysfs n) with
    | error e => simp [Except.toOption]
    | ok p => simp [Except.toOption]
  rw [total_ofRails start rounds hkeys hrail, RightSum.total_constant start hreadings,
    rail.lastTime_readings n start, lastTs, hlast, ← hmissed, Option.some.injEq, mul_eq_mul_left_iff, or_comm]
  exact or_congr_right sub_eq_self

/-- The rail of a sample board, and what a sensor at 5 W says of it. -/
def sampleRail : PowerRail := ⟨"VDD_IN", .directPower, "in1_power", "", ""⟩

/-- A board on which it feeds a second rail. -/
def sampleRails : List PowerRail := [sampleRail, ⟨"VDD_SOC", .directPower, "in2_power", "", ""⟩]

attribute [local instance] Rounding.exact Rounding.exact_exact in
theorem constant_power_iff_sample :
    ((ofRails [sampleRail] 0).pollRounds
        [⟨1, fun _ _ => some "5000"⟩, ⟨3, fun _ _ => some "5000"⟩]).cumulativeEnergyMj["VDD_IN"]? =
      some (5000 * (3 - 0)) := by
  have hread : sampleRail.readPowerMw (fun _ => some "5000") = .ok 5000 := by decide +kernel
  have hreads : ∀ round ∈ [(⟨1, fun _ _ => some "5000"⟩ : Round), ⟨3, fun _ _ => some "5000"⟩],
      sampleRail.readPowerMw (round.sysfs 0) = .ok 5000 := by
    intro round hround
    obtain rfl | rfl : round = ⟨1, fun _ _ => some "5000"⟩ ∨ round = ⟨3, fun _ _ => some "5000"⟩ := by
      simpa using hround
    · exact hread
    · exact hread
  refine (constant_power_iff [sampleRail] sampleRail 0 0 5000 _ _ (by decide) rfl (by decide +kernel)
    ?_ rfl).mpr (Or.inr fun round hround => ⟨5000, hreads round hround⟩)
  intro round hround p hp
  exact Except.ok.inj (hp.symm.trans (hreads round hround))

attribute [local instance] Rounding.binary64 in
/-- A steady 5 W of which the first round reads nothing: the second round charges it for
its own second only. -/
theorem outage_loses_energy :
    ((ofRails [sampleRail] 0).pollRounds
        [⟨1, fun _ _ => none⟩, ⟨2, fun _ _ => some "5000"⟩]).cumulativeEnergyMj["VDD_IN"]? = some 5000 ∧
    ¬ ∀ (rails : List PowerRail) (rail : PowerRail) (n : ℕ) (start P : Double) (rounds : List Round)
        (last : Round), (rails.map (·.key)).Nodup → rails[n]? = some rail →
      (start :: rounds.map Round.now).Pairwise (· < ·) →
      (∀ round ∈ rounds, ∀ p, rail.readPowerMw (round.sysfs n) = .ok p → p = P) →
      rounds.getLast? = some last → rail.readPowerMw (last.sysfs n) = .ok P →
      ((ofRails rails start).pollRounds rounds).cumulativeEnergyMj[rail.key]? =
        some (P * (last.now - start)) := by
  have hread : sampleRail.readPowerMw (fun _ => some "5000") = .ok 5000 := by decide +kernel
  have hvalue : ((ofRails [sampleRail] 0).pollRounds
      [⟨1, fun _ _ => none⟩, ⟨2, fun _ _ => some "5000"⟩]).cumulativeEnergyMj["VDD_IN"]? = some 5000 := by
    decide +kernel
  refine ⟨hvalue, fun hclaim => ?_⟩
  have hkept := hclaim [sampleRail] sampleRail 0 0 5000
    [⟨1, fun _ _ => none⟩, ⟨2, fun _ _ => some "5000"⟩] ⟨2, fun _ _ => some "5000"⟩
    (by decide) rfl (by decide +kernel) ?_ rfl hread
  · have hdouble : (5000 : Double) = 5000 * (2 - 0) := Option.some.inj (hvalue.symm.trans hkept)
    norm_num at hdouble
  · intro round hround p hp
    obtain rfl | rfl : round = ⟨1, fun _ _ => none⟩ ∨ round = ⟨2, fun _ _ => some "5000"⟩ := by
      simpa using hround
    · cases hp
    · exact Except.ok.inj (hp.symm.trans hread)

end JetsonSoCBackend

end ZeusPower.Device
