import Mathlib.Tactic.LinearCombination
import ZeusPower.Basic
import ZeusPower.Library.Machine

/-! RAPL energy counters (`RAPLFile` and `RaplWraparoundTracker` in `zeus/device/cpu/rapl.py`).

The kernel's file of a package counts microjoules and starts over at `max_energy_range_uj`
(`StartsOver`). A process of its own reads the file now and then and counts how often it has
become smaller, in a shared C `int`; who reads the energy reads the file, then that count, and
waits for nobody. So package, process and reader go on in any order (`Event`): a read can come
before the process has read at all, and can meet a count that is behind the file or ahead of it.

`read_error` says by how much a read is off: by one range for every start-over before the read
of the file that the process has not counted, or the other way. -/
namespace ZeusPower.Reference.Rapl
open Library

/-- Where the process is. A reading is named by the energy consumed until then; the process
sees what the file shows of it. -/
inductive PollingProcess where
  | starting
  | polling (lastEnergyUj : ℕ)
  | comparing (lastEnergyUj energyUj : ℕ)
  deriving DecidableEq, Repr

structure State where
  energyUj : ℕ
  process : PollingProcess
  /-- `Value("i", 0)`. -/
  wraparoundCounter : BitVec 32
  deriving DecidableEq, Repr

/-- The package consumes energy, or the process goes a step on, as far as its next sleep lets it. -/
inductive Event where
  | consume (uj : ℕ)
  | poll
  deriving DecidableEq, Repr

section Model
variable (file : ℕ → ℕ) (maxEnergyRangeUj : ℕ)

/-- One turn of `_polling_process`: a read of the file, or the comparison with the read before. -/
def pollingProcess [Rounding] (s : State) : State :=
  match s.process with
  | .starting => { s with process := .polling s.energyUj }
  | .polling last => { s with process := .comparing last s.energyUj }
  | .comparing last now =>
    { s with
      process := .polling now
      wraparoundCounter :=
        if fl (file now) < fl (file last) then s.wraparoundCounter + 1 else s.wraparoundCounter }

def machine [Rounding] : Machine State Event Unit where
  step s
    | .consume uj => ((), { s with energyUj := s.energyUj + uj })
    | .poll => ((), pollingProcess file s)

/-- `RAPLFile.read`, in millijoules: the file is read in one state, the count in a later one. -/
def read [Rounding] (reading count : State) : Double :=
  let newEnergyUj := fl (file reading.energyUj)
  let numWraparounds : ℤ := count.wraparoundCounter.toInt
  fl (fl (newEnergyUj + fl (fl numWraparounds * fl maxEnergyRangeUj)) / 1000)

/-- What the kernel's file shows of the energy consumed. -/
def StartsOver : Prop := ∀ energyUj, file energyUj = energyUj % maxEnergyRangeUj

/-- From its first read on, the process reads the file before a whole range is consumed. -/
def Timely [Rounding] (s : State) (events : List Event) : Prop :=
  ∀ x ∈ (machine file).trace s events, x.event = .poll →
    ∀ last, x.before.process = .polling last → x.before.energyUj < last + maxEnergyRangeUj

end Model

/-- The last reading that has been compared. -/
def State.compared (s : State) : ℕ :=
  match s.process with
  | .starting => s.energyUj
  | .polling last => last
  | .comparing last _ => last

/-- The process is about to start. -/
def State.begun (origin : ℕ) : State := ⟨origin, .starting, 0⟩

/-- The energy at the first read of the process, if it gets to one. -/
def firstRead (energyUj : ℕ) : List Event → ℕ
  | [] => energyUj
  | .consume uj :: rest => firstRead (energyUj + uj) rest
  | .poll :: _ => energyUj

section Runs
variable {file : ℕ → ℕ} {range origin first : ℕ} {s : State} {events : List Event}

/-- The count is right so far: of the start-overs from the first reading to the last, and with
`d` more to the one that is compared next. -/
inductive Tracked (range : ℕ) : ℕ → State → Prop where
  | starting (energyUj : ℕ) : Tracked range energyUj ⟨energyUj, .starting, 0⟩
  | polling (first last more wraps : ℕ) (h : wraps + first / range = last / range) :
    Tracked range first ⟨last + more, .polling last, BitVec.ofNat 32 wraps⟩
  | comparing (first last d more wraps : ℕ) (h : wraps + first / range = last / range) (hd : d < range) :
    Tracked range first ⟨last + d + more, .comparing last (last + d), BitVec.ofNat 32 wraps⟩

/-- A file that has become smaller has started over once, if it has not counted a whole range. -/
theorem wrap_iff (hfile : StartsOver file range) (last d : ℕ) (hd : d < range) :
    (last + d) / range = last / range + if file (last + d) < file last then 1 else 0 := by
  have hpos : 0 < range := by omega
  rw [hfile, hfile, Nat.add_div hpos, Nat.add_mod, Nat.div_eq_of_lt hd, Nat.mod_eq_of_lt hd, Nat.add_zero]
  have hlast := Nat.mod_lt last hpos
  congr 1
  split
  · next hover =>
    rw [Nat.mod_eq_sub_mod hover, Nat.mod_eq_of_lt (by omega), if_pos (by omega)]
  · next hunder =>
    rw [Nat.mod_eq_of_lt (not_le.mp hunder), if_neg (by omega)]

theorem Tracked.count (h : Tracked range first s) :
    ∃ wraps, s.wraparoundCounter = BitVec.ofNat 32 wraps ∧ wraps + first / range = s.compared / range := by
  cases h with
  | starting => exact ⟨0, rfl, Nat.zero_add _⟩
  | polling last more wraps hwraps => exact ⟨wraps, rfl, hwraps⟩
  | comparing last d more wraps hwraps hd => exact ⟨wraps, rfl, hwraps⟩

section Exact
variable [Rounding] [Exact]

theorem Tracked.next (hfile : StartsOver file range) (h : Tracked range first s)
    (hstarted : s.process ≠ .starting) (e : Event)
    (htimely : e = .poll → ∀ last, s.process = .polling last → s.energyUj < last + range) :
    Tracked range first ((machine file).next s e) ∧ ((machine file).next s e).process ≠ .starting := by
  cases h with
  | starting => exact absurd rfl hstarted
  | polling last more wraps hwraps =>
    cases e with
    | consume uj =>
      have hmore := Tracked.polling first last (more + uj) wraps hwraps
      rw [← Nat.add_assoc] at hmore
      exact ⟨hmore, nofun⟩
    | poll =>
      have hless := htimely rfl last rfl
      dsimp only at hless
      exact ⟨.comparing first last more 0 wraps hwraps (by omega), nofun⟩
  | comparing last d more wraps hwraps hd =>
    cases e with
    | consume uj =>
      have hmore := Tracked.comparing first last d (more + uj) wraps hwraps hd
      rw [← Nat.add_assoc] at hmore
      exact ⟨hmore, nofun⟩
    | poll =>
      refine ⟨?_, nofun⟩
      have hwrap := wrap_iff hfile last d hd
      have hsame : fl (file (last + d) : ℕ) < fl (file last : ℕ) ↔ file (last + d) < file last := by
        rw [Exact.fl_eq, Exact.fl_eq, Nat.cast_lt]
      show Tracked range first ⟨_, _, if fl (file (last + d) : ℕ) < fl (file last : ℕ) then _ else _⟩
      by_cases hless : file (last + d) < file last
      · rw [if_pos hless] at hwrap
        rw [if_pos (hsame.mpr hless)]
        have hcounted : Tracked range first
            ⟨last + d + more, .polling (last + d), BitVec.ofNat 32 (wraps + 1)⟩ :=
          .polling first (last + d) more (wraps + 1) (by omega)
        rw [BitVec.ofNat_add] at hcounted
        exact hcounted
      · rw [if_neg hless] at hwrap
        rw [if_neg (hsame.not.mpr hless)]
        exact .polling first (last + d) more wraps (by omega)

theorem Tracked.run (hfile : StartsOver file range) (h : Tracked range first s)
    (hstarted : s.process ≠ .starting) (htimely : Timely file range s events) :
    Tracked range first ((machine file).run s events) := by
  induction events generalizing s with
  | nil => exact h
  | cons e rest ih =>
    obtain ⟨hnext, hstarted'⟩ := h.next hfile hstarted e fun he => htimely _ List.mem_cons_self he
    exact ih hnext hstarted' fun x hx => htimely x (List.mem_cons_of_mem _ hx)

/-- Before its first read the process has counted nothing, and it counts from that read on. -/
theorem tracked_run (hfile : StartsOver file range) (htimely : Timely file range (.begun origin) events) :
    Tracked range (firstRead origin events) ((machine file).run (.begun origin) events) := by
  induction events generalizing origin with
  | nil => exact .starting origin
  | cons e rest ih =>
    have hrest : Timely file range ((machine file).next (.begun origin) e) rest :=
      fun x hx => htimely x (List.mem_cons_of_mem _ hx)
    cases e with
    | consume uj => exact ih hrest
    | poll =>
      have hfirst : Tracked range origin ((machine file).next (.begun origin) .poll) :=
        .polling origin origin 0 0 (Nat.zero_add _)
      have hrun := hfirst.run hfile nofun hrest
      exact hrun

omit [Exact] in
theorem energy_le_run (events : List Event) : s.energyUj ≤ ((machine file).run s events).energyUj := by
  induction events generalizing s with
  | nil => exact Nat.le_refl _
  | cons e rest ih =>
    refine Nat.le_trans ?_ ih
    cases e with
    | consume uj => exact Nat.le_add_right _ _
    | poll =>
      show s.energyUj ≤ (pollingProcess file s).energyUj
      unfold pollingProcess
      split <;> exact Nat.le_refl _

/-- **How far a read is off**, in every order of package, process and reader and in exact
arithmetic: by a range for each start-over that the read of the file has seen and the count has
not, or the other way. The process has counted the start-overs from its first reading to the
last one it has compared, as far as 32 bits hold them; a read is right exactly when these are
as many as those from `origin` to the read of the file. -/
theorem read_error {a b : List Event} (hrange : 0 < range) (hfile : StartsOver file range)
    (htimely : Timely file range (.begun origin) (a ++ b)) :
    let reading := (machine file).run (.begun origin) a
    let count := (machine file).run reading b
    let counted : ℕ := count.compared / range - firstRead origin (a ++ b) / range
    let startOvers : ℕ := reading.energyUj / range - origin / range
    let consumed : Double := reading.energyUj - (origin / range : ℕ) * range
    (counted < 2 ^ 31 → count.wraparoundCounter.toInt = counted) ∧
      read file range reading count =
        (consumed + (((BitVec.ofNat 32 counted).toInt - startOvers : ℤ) : Double) * range) / 1000 ∧
      (read file range reading count = consumed / 1000 ↔ (BitVec.ofNat 32 counted).toInt = startOvers) := by
  intro reading count counted startOvers consumed
  have htracked : Tracked range (firstRead origin (a ++ b)) count := by
    have hrun := tracked_run hfile htimely
    rwa [Machine.run_append] at hrun
  obtain ⟨wraps, hwraps, hcompared⟩ := htracked.count
  obtain rfl : wraps = counted := by omega
  have horigin : origin / range ≤ reading.energyUj / range := Nat.div_le_div_right (energy_le_run (s := .begun origin) a)
  have herror : read file range reading count =
      (consumed + (((BitVec.ofNat 32 counted).toInt - startOvers : ℤ) : Double) * range) / 1000 := by
    have hmod : range * (reading.energyUj / range) + file reading.energyUj = reading.energyUj := by
      rw [hfile]
      exact Nat.div_add_mod _ _
    have hmod' : (range : Double) * (reading.energyUj / range : ℕ) + file reading.energyUj = reading.energyUj := by
      exact_mod_cast hmod
    have hconsumed : consumed = reading.energyUj - (origin / range : ℕ) * range := rfl
    have hstartOvers : ((startOvers : ℤ) : Double) = (reading.energyUj / range : ℕ) - (origin / range : ℕ) := by
      rw [Int.cast_natCast, ← Nat.cast_sub horigin]
    simp only [read, Exact.fl_eq, hwraps]
    rw [Int.cast_sub, hstartOvers, hconsumed]
    linear_combination hmod' / 1000
  refine ⟨fun hless => ?_, herror, ?_⟩
  · rw [hwraps]
    have hnat : (BitVec.ofNat 32 counted).toNat = counted := Nat.mod_eq_of_lt (by omega)
    rw [BitVec.toInt_eq_toNat_of_lt (by omega), hnat]
  · have hne : (range : Double) ≠ 0 := by exact_mod_cast hrange.ne'
    rw [herror]
    constructor
    · intro h
      have hzero : (((BitVec.ofNat 32 counted).toInt - startOvers : ℤ) : Double) * range = 0 := by
        linear_combination 1000 * h
      have hsame := Int.cast_eq_zero.mp ((mul_eq_zero.mp hzero).resolve_right hne)
      omega
    · intro h
      rw [h, sub_self, Int.cast_zero, zero_mul, add_zero]

end Exact

end Runs

/-- A file of ten microjoules. -/
def sampleFile (energyUj : ℕ) : ℕ := energyUj % 10

attribute [local instance] Rounding.exact Rounding.exact_exact in
/-- The file starts over and the process has not compared it yet: the read is a range short. -/
theorem read_error_sample :
    let reading := (machine sampleFile).run (.begun 3) [.poll, .consume 8]
    let count := (machine sampleFile).run reading [.poll]
    read sampleFile 10 reading count = 1 / 1000 ∧ (reading.energyUj : ℚ) - (3 / 10 : ℕ) * (10 : ℕ) = 11 ∧
      ¬ read sampleFile 10 reading count = (reading.energyUj - (3 / 10 : ℕ) * (10 : ℕ)) / 1000 := by
  have htimely : Timely sampleFile 10 (.begun 3) ([.poll, .consume 8] ++ [.poll]) := by
    intro x hx hpoll last hlast
    rcases List.mem_cons.mp hx with rfl | hx
    · cases hlast
    rcases List.mem_cons.mp hx with rfl | hx
    · cases hpoll
    · obtain rfl := List.mem_singleton.mp hx
      obtain rfl := PollingProcess.polling.inj hlast
      decide
  intro reading count
  refine ⟨by decide +kernel, by decide +kernel, ?_⟩
  exact (read_error (by decide) (fun _ => rfl) htimely).2.2.not.mpr (by decide +kernel)

end ZeusPower.Reference.Rapl
