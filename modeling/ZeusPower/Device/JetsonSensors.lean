import ZeusPower.Device.JetsonRounds
import ZeusPower.Library.Decimal

/-! What a Jetson rail makes of the texts of its sensor files.

A sensor says a number if its file can be opened and holds one, between white space
(`Says`). The extraction finds every such number (`extractDouble_written`), but it also
returns something where there is none: 0 for a text that begins with no number, and the
number a text begins with whatever follows. So a rail reports every unreadable sensor,
to each of its callers, exactly if none of its files holds something else
(`reports_unreadable_iff`). -/
namespace ZeusPower.Device
open Library

namespace Sysfs

/-! ### Extracting a number -/

/-- White space is no part of a number. -/
theorem not_space {c d : Char} (hc : isSpace c = true) (hd : 32 < d.toNat) : c ≠ d := by
  intro heq
  subst heq
  simp only [isSpace, Bool.or_eq_true, beq_iff_eq, Bool.and_eq_true, decide_eq_true_eq] at hc
  omega

theorem not_digit_of_space {c : Char} (hc : isSpace c = true) : c.isDigit = false := by
  rw [Bool.eq_false_iff]
  intro hdigit
  exact not_space hc (d := c) (by have := (Decimal.isDigit_iff.mp hdigit).1; omega) rfl

/-- The sign, in front of a text that begins with none. -/
theorem takeSign_signText (sign : Option Bool) {rest : List Char}
    (hrest : ∀ c, rest.head? = some c → c ≠ '-' ∧ c ≠ '+') :
    takeSign (Decimal.signText sign ++ rest) = (decide (sign = some true), rest) := by
  match sign with
  | some true => rfl
  | some false => rfl
  | none =>
    rw [Decimal.signText, List.nil_append]
    unfold takeSign
    split
    next => exact absurd rfl (hrest '-' rfl).1
    next => exact absurd rfl (hrest '+' rfl).2
    next => rfl

theorem digit_no_sign {c : Char} (hc : c.isDigit = true) : c ≠ '-' ∧ c ≠ '+' := by
  have hrange := Decimal.isDigit_iff.mp hc
  constructor
  · intro heq
    rw [heq] at hrange
    exact absurd hrange.1 (by decide)
  · intro heq
    rw [heq] at hrange
    exact absurd hrange.1 (by decide)

/-- A point and the digits after it, if the text begins with a point. -/
def takeFraction : List Char → List Char × List Char
  | '.' :: rest => (rest.takeWhile Char.isDigit, rest.dropWhile Char.isDigit)
  | text => ([], text)

/-- The extraction in four pieces: sign, digits, fraction and exponent. -/
theorem extractDouble_eq [Rounding] (text : List Char) :
    extractDouble text =
      let signed := takeSign (text.dropWhile isSpace)
      let whole := signed.2.takeWhile Char.isDigit
      let fraction := takeFraction (signed.2.dropWhile Char.isDigit)
      if whole.isEmpty && fraction.1.isEmpty then none
      else (extractExponent fraction.2).bind fun scale =>
        let magnitude := (digitsValue (whole ++ fraction.1) : Double) / 10 ^ fraction.1.length * scale
        some (fl (if signed.1 then -magnitude else magnitude)) := rfl

section Numeral
variable (x : Decimal.Numeral) {trail : List Char} (htrail : ∀ c ∈ trail, isSpace c = true)
include htrail

theorem head_trail {c : Char} (h : trail.head? = some c) : isSpace c = true :=
  htrail c (List.mem_of_head? h)

theorem extractExponent_text :
    extractExponent (x.exponentText ++ trail) = some x.scale := by
  unfold Decimal.Numeral.exponentText Decimal.Numeral.scale
  cases x.exponent with
  | none =>
    cases trail with
    | nil => rfl
    | cons c rest =>
      have hspace := htrail c List.mem_cons_self
      have hletter : ¬ (c = 'e' ∨ c = 'E') := fun h =>
        h.elim (not_space hspace (by decide)) (not_space hspace (by decide))
      exact if_neg hletter
  | some e =>
    have hdigits : (e.digits ++ trail).takeWhile Char.isDigit = e.digits :=
      Decimal.takeWhile_run e.isDigits fun c hc => not_digit_of_space (head_trail htrail hc)
    have hsign : takeSign (Decimal.signText e.sign ++ (e.digits ++ trail)) =
        (decide (e.sign = some true), e.digits ++ trail) := by
      apply takeSign_signText
      intro c hc
      cases hd : e.digits with
      | nil => exact absurd hd e.someDigit
      | cons d rest =>
        rw [hd] at hc
        obtain rfl := Option.some.inj hc
        exact digit_no_sign (e.isDigits d (hd ▸ List.mem_cons_self))
    show extractExponent (e.letter :: (Decimal.signText e.sign ++ e.digits ++ trail)) = _
    rw [List.append_assoc]
    unfold extractExponent
    dsimp only
    rw [if_pos e.isLetter, hsign]
    dsimp only
    rw [hdigits, if_neg (by simpa [List.isEmpty_iff] using e.someDigit)]
    simp only [decide_eq_true_eq]
    rfl

theorem takeFraction_text : takeFraction (x.fractionText ++ (x.exponentText ++ trail)) =
    (x.fraction.getD [], x.exponentText ++ trail) := by
  have hends : ∀ c, (x.exponentText ++ trail).head? = some c → c.isDigit = false ∧ c ≠ '.' := by
    intro c hc
    rcases Decimal.head_exponent hc with rfl | rfl | htail
    · exact ⟨by decide, by decide⟩
    · exact ⟨by decide, by decide⟩
    · have hspace := head_trail htrail htail
      exact ⟨not_digit_of_space hspace, not_space hspace (by decide)⟩
  unfold Decimal.Numeral.fractionText
  cases hfraction : x.fraction with
  | none =>
    rw [Option.getD_none]
    show takeFraction (x.exponentText ++ trail) = _
    unfold takeFraction
    split
    next rest hpoint => exact absurd rfl (hends '.' (by rw [hpoint]; rfl)).2
    next => rfl
  | some digits =>
    have hdigits : ∀ c ∈ digits, c.isDigit = true := by
      intro c hc
      apply x.fractionDigits
      rw [hfraction]
      exact hc
    show ((digits ++ (x.exponentText ++ trail)).takeWhile Char.isDigit,
      (digits ++ (x.exponentText ++ trail)).dropWhile Char.isDigit) = _
    rw [Decimal.takeWhile_run hdigits fun c hc => (hends c hc).1,
      Decimal.dropWhile_run hdigits fun c hc => (hends c hc).1]
    rfl

/-- A numeral at the front of a text is extracted whole. -/
theorem extractDouble_text [Rounding] : extractDouble (x.text ++ trail) = some (fl x.value) := by
  have hmantissa : ∀ c, (x.whole ++ (x.fractionText ++ (x.exponentText ++ trail))).head? = some c →
      isSpace c = false ∧ c ≠ '-' ∧ c ≠ '+' := by
    intro c hc
    rcases Decimal.head_mantissa hc with hdigit | rfl
    · refine ⟨?_, digit_no_sign hdigit⟩
      rw [Bool.eq_false_iff]
      intro hspace
      rw [not_digit_of_space hspace] at hdigit
      cases hdigit
    · exact ⟨by decide, by decide, by decide⟩
  have htext : x.text ++ trail =
      Decimal.signText x.sign ++ (x.whole ++ (x.fractionText ++ (x.exponentText ++ trail))) := by
    simp only [Decimal.Numeral.text, List.append_assoc]
  have hskip : (x.text ++ trail).dropWhile isSpace = x.text ++ trail := by
    apply Decimal.dropWhile_of_head
    intro c hc
    rw [htext] at hc
    match hsign : x.sign with
    | none =>
      rw [hsign] at hc
      exact (hmantissa c hc).1
    | some true =>
      rw [hsign] at hc
      obtain rfl := Option.some.inj hc
      decide
    | some false =>
      rw [hsign] at hc
      obtain rfl := Option.some.inj hc
      decide
  have hafter : ∀ c, (x.fractionText ++ (x.exponentText ++ trail)).head? = some c → c.isDigit = false := by
    intro c hc
    rcases Decimal.head_fraction hc with rfl | rfl | rfl | htail
    · decide
    · decide
    · decide
    · exact not_digit_of_space (head_trail htrail htail)
  rw [extractDouble_eq, hskip, htext, takeSign_signText x.sign fun c hc => (hmantissa c hc).2]
  dsimp only
  rw [Decimal.takeWhile_run x.wholeDigits hafter, Decimal.dropWhile_run x.wholeDigits hafter,
    takeFraction_text x htrail, extractExponent_text x htrail]
  have hsome : (x.whole.isEmpty && (x.fraction.getD []).isEmpty) = false := by
    have hne := x.someDigit
    rw [Bool.eq_false_iff]
    intro hempty
    rw [Bool.and_eq_true, List.isEmpty_iff, List.isEmpty_iff] at hempty
    rw [hempty.1, hempty.2] at hne
    exact hne rfl
  simp only [hsome, Bool.false_eq_true, if_false, Option.bind_some, decide_eq_true_eq]
  rfl

end Numeral

/-- **Every number is found**: white space around a numeral does not matter. -/
theorem extractDouble_written [Rounding] {text : List Char} {v : ℚ} (h : Decimal.Written isSpace text v) :
    extractDouble text = some (fl v) := by
  obtain ⟨lead, trail, x, rfl, hlead, htrail, rfl⟩ := h
  have hskip : extractDouble (lead ++ (x.text ++ trail)) = extractDouble (x.text ++ trail) := by
    rw [extractDouble_eq, extractDouble_eq, List.dropWhile_append_of_pos hlead]
  rw [hskip]
  exact extractDouble_text x htrail

/-! ### Sensor files -/

/-- The file can be opened and holds a number, for which `v` stands. -/
def Says [Rounding] (sysfs : Sysfs) (path : String) (v : Double) : Prop :=
  ∃ text x, sysfs path = some text ∧ Decimal.Written isSpace text.toList x ∧ fl x = v

theorem readDouble_says [Rounding] {sysfs : Sysfs} {path : String} {v : Double} (h : sysfs.Says path v) :
    sysfs.readDouble path = .ok v := by
  obtain ⟨text, x, htext, hx, rfl⟩ := h
  unfold readDouble
  rw [htext]
  dsimp only
  rw [extractDouble_written hx, Option.getD_some]

theorem readDouble_closed [Rounding] {sysfs : Sysfs} {path : String} (h : sysfs path = none) :
    sysfs.readDouble path = .error (.cannotReadSysfs path) := by
  unfold readDouble
  rw [h]

/-- A file that can be opened always gives some number. -/
theorem readDouble_open [Rounding] {sysfs : Sysfs} {path : String} (h : sysfs path ≠ none) :
    ∃ v, sysfs.readDouble path = .ok v := by
  unfold readDouble
  cases htext : sysfs path with
  | none => exact absurd htext h
  | some text => exact ⟨_, rfl⟩

end Sysfs

/-! ### Rails -/

namespace PowerRail
variable {rail : PowerRail} {sysfs : Sysfs}

/-- The files a rail reads, in order. -/
def files (rail : PowerRail) : List String :=
  match rail.strategy with
  | .directPower => [rail.powerPath]
  | .voltageCurrentProduct => [rail.voltagePath, rail.currentPath]

/-- Every sensor of the rail says a number, and these make a power of `p` mW. -/
def Draws [Rounding] (rail : PowerRail) (sysfs : Sysfs) (p : Double) : Prop :=
  match rail.strategy with
  | .directPower => sysfs.Says rail.powerPath p
  | .voltageCurrentProduct =>
    ∃ v c, sysfs.Says rail.voltagePath v ∧ sysfs.Says rail.currentPath c ∧ p = fl (fl (v * c) / 1000)

attribute [local instance] Rounding.binary64 in
example : JetsonSoCBackend.sampleRail.Draws (fun _ => some " 5000\n") 5000 :=
  ⟨_, 5000, rfl, ⟨[' '], ['\n'],
    ⟨none, "5000".toList, none, none, List.all_eq_true.mp (by decide +kernel), List.forall_mem_nil _,
      by decide +kernel⟩,
    by decide +kernel, List.all_eq_true.mp rfl, List.all_eq_true.mp rfl, by decide +kernel⟩, by decide +kernel⟩

/-- None of the files holds something that is not a number, or one of them cannot be
opened. -/
def Reports [Rounding] (rail : PowerRail) (sysfs : Sysfs) : Prop :=
  (∃ path ∈ rail.files, sysfs path = none) ∨ ∀ path ∈ rail.files, ∃ v, sysfs.Says path v

theorem files_of_draws [Rounding] {p : Double} (h : rail.Draws sysfs p) :
    ∀ path ∈ rail.files, ∃ v, sysfs.Says path v := by
  unfold Draws at h
  unfold files
  cases hstrategy : rail.strategy with
  | directPower =>
    rw [hstrategy] at h
    exact List.forall_mem_singleton.mpr ⟨p, h⟩
  | voltageCurrentProduct =>
    rw [hstrategy] at h
    obtain ⟨v, c, hv, hc, -⟩ := h
    exact List.forall_mem_cons.mpr ⟨⟨v, hv⟩, List.forall_mem_singleton.mpr ⟨c, hc⟩⟩

theorem draws_of_files [Rounding] (h : ∀ path ∈ rail.files, ∃ v, sysfs.Says path v) : ∃ p, rail.Draws sysfs p := by
  unfold files at h
  unfold Draws
  cases hstrategy : rail.strategy with
  | directPower =>
    rw [hstrategy] at h
    exact h rail.powerPath List.mem_cons_self
  | voltageCurrentProduct =>
    rw [hstrategy] at h
    obtain ⟨⟨v, hv⟩, hrest⟩ := List.forall_mem_cons.mp h
    obtain ⟨c, hc⟩ := List.forall_mem_singleton.mp hrest
    exact ⟨_, v, c, hv, hc, rfl⟩

/-- What the sensors say is what the rail reads. -/
theorem readPowerMw_draws [Rounding] {p : Double} (h : rail.Draws sysfs p) : rail.readPowerMw sysfs = .ok p := by
  unfold Draws at h
  unfold readPowerMw
  cases hstrategy : rail.strategy with
  | directPower =>
    rw [hstrategy] at h
    exact Sysfs.readDouble_says h
  | voltageCurrentProduct =>
    rw [hstrategy] at h
    obtain ⟨v, c, hv, hc, rfl⟩ := h
    dsimp only
    rw [Sysfs.readDouble_says hv, Sysfs.readDouble_says hc]
    rfl

theorem readPowerMw_closed [Rounding] (h : ∃ path ∈ rail.files, sysfs path = none) :
    ∃ e, rail.readPowerMw sysfs = .error e := by
  obtain ⟨path, hpath, hclosed⟩ := h
  unfold files at hpath
  unfold readPowerMw
  cases hstrategy : rail.strategy with
  | directPower =>
    rw [hstrategy] at hpath
    obtain rfl := List.mem_singleton.mp hpath
    exact ⟨_, Sysfs.readDouble_closed hclosed⟩
  | voltageCurrentProduct =>
    rw [hstrategy] at hpath
    dsimp only
    cases hv : sysfs.readDouble rail.voltagePath with
    | error e => exact ⟨e, rfl⟩
    | ok v =>
      rcases List.mem_cons.mp hpath with rfl | hpath
      · rw [Sysfs.readDouble_closed hclosed] at hv
        cases hv
      · obtain rfl := List.mem_singleton.mp hpath
        rw [Sysfs.readDouble_closed hclosed]
        exact ⟨_, rfl⟩

/-- Where every file can be opened the rail reads some power, number or not. -/
theorem readPowerMw_open [Rounding] (h : ¬ ∃ path ∈ rail.files, sysfs path = none) :
    ∃ p, rail.readPowerMw sysfs = .ok p := by
  have hopen : ∀ path ∈ rail.files, sysfs path ≠ none := fun path hpath hclosed =>
    h ⟨path, hpath, hclosed⟩
  unfold files at hopen
  unfold readPowerMw
  cases hstrategy : rail.strategy with
  | directPower =>
    rw [hstrategy] at hopen
    exact Sysfs.readDouble_open (hopen rail.powerPath List.mem_cons_self)
  | voltageCurrentProduct =>
    rw [hstrategy] at hopen
    obtain ⟨v, hv⟩ := Sysfs.readDouble_open (hopen rail.voltagePath List.mem_cons_self)
    obtain ⟨c, hc⟩ := Sysfs.readDouble_open
      (hopen rail.currentPath (List.mem_cons_of_mem _ List.mem_cons_self))
    dsimp only
    rw [hv, hc]
    exact ⟨_, rfl⟩

/-- Where a rail reports its sensors, it reads a power exactly if they make one. -/
theorem readPowerMw_iff [Rounding] (h : rail.Reports sysfs) (p : Double) :
    rail.readPowerMw sysfs = .ok p ↔ rail.Draws sysfs p := by
  constructor
  · intro hread
    rcases h with hclosed | hsays
    · obtain ⟨e, he⟩ := readPowerMw_closed hclosed
      rw [he] at hread
      cases hread
    · obtain ⟨q, hq⟩ := draws_of_files hsays
      rw [readPowerMw_draws hq] at hread
      exact Except.ok.inj hread ▸ hq
  · exact readPowerMw_draws

/-- A rail that reads a power only if its sensors make one reports them. -/
theorem reports_of_sound [Rounding] (h : ∀ p, rail.readPowerMw sysfs = .ok p → ∃ q, rail.Draws sysfs q) :
    rail.Reports sysfs := by
  by_cases hclosed : ∃ path ∈ rail.files, sysfs path = none
  · exact Or.inl hclosed
  · obtain ⟨p, hp⟩ := readPowerMw_open hclosed
    obtain ⟨q, hq⟩ := h p hp
    exact Or.inr (files_of_draws hq)

end PowerRail

/-! ### The callers -/

namespace JetsonSoCBackend

theorem getInstantPowerW_eq [Rounding] {b : JetsonSoCBackend} {rail : PowerRail} {metric : String}
    (hrail : b.powerRails.find? (fun rail => rail.key == metric) = some rail) (sysfs : Sysfs) :
    b.getInstantPowerW sysfs metric = (rail.readPowerMw sysfs).map fun powerMw => fl (powerMw / 1000) := by
  unfold getInstantPowerW
  rw [hrail]
  dsimp only
  cases rail.readPowerMw sysfs <;> rfl

/-- **When an unreadable sensor is reported.** A rail reads a power exactly in case its
sensors make one, and an instant query of it answers exactly then, if and only if one of
its files cannot be opened or all of them hold numbers; and then a polling round adds what
the sensors say, or nothing. -/
theorem reports_unreadable_iff [Rounding] (rail : PowerRail) (sysfs : Sysfs) :
    ((∀ p, rail.readPowerMw sysfs = .ok p ↔ rail.Draws sysfs p) ↔ rail.Reports sysfs) ∧
    (∀ (b : JetsonSoCBackend) (metric : String),
      b.powerRails.find? (fun rail => rail.key == metric) = some rail →
      ((∀ p, b.getInstantPowerW sysfs metric = .ok p ↔ ∃ mw, rail.Draws sysfs mw ∧ p = fl (mw / 1000)) ↔
        rail.Reports sysfs)) ∧
    ∀ (dt : Double) (turns : ℕ → Sysfs) (n : ℕ) (cumulative : Map String Double), turns n = sysfs →
      rail.Reports sysfs →
      (∀ p, rail.Draws sysfs p → accumulate dt turns cumulative (rail, n) =
        cumulative.insert rail.key (fl (cumulative[rail.key]?.getD 0 + fl (p * dt)))) ∧
      ((¬ ∃ p, rail.Draws sysfs p) → accumulate dt turns cumulative (rail, n) = cumulative) := by
  refine ⟨⟨?sound, PowerRail.readPowerMw_iff⟩, ?query, ?round⟩
  case sound =>
    intro h
    exact PowerRail.reports_of_sound fun p hp => ⟨p, (h p).mp hp⟩
  case query =>
    intro b metric hrail
    simp only [getInstantPowerW_eq hrail]
    constructor
    · intro h
      apply PowerRail.reports_of_sound
      intro p hp
      obtain ⟨mw, hmw, -⟩ := (h (fl (p / 1000))).mp (by rw [hp]; rfl)
      exact ⟨mw, hmw⟩
    · intro h p
      constructor
      · intro hread
        cases hmw : rail.readPowerMw sysfs with
        | error e =>
          rw [hmw] at hread
          cases hread
        | ok mw =>
          rw [hmw] at hread
          exact ⟨mw, (PowerRail.readPowerMw_iff h mw).mp hmw, (Except.ok.inj hread).symm⟩
      · intro ⟨mw, hmw, hp⟩
        rw [PowerRail.readPowerMw_draws hmw, hp]
        rfl
  case round =>
    intro dt turns n cumulative hturn h
    subst hturn
    unfold accumulate
    dsimp only
    constructor
    · intro p hp
      rw [PowerRail.readPowerMw_draws hp]
    · intro hnone
      cases hread : rail.readPowerMw (turns n) with
      | error e => rfl
      | ok p => exact absurd ⟨p, (PowerRail.readPowerMw_iff h p).mp hread⟩ hnone

attribute [local instance] Rounding.binary64 in
/-- **An empty read is 0 W.** A sensor that gives the empty text, as sysfs does on a device
error, says no number, and is read as one. -/
theorem empty_read_is_zero :
    sampleRail.readPowerMw (fun _ => some "") = .ok 0 ∧
      (ofRails [sampleRail] 0).getInstantPowerW (fun _ => some "") "VDD_IN" = .ok 0 ∧
      ∀ p, ¬ sampleRail.Draws (fun _ => some "") p := by
  refine ⟨by decide +kernel, by decide +kernel, ?_⟩
  intro p ⟨text, x, htext, hnumber, _⟩
  obtain rfl := Option.some.inj htext
  have hfound := Sysfs.extractDouble_written hnumber
  have hnothing : Sysfs.extractDouble "".toList = none := by decide +kernel
  rw [hnothing] at hfound
  cases hfound

end JetsonSoCBackend

end ZeusPower.Device
