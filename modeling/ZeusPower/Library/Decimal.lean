import Mathlib.Algebra.Field.Basic
import Mathlib.Data.List.Basic

/-! Decimal numerals, as text and as numbers.

A `Numeral` is an optional sign, digits, an optional fraction and an optional exponent,
with a digit in it somewhere; `text` spells it and `value` is what it stands for. A text
is `Written` as a number if it is the spelling of one between white space, and nothing
else. The lemmas on runs say what a scanner finds of such a text, piece by piece. -/
namespace ZeusPower.Library.Decimal

/-! ### Runs -/

section Runs
variable {α : Type*} {p : α → Bool} {run rest : List α}

/-- A run ends where the test first fails. -/
theorem takeWhile_run (hrun : ∀ c ∈ run, p c = true) (hrest : ∀ c, rest.head? = some c → p c = false) :
    (run ++ rest).takeWhile p = run := by
  rw [List.takeWhile_append_of_pos hrun]
  cases rest with
  | nil => rw [List.takeWhile_nil, List.append_nil]
  | cons c rest => rw [List.takeWhile_cons_of_neg (by rw [hrest c rfl]; exact Bool.false_ne_true), List.append_nil]

theorem dropWhile_of_head (hrest : ∀ c, rest.head? = some c → p c = false) : rest.dropWhile p = rest := by
  cases rest with
  | nil => rfl
  | cons c rest => rw [List.dropWhile_cons_of_neg (by rw [hrest c rfl]; exact Bool.false_ne_true)]

theorem dropWhile_run (hrun : ∀ c ∈ run, p c = true) (hrest : ∀ c, rest.head? = some c → p c = false) :
    (run ++ rest).dropWhile p = rest := by
  rw [List.dropWhile_append_of_pos hrun, dropWhile_of_head hrest]

end Runs

theorem isDigit_iff {c : Char} : c.isDigit = true ↔ 48 ≤ c.toNat ∧ c.toNat ≤ 57 := by
  simp only [Char.isDigit, Bool.and_eq_true, decide_eq_true_eq, ge_iff_le, UInt32.le_iff_toNat_le]
  rfl

/-! ### Numerals -/

/-- The number a run of decimal digits spells. -/
def ofDigits (digits : List Char) : ℕ := digits.foldl (fun n c => 10 * n + (c.toNat - 48)) 0

/-- An optional sign; `some true` is a minus. -/
def signText : Option Bool → List Char
  | none => []
  | some true => ['-']
  | some false => ['+']

structure Exponent where
  letter : Char
  sign : Option Bool
  digits : List Char
  isLetter : letter = 'e' ∨ letter = 'E'
  someDigit : digits ≠ []
  isDigits : ∀ c ∈ digits, c.isDigit = true

structure Numeral where
  sign : Option Bool
  whole : List Char
  /-- the digits after the point, if there is a point -/
  fraction : Option (List Char)
  exponent : Option Exponent
  wholeDigits : ∀ c ∈ whole, c.isDigit = true
  fractionDigits : ∀ c ∈ fraction.getD [], c.isDigit = true
  someDigit : whole ++ fraction.getD [] ≠ []

namespace Numeral
variable (x : Numeral)

def fractionText : List Char :=
  match x.fraction with
  | none => []
  | some digits => '.' :: digits

def exponentText : List Char :=
  match x.exponent with
  | none => []
  | some e => e.letter :: (signText e.sign ++ e.digits)

def text : List Char := signText x.sign ++ (x.whole ++ (x.fractionText ++ x.exponentText))

variable {K : Type*} [Field K]

/-- The power of ten after the mantissa. -/
def scale : K :=
  match x.exponent with
  | none => 1
  | some e => if e.sign = some true then 1 / 10 ^ ofDigits e.digits else 10 ^ ofDigits e.digits

def value : K :=
  let fraction := x.fraction.getD []
  let magnitude := (ofDigits (x.whole ++ fraction) : K) / 10 ^ fraction.length * x.scale
  if x.sign = some true then -magnitude else magnitude

end Numeral

/-- The text is a numeral of value `v`, between white space, and nothing else. -/
def Written {K : Type*} [Field K] (space : Char → Bool) (text : List Char) (v : K) : Prop :=
  ∃ (lead trail : List Char) (x : Numeral), text = lead ++ (x.text ++ trail) ∧
    (∀ c ∈ lead, space c = true) ∧ (∀ c ∈ trail, space c = true) ∧ x.value = v

/-! ### Where the pieces end -/

section Ends
variable {x : Numeral} {trail : List Char} {c : Char}

/-- After the mantissa comes the letter of an exponent, or what follows the numeral. -/
theorem head_exponent (h : (x.exponentText ++ trail).head? = some c) :
    c = 'e' ∨ c = 'E' ∨ trail.head? = some c := by
  unfold Numeral.exponentText at h
  split at h
  next => exact Or.inr (Or.inr h)
  next e _ =>
    obtain rfl := Option.some.inj h
    exact e.isLetter.imp_right Or.inl

/-- After the digits comes a point, an exponent, or what follows the numeral. -/
theorem head_fraction (h : (x.fractionText ++ (x.exponentText ++ trail)).head? = some c) :
    c = '.' ∨ c = 'e' ∨ c = 'E' ∨ trail.head? = some c := by
  unfold Numeral.fractionText at h
  split at h
  next => exact Or.inr (head_exponent h)
  next => exact Or.inl (Option.some.inj h).symm

/-- The mantissa begins with a digit or a point. -/
theorem head_mantissa (h : (x.whole ++ (x.fractionText ++ (x.exponentText ++ trail))).head? = some c) :
    c.isDigit = true ∨ c = '.' := by
  cases hwhole : x.whole with
  | cons d rest =>
    rw [hwhole] at h
    obtain rfl := Option.some.inj h
    exact Or.inl (x.wholeDigits d (hwhole ▸ List.mem_cons_self))
  | nil =>
    have hsome := x.someDigit
    rw [hwhole, List.nil_append] at hsome
    rw [hwhole, List.nil_append] at h
    unfold Numeral.fractionText at h
    split at h
    next hnone =>
      rw [hnone] at hsome
      exact absurd rfl hsome
    next => exact Or.inr (Option.some.inj h).symm

end Ends

end ZeusPower.Library.Decimal
