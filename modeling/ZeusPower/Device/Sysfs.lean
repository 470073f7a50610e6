import ZeusPower.Basic

/-! Reading a number from a sysfs file (`read_sysfs_double` of `device/soc_jetson.h`).

`f >> val` skips white space, takes the longest run of characters that can begin a
decimal floating-point number, and converts it to the nearest one there is; where the run is not a whole number
the stream fails and `val` becomes 0. `extractDouble` is that extraction, with
`none` for a failed stream. -/
namespace ZeusPower.Device

/-- The files as they are at one moment: a path that cannot be opened has no text. -/
abbrev Sysfs := String → Option String

namespace Sysfs

/-- `isspace` in the C locale. -/
def isSpace (c : Char) : Bool := c.toNat == 32 || (9 ≤ c.toNat && c.toNat ≤ 13)

/-- The number a run of decimal digits spells. -/
def digitsValue (digits : List Char) : ℕ :=
  digits.foldl (fun n c => 10 * n + (c.toNat - 48)) 0

/-- An optional sign: whether it is a minus, and the text after it. -/
def takeSign : List Char → Bool × List Char
  | '-' :: rest => (true, rest)
  | '+' :: rest => (false, rest)
  | text => (false, text)

/-- The power of ten after the mantissa. An `e` with no digits after it makes the
whole conversion fail; no `e` at all is the power 1. -/
def extractExponent : List Char → Option Double
  | c :: rest =>
    if c = 'e' ∨ c = 'E' then
      let (negative, rest) := takeSign rest
      let digits := rest.takeWhile Char.isDigit
      if digits.isEmpty then none
      else some (if negative then 1 / 10 ^ digitsValue digits else 10 ^ digitsValue digits)
    else some 1
  | [] => some 1

/-- `f >> val`, on the text of the file. -/
def extractDouble [Rounding] (text : List Char) : Option Double :=
  let (negative, text) := takeSign (text.dropWhile isSpace)
  let whole := text.takeWhile Char.isDigit
  let text := text.dropWhile Char.isDigit
  let (fraction, text) := match text with
    | '.' :: rest => (rest.takeWhile Char.isDigit, rest.dropWhile Char.isDigit)
    | text => ([], text)
  if whole.isEmpty && fraction.isEmpty then none
  else do
    let scale ← extractExponent text
    let magnitude := (digitsValue (whole ++ fraction) : Double) / 10 ^ fraction.length * scale
    some (fl (if negative then -magnitude else magnitude))

/-- A failed extraction is not reported: `val` is 0 and is returned. -/
def readDouble [Rounding] (sysfs : Sysfs) (path : String) : Except Error Double :=
  match sysfs path with
  | none => .error (.cannotReadSysfs path)
  | some text => .ok ((extractDouble text.toList).getD 0)

attribute [local instance] Library.Rounding.binary64 in
example : extractDouble "  -12.50e1\n".toList = some (-125) := by decide +kernel

end Sysfs

end ZeusPower.Device
