import SecureKit.Text.Decimal

/-!
# Binary Floating Point Text

Positive numbers of the 32-bit binary floating point format, computed and written exactly. A ratio
is rounded to the nearest number, and a number is written with the fewest digits that still single
it out among all numbers of the format; of several such texts the one nearest to the number is
taken.

Only numbers of the normal range are made here, and the text is positional, with a point and at
least one digit on either side of it.
-/

namespace SecureKit

/-- The positive number `mantissa * 2 ^ exponent`, with a mantissa of 24 bits. -/
structure Binary32 where
  mantissa : Nat
  exponent : Int
  deriving DecidableEq

namespace Binary32

/-- The smallest mantissa. -/
def mantissaMin : Nat := 1 <<< 23

/-- `num / den` as a whole number; a half goes to the even neighbour. -/
def roundHalfEven (num den : Nat) : Nat :=
  let quotient := num / den
  let rest := num % den
  if 2 * rest < den then quotient
  else if den < 2 * rest then quotient + 1
  else quotient + quotient % 2

/-- A ratio times `2 ^ shift`, as a ratio. -/
def scaled (num den : Nat) (shift : Int) : Nat × Nat :=
  (num <<< shift.toNat, den <<< (-shift).toNat)

/-- The number nearest to the positive ratio `num / den`; of two nearest ones that with the even
mantissa. -/
def ofRatio (num den : Nat) : Binary32 :=
  let guess : Int := (Nat.log2 num : Int) - Nat.log2 den - 23
  -- the binary logarithms are rounded down, so the guess is at most one too high
  let (high, low) := scaled num den (-guess)
  let exponent := if high < mantissaMin * low then guess - 1 else guess
  let (high, low) := scaled num den (-exponent)
  -- rounding up may reach the first mantissa of the next exponent
  let mantissa := roundHalfEven high low
  if mantissa = 2 * mantissaMin then ⟨mantissaMin, exponent + 1⟩ else ⟨mantissa, exponent⟩

/-- The number as a ratio. -/
def ratio (number : Binary32) : Nat × Nat := scaled number.mantissa 1 number.exponent

/-- The number nearest to a quotient by a positive whole number. -/
def divide (number : Binary32) (divisor : Nat) : Binary32 :=
  let (num, den) := number.ratio
  ofRatio num (den * divisor)

/-- The step `10 ^ place` of the decimal grid and a quarter of the number's last mantissa bit, both
multiplied by one factor that makes them whole. -/
def units (number : Binary32) (place : Int) : Nat × Nat :=
  let shift := number.exponent - 2
  (Nat.pow 10 place.toNat <<< (-shift).toNat, Nat.pow 10 (-place).toNat <<< shift.toNat)

/-- Whether `point` reads back as the number, for a quarter of its last bit as `quarter`. The ends
of the interval belong to the number if its mantissa is even, and the interval reaches only half as
far down from a power of two. -/
def readsBack (number : Binary32) (quarter point : Nat) : Bool :=
  let down := if number.mantissa = mantissaMin then 1 else 2
  let low := (4 * number.mantissa - down) * quarter
  let high := (4 * number.mantissa + 2) * quarter
  if number.mantissa % 2 = 0 then low ≤ point && point ≤ high else low < point && point < high

/-- The multiple of `10 ^ place` to write for the number, if one reads back as it: the nearer of the
two neighbours of the number, and the even one of two at the same distance. -/
def onGrid? (number : Binary32) (place : Int) : Option Nat :=
  let (step, quarter) := number.units place
  let value := 4 * number.mantissa * quarter
  let below := value / step
  match number.readsBack quarter (below * step),
    number.readsBack quarter ((below + 1) * step) with
  | true, true => some (roundHalfEven value step)
  | true, false => some below
  | false, true => some (below + 1)
  | false, false => none

/-- The decimal places on which a number of the format can end, highest first. -/
def places : List Int := (List.range 94).map fun (i : Nat) => 39 - (i : Int)

/-- The digits, as a number, and the place of the last of them in the shortest text. -/
def shortest (number : Binary32) : Nat × Int :=
  (places.findSome? fun place => (number.onGrid? place).map (·, place)).getD (0, 0)

/-- `digits * 10 ^ place` written with a point. -/
def positional (digits : Nat) (place : Int) : Bytes :=
  if 0 ≤ place then
    Decimal.digits (digits * Nat.pow 10 place.toNat) ++ [Bytes.ascii '.', Bytes.ascii '0']
  else
    let count := (-place).toNat
    let fraction := Decimal.digits (digits % Nat.pow 10 count)
    Decimal.digits (digits / Nat.pow 10 count) ++ [Bytes.ascii '.'] ++
      List.replicate (count - fraction.length) (Bytes.ascii '0') ++ fraction

/-- The shortest text that reads back as the number. -/
def text (number : Binary32) : Bytes :=
  let (digits, place) := number.shortest
  positional digits place

/-- The text of thousandths: `value` and its thousandth part are both rounded to the format. -/
def thousandths (value : Int) : Bytes :=
  if value = 0 then [Bytes.ascii '0', Bytes.ascii '.', Bytes.ascii '0']
  else
    let magnitude := ((ofRatio value.natAbs 1).divide 1000).text
    if value < 0 then Bytes.ascii '-' :: magnitude else magnitude

end Binary32

end SecureKit
