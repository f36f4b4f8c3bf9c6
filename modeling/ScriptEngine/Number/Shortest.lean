import ScriptEngine.Number.Dyadic
import ScriptEngine.Text.Column

/-!
# The shortest decimal of a double

Among the decimals that read back as a given double there are some with the
fewest digits; the text of the double is the one of them that lies nearest to
it.  The search works with exact fractions.  For every decimal grid, from the
coarsest down, it looks at the two grid points around the value and takes one
that lies in the interval of reals that round to the double; of two the nearer
one, and the upper one when both are equally near.

A number is always written positionally, without an exponent, and an integer
is written without a fraction.
-/

namespace ScriptEngine.Number

/-- A power of ten. -/
def tenTo (exponent : Nat) : Nat :=
  Nat.pow 10 exponent

/-- A positive fraction together with the interval of reals that round to it. -/
structure Interval where
  /-- The value, over `denominator`. -/
  value : Nat
  /-- The lower end, over `denominator`. -/
  low : Nat
  /-- The upper end, over `denominator`. -/
  high : Nat
  denominator : Nat
  /-- Whether the ends belong to the interval. -/
  closed : Bool

namespace Interval

/-- The interval of the double `significand * 2 ^ exponent`. -/
def ofDyadic (significand : Nat) (exponent : Int) : Interval :=
  let scale := twoTo (exponent - 2).toNat
  let below := if significand = twoTo 52 ∧ -1074 < exponent then 1 else 2
  { value := 4 * significand * scale
    low := (4 * significand - below) * scale
    high := (4 * significand + 2) * scale
    denominator := twoTo (2 - exponent).toNat
    closed := significand % 2 == 0 }

/-- Whether the fraction `numerator / divisor` is not below the lower end. -/
def reaches (interval : Interval) (numerator divisor : Nat) : Bool :=
  if interval.closed then
    interval.low * divisor ≤ numerator * interval.denominator
  else
    interval.low * divisor < numerator * interval.denominator

/-- Whether the fraction `numerator / divisor` is not above the upper end. -/
def allows (interval : Interval) (numerator divisor : Nat) : Bool :=
  if interval.closed then
    numerator * interval.denominator ≤ interval.high * divisor
  else
    numerator * interval.denominator < interval.high * divisor

/--
The chosen multiple of `10 ^ position` next to the value, if one of the two
neighbours lies in the interval.
-/
def gridPoint? (interval : Interval) (position : Int) : Option Nat :=
  let multiplier := tenTo position.toNat
  let divisor := tenTo (-position).toNat
  let step := interval.denominator * multiplier
  let scaled := interval.value * divisor
  let lower := scaled / step
  let lowerFits := interval.reaches (lower * multiplier) divisor && lower != 0
  let upperFits := interval.allows ((lower + 1) * multiplier) divisor
  if upperFits && (!lowerFits || step ≤ 2 * (scaled % step)) then
    some (lower + 1)
  else if lowerFits then
    some lower
  else
    none

/-- The position of the leading decimal digit of the value. -/
def leadingPosition (interval : Interval) : Int :=
  if interval.denominator ≤ interval.value then
    Int.ofNat (Text.decimal (interval.value / interval.denominator)).length - 1
  else
    let digits := (Text.decimal (interval.denominator / interval.value)).length
    if interval.denominator ≤ interval.value * tenTo (digits - 1) then
      1 - Int.ofNat digits
    else
      -Int.ofNat digits

/-- Tries up to `grids` grids, each ten times finer than the one before. -/
def search (interval : Interval) : Nat → Int → Nat × Int
  | 0, position => (0, position)
  | grids + 1, position =>
    match interval.gridPoint? position with
    | some digits => (digits, position)
    | none => search interval grids (position - 1)

/-- Digits and decimal exponent of the shortest decimal in the interval. -/
def shortest (interval : Interval) : Nat × Int :=
  interval.search 18 (interval.leadingPosition + 1)

end Interval

/-- The number `digits * 10 ^ position` written positionally. -/
def positional (digits : Nat) (position : Int) : String :=
  let written := Text.decimal digits
  if 0 ≤ position then
    written ++ Text.run '0' position.toNat
  else
    let places := (-position).toNat
    if places < written.length then
      let whole := written.toList.take (written.length - places)
      let fraction := written.toList.drop (written.length - places)
      String.ofList whole ++ "." ++ String.ofList fraction
    else
      "0." ++ Text.run '0' (places - written.length) ++ written

/-- The text of a double as scripts see it. -/
def display (number : Float) : String :=
  match denote number with
  | .notANumber => "nan"
  | .infinity negative => if negative then "-inf" else "inf"
  | .finite negative significand exponent =>
    let sign := if negative then "-" else ""
    if significand = 0 then
      sign ++ "0"
    else
      let (digits, position) := (Interval.ofDyadic significand exponent).shortest
      sign ++ positional digits position

end ScriptEngine.Number
