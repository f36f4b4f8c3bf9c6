/-!
# What a double denotes

A double is not a number, an infinity, or a signed dyadic fraction
`significand * 2 ^ exponent`.  `denote` reads the three fields of the binary
form; `assemble` builds the double of an exactly representable fraction.  The
exact remainder and the test for integers work on these parts.
-/

namespace ScriptEngine.Number

/-- The meaning of a double. -/
inductive Denotation where
  | notANumber
  | infinity (negative : Bool)
  | finite (negative : Bool) (significand : Nat) (exponent : Int)
deriving Repr, DecidableEq

/-- A power of two. -/
def twoTo (exponent : Nat) : Nat :=
  Nat.pow 2 exponent

/-- Reads sign, exponent and fraction fields of the binary form. -/
def denote (number : Float) : Denotation :=
  let bits := number.toBits.toNat
  let negative := bits / twoTo 63 == 1
  let field := bits / twoTo 52 % twoTo 11
  let fraction := bits % twoTo 52
  if field = 2047 then
    if fraction = 0 then .infinity negative else .notANumber
  else if field = 0 then
    .finite negative fraction (-1074)
  else
    .finite negative (fraction + twoTo 52) (Int.ofNat field - 1075)

/--
The double of a signed dyadic fraction with a significand below `2 ^ 53` and an
exponent of at least `-1074`; every such fraction of ordinary size is
representable.
-/
def assemble (negative : Bool) (significand : Nat) (exponent : Int) : Float :=
  let sign := if negative then twoTo 63 else 0
  if significand = 0 then
    Float.ofBits (UInt64.ofNat sign)
  else
    let room := Int.ofNat (52 - Nat.log2 significand)
    let shifted := max (exponent - room) (-1074)
    let scaled := significand * twoTo (exponent - shifted).toNat
    let field := if scaled < twoTo 52 then 0 else (shifted + 1075).toNat
    Float.ofBits (UInt64.ofNat (sign + field * twoTo 52 + scaled % twoTo 52))

/-- Whether the double is negative zero or lies below zero. -/
def isNegative (number : Float) : Bool :=
  number.toBits.toNat / twoTo 63 == 1

/--
The exact remainder of a truncated division.  It has the sign of the dividend;
an infinite dividend or a zero divisor leaves no number.
-/
def remainder (dividend divisor : Float) : Float :=
  match denote dividend, denote divisor with
  | .finite negative significand exponent, .finite _ modulus scale =>
    if modulus = 0 then
      0.0 / 0.0
    else
      let common := min exponent scale
      let left := significand * twoTo (exponent - common).toNat
      let right := modulus * twoTo (scale - common).toNat
      assemble negative (left % right) common
  | .finite _ _ _, .infinity _ => dividend
  | _, _ => 0.0 / 0.0

/-- The integer that the double denotes, if it denotes one. -/
def integer? (number : Float) : Option Int :=
  match denote number with
  | .finite negative significand exponent =>
    let magnitude : Option Nat :=
      if 0 ≤ exponent then
        some (significand * twoTo exponent.toNat)
      else
        let divisor := twoTo (-exponent).toNat
        if significand % divisor = 0 then some (significand / divisor) else none
    magnitude.map fun size => if negative then -Int.ofNat size else Int.ofNat size
  | _ => none

end ScriptEngine.Number
