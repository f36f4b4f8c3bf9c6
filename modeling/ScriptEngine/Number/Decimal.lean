/-!
# Reading decimals

A decimal numeral denotes the double nearest to its exact value, ties going to
the even neighbour.  Source text only has digits and one point; texts that the
embedding program supplies may also have a sign and an exponent.
-/

namespace ScriptEngine.Number

/-- The value of a run of decimal digits. -/
def digitsValue (digits : List Char) : Nat :=
  digits.foldl (fun value digit => 10 * value + (digit.toNat - '0'.toNat)) 0

/--
How many digits are looked at one by one.  A number half-way between two
doubles has fewer digits, so of the digits after these it only matters whether
one of them is not zero.
-/
def decisiveDigits : Nat := 800

/-- The double nearest to a mantissa times a power of ten. -/
def ofMantissa (mantissa : Nat) (exponent : Int) : Float :=
  Float.ofScientific mantissa (exponent < 0) exponent.natAbs

/-- The double nearest to the value of a run of digits times a power of ten. -/
def ofDigits (digits : List Char) (exponent : Int) : Float :=
  let significant := digits.dropWhile (· == '0')
  let rest := significant.drop decisiveDigits
  if rest.isEmpty then
    ofMantissa (digitsValue significant) exponent
  else
    let remainder := if rest.all (· == '0') then 0 else 1
    ofMantissa (10 * digitsValue (significant.take decisiveDigits) + remainder)
      (exponent + Int.ofNat rest.length - 1)

/-- The double nearest to `whole.fraction * 10 ^ exponent`. -/
def ofDecimal (whole fraction : List Char) (exponent : Int) : Float :=
  ofDigits (whole ++ fraction) (exponent - Int.ofNat fraction.length)

/-- Reads an optionally signed exponent. -/
def readExponent? (characters : List Char) : Option Int :=
  let (negative, digits) :=
    match characters with
    | '-' :: rest => (true, rest)
    | '+' :: rest => (false, rest)
    | rest => (false, rest)
  if digits.isEmpty || !digits.all Char.isDigit then
    none
  else
    some (if negative then -Int.ofNat (digitsValue digits) else Int.ofNat (digitsValue digits))

/-- Reads an unsigned decimal with an optional fraction and exponent. -/
def readUnsigned? (characters : List Char) : Option Float :=
  let whole := characters.takeWhile Char.isDigit
  let afterWhole := characters.dropWhile Char.isDigit
  let (fraction, afterFraction) :=
    match afterWhole with
    | '.' :: rest => (rest.takeWhile Char.isDigit, rest.dropWhile Char.isDigit)
    | rest => ([], rest)
  if whole.isEmpty && fraction.isEmpty then
    none
  else
    match afterFraction with
    | [] => some (ofDecimal whole fraction 0)
    | marker :: exponent =>
      if marker == 'e' || marker == 'E' then
        (readExponent? exponent).map (ofDecimal whole fraction)
      else
        none

/-- Reads a decimal, an infinity or `nan`, with an optional sign. -/
def read? (text : String) : Option Float :=
  let (negative, characters) :=
    match text.toList with
    | '-' :: rest => (true, rest)
    | '+' :: rest => (false, rest)
    | rest => (false, rest)
  let magnitude? :=
    if characters = ['n', 'a', 'n'] then some (0.0 / 0.0)
    else if characters = ['i', 'n', 'f'] then some (1.0 / 0.0)
    else readUnsigned? characters
  magnitude?.map fun magnitude => if negative then -magnitude else magnitude

end ScriptEngine.Number
