import DeviceMessages.Decimal.Binary64

/-!
# Decimal notations of a nonnegative rational

There are three ways to write a measured value: with a fixed number of places, with one digit before
the point and an exponent, and the general notation, which counts significant digits and takes
whichever of the other two suits the size of the value. All of them round the exact value once, to
the nearest with ties to even.

The general notation decides by the exponent *after* rounding: `9.9999995` with seven digits is
`10.00000`, which has the exponent 1. It asks for more places than it has digits if that exponent is
negative, and nothing is written if these are more than there can be.
-/

namespace DeviceMessages.Decimal

inductive LetterCase where
  | lower
  | upper
deriving DecidableEq

/-- Digits with a decimal point before the last `places` of them, or none if `places` is zero. -/
def withPoint (places : Nat) (ds : List Char) : List Char :=
  let whole := ds.length - places
  if places = 0 then ds else ds.take whole ++ '.' :: ds.drop whole

/-- The value rounded to a number of decimal places. -/
def fixedNotation (places : Nat) (x : Rat) : List Char :=
  let scaled := (roundHalfEven (x * (10 : Rat) ^ (places : Int))).toNat
  withPoint places (paddedDigits (places + 1) scaled)

/-- The exponent of the largest power of ten that a positive rational reaches. -/
def floorLog10 (x : Rat) : Int :=
  if 1 ≤ x then ((digits x.floor.toNat).length : Int) - 1
  else -((digits (x⁻¹.ceil.toNat - 1)).length : Int)

/-- A value rounded to some significant digits: all the digits as one number, and the exponent of
the first. -/
structure Rounded where
  digits : Nat
  exponent : Int
deriving DecidableEq

/-- The value rounded to one digit and `places` more. Zero has the exponent 0. -/
def Rounded.ofRat (places : Nat) (x : Rat) : Rounded :=
  if x = 0 then ⟨0, 0⟩
  else
    let exponent := floorLog10 x
    let scaled := (roundHalfEven (x * (10 : Rat) ^ ((places : Int) - exponent))).toNat
    if scaled < Nat.pow 10 (places + 1) then ⟨scaled, exponent⟩
    else ⟨Nat.pow 10 places, exponent + 1⟩

/-- The exponent of a number: the letter, a sign always, and at least two digits. -/
def exponentSuffix (letters : LetterCase) (exponent : Int) : List Char :=
  let letter := match letters with
    | .lower => 'e'
    | .upper => 'E'
  letter :: (if exponent < 0 then '-' else '+') :: paddedDigits 2 exponent.natAbs

/-- The value with one digit before the point, `places` digits after it, and an exponent. -/
def exponentNotation (letters : LetterCase) (places : Nat) (x : Rat) : List Char :=
  let rounded := Rounded.ofRat places x
  withPoint places (paddedDigits (places + 1) rounded.digits) ++
    exponentSuffix letters rounded.exponent

/-- A number without the zeros that end its fraction, and without a point that then ends it. -/
def stripFractionZeros (cs : List Char) : List Char :=
  if cs.contains '.' then
    ((cs.reverse.dropWhile (· == '0')).dropWhile (· == '.')).reverse
  else cs

/-- The largest number of places that a number can be written with. -/
def maxPlaces : Nat := 65535

/-- The value with a number of significant digits, at least one. It is fixed when the exponent of
the rounded value is at least -4 and less than the number of digits, and has an exponent otherwise.
Zeros at the end of the fraction go, unless they are to be kept. A fixed value with too many places,
counted before the zeros go, cannot be written at all. -/
def generalNotation (letters : LetterCase) (keepZeros : Bool) (precision : Nat) (x : Rat) :
    Option (List Char) :=
  let significant := if precision = 0 then 1 else precision
  let strip := if keepZeros then id else stripFractionZeros
  let rounded := Rounded.ofRat (significant - 1) x
  if -4 ≤ rounded.exponent ∧ rounded.exponent < significant then
    let places := ((significant : Int) - 1 - rounded.exponent).toNat
    if places ≤ maxPlaces then some (strip (fixedNotation places x)) else none
  else
    some (strip (withPoint (significant - 1) (paddedDigits significant rounded.digits)) ++
      exponentSuffix letters rounded.exponent)

end DeviceMessages.Decimal
